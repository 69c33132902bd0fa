/-!
# The two builds

A checked build stops with a panic where an assertion fails or an unsigned sum
overflows. An unchecked build skips assertions and lets unsigned sums wrap. The
build is a parameter of every operation that can tell the difference.
-/

namespace YieldLock

inductive Build where
  | checked
  | unchecked
  deriving DecidableEq, Repr

namespace Build

/-- Whether this build makes assertions and overflow checks. -/
def isChecked : Build → Bool
  | checked => true
  | unchecked => false

@[simp] theorem isChecked_eq_true (build : Build) : build.isChecked = true ↔ build = checked := by
  cases build <;> simp [isChecked]

end Build

end YieldLock
