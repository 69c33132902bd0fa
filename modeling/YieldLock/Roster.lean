import YieldLock.Mutex

/-!
# Rosters

A roster keeps one entry for each thread that has one and a default for all
others, in the order in which the entries were made. Counting entries with a
property is a sum over the threads that have an entry.
-/

namespace YieldLock

structure Roster (α : Type) where
  entries : List (Thread × α) := []
  deriving DecidableEq, Repr

namespace Roster

variable {α : Type} [Inhabited α]

def empty : Roster α := {}

instance : Inhabited (Roster α) := ⟨empty⟩

def find? (roster : Roster α) (thread : Thread) : Option α := roster.entries.lookup thread

def get (roster : Roster α) (thread : Thread) : α := (roster.find? thread).getD default

def contains (roster : Roster α) (thread : Thread) : Bool := (roster.find? thread).isSome

/-- Replaces the first entry of a thread, or adds one at the end. -/
def setIn (thread : Thread) (entry : α) : List (Thread × α) → List (Thread × α)
  | [] => [(thread, entry)]
  | (other, old) :: rest =>
    if other = thread then (thread, entry) :: rest else (other, old) :: setIn thread entry rest

def set (roster : Roster α) (thread : Thread) (entry : α) : Roster α :=
  ⟨setIn thread entry roster.entries⟩

def threads (roster : Roster α) : List Thread := roster.entries.map Prod.fst

def count (roster : Roster α) (p : α → Bool) : Nat := roster.entries.countP fun entry ↦ p entry.2

omit [Inhabited α] in
theorem lookup_setIn (thread other : Thread) (entry : α) (entries : List (Thread × α)) :
    (setIn thread entry entries).lookup other =
      if other = thread then some entry else entries.lookup other := by
  induction entries with
  | nil => simp [setIn, List.lookup_cons]; grind
  | cons head rest ih =>
    obtain ⟨name, old⟩ := head
    simp only [setIn]
    split <;> simp only [List.lookup_cons] <;> grind

@[simp] theorem get_set_self (roster : Roster α) (thread : Thread) (entry : α) :
    (roster.set thread entry).get thread = entry := by
  simp [get, find?, set, lookup_setIn]

theorem get_set_of_ne (roster : Roster α) {thread other : Thread} (entry : α)
    (h : other ≠ thread) : (roster.set thread entry).get other = roster.get other := by
  simp [get, find?, set, lookup_setIn, h]

theorem get_set (roster : Roster α) (thread other : Thread) (entry : α) :
    (roster.set thread entry).get other = if other = thread then entry else roster.get other := by
  split
  · subst other; simp
  · exact get_set_of_ne roster entry ‹_›

/-- An entry leaves the count with its old value and joins it with its new one. -/
theorem count_set (roster : Roster α) (p : α → Bool) (hp : p default = false)
    (thread : Thread) (entry : α) :
    (roster.set thread entry).count p + (if p (roster.get thread) then 1 else 0) =
      roster.count p + (if p entry then 1 else 0) := by
  obtain ⟨entries⟩ := roster
  simp only [set, count, get, find?]
  induction entries with
  | nil => simp [setIn, hp]
  | cons head rest ih =>
    obtain ⟨name, old⟩ := head
    by_cases h : name = thread
    · subst name
      simp only [setIn, if_true, List.countP_cons, List.lookup_cons, beq_self_eq_true,
        Option.getD_some]
      omega
    · have hne : (thread == name) = false := by simpa using fun e ↦ h e.symm
      simp only [setIn, h, if_false, List.countP_cons, List.lookup_cons, hne]
      grind

end Roster

end YieldLock
