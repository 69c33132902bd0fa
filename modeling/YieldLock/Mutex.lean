/-!
# A reentrant mutex

At most one thread holds the mutex, any number of levels deep. A thread that
finds it held by another waits in a queue in order of arrival. The view of a
mutex is the depth to which each thread holds it.
-/

namespace YieldLock

/-- Threads are told apart by name. -/
abbrev Thread := String

/-- The holder and how often it has taken the mutex beyond the first time. -/
structure Hold where
  thread : Thread
  again : Nat := 0
  deriving DecidableEq, Repr

structure Mutex where
  hold : Option Hold := none
  queue : List Thread := []
  deriving DecidableEq, Repr

namespace Mutex

/-- How many levels of the mutex a thread holds. -/
def depth (mutex : Mutex) (thread : Thread) : Nat :=
  match mutex.hold with
  | none => 0
  | some hold => if hold.thread = thread then hold.again + 1 else 0

def isLocked (mutex : Mutex) : Bool := mutex.hold.isSome

def isHeldBy (mutex : Mutex) (thread : Thread) : Bool := 0 < mutex.depth thread

/-- A thread can take a mutex that is free or already its own. -/
def canTake (mutex : Mutex) (thread : Thread) : Bool :=
  !mutex.isLocked || mutex.isHeldBy thread

/-- One more level for a thread that can take the mutex; it no longer waits. -/
def take (mutex : Mutex) (thread : Thread) : Mutex where
  hold :=
    match mutex.hold with
    | none => some { thread }
    | some hold => some { hold with again := hold.again + 1 }
  queue := mutex.queue.erase thread

/-- One level less for the thread that holds the mutex; no change for any other. -/
def giveBack (mutex : Mutex) (thread : Thread) : Mutex :=
  match mutex.hold with
  | none => mutex
  | some hold =>
    if hold.thread = thread then
      match hold.again with
      | 0 => { mutex with hold := none }
      | again + 1 => { mutex with hold := some { hold with again } }
    else mutex

/-- Gives back the level of a hold that may be absent. -/
def giveBackIf (mutex : Mutex) (thread : Thread) (holds : Bool) : Mutex :=
  if holds then mutex.giveBack thread else mutex

def giveBackMany (mutex : Mutex) (thread : Thread) : Nat → Mutex
  | 0 => mutex
  | count + 1 => giveBackMany (mutex.giveBack thread) thread count

/-- A thread that cannot take the mutex joins the end of the queue. -/
def wait (mutex : Mutex) (thread : Thread) : Mutex :=
  { mutex with queue := mutex.queue ++ [thread] }

def isWaiting (mutex : Mutex) (thread : Thread) : Bool := mutex.queue.contains thread

/-- The thread whose turn it is: the oldest in the queue of a free mutex. -/
def next? (mutex : Mutex) : Option Thread :=
  if mutex.isLocked then none else mutex.queue.head?

theorem depth_pos_unique {mutex : Mutex} {left right : Thread}
    (hleft : 0 < mutex.depth left) (hright : 0 < mutex.depth right) : left = right := by
  unfold depth at hleft hright
  split at hleft
  · omega
  · grind

/-- A mutex that is not locked is one that no thread holds. -/
theorem isLocked_eq_false_iff {mutex : Mutex} :
    mutex.isLocked = false ↔ ∀ thread, mutex.depth thread = 0 := by
  obtain ⟨hold, queue⟩ := mutex
  cases hold with
  | none => simp [isLocked, depth]
  | some hold =>
    refine ⟨nofun, fun h ↦ ?_⟩
    have hdepth := h hold.thread
    simp [depth] at hdepth

theorem isHeldBy_eq_false_iff {mutex : Mutex} {thread : Thread} :
    mutex.isHeldBy thread = false ↔ mutex.depth thread = 0 := by
  rw [isHeldBy, decide_eq_false_iff_not, Nat.not_lt, Nat.le_zero]

theorem canTake_of_isHeldBy {mutex : Mutex} {thread : Thread}
    (h : mutex.isHeldBy thread = true) : mutex.canTake thread = true := by
  rw [canTake, h, Bool.or_true]

theorem isLocked_of_isHeldBy {mutex : Mutex} {thread : Thread}
    (h : mutex.isHeldBy thread = true) : mutex.isLocked = true := by
  refine Bool.not_eq_false _ |>.mp fun hfree ↦ ?_
  rw [isHeldBy, isLocked_eq_false_iff.mp hfree thread] at h
  cases h

/-- A thread cannot take a mutex that another one holds. -/
theorem canTake_of_owner {mutex : Mutex} {owner thread : Thread}
    (h : mutex.isHeldBy owner = true) (hne : thread ≠ owner) : mutex.canTake thread = false := by
  have hother : mutex.isHeldBy thread = false := by
    refine Bool.eq_false_iff.mpr fun hheld ↦ ?_
    exact hne (depth_pos_unique (of_decide_eq_true hheld) (of_decide_eq_true h))
  rw [canTake, isLocked_of_isHeldBy h, hother]
  rfl

theorem depth_take_self {mutex : Mutex} {thread : Thread} (h : mutex.canTake thread = true) :
    (mutex.take thread).depth thread = mutex.depth thread + 1 := by
  simp only [canTake, isLocked, isHeldBy, depth, take] at *
  grind

theorem depth_take_other {mutex : Mutex} {thread other : Thread}
    (h : mutex.canTake thread = true) (hne : other ≠ thread) :
    (mutex.take thread).depth other = mutex.depth other := by
  simp only [canTake, isLocked, isHeldBy, depth, take] at *
  grind

theorem depth_giveBack_self (mutex : Mutex) (thread : Thread) :
    (mutex.giveBack thread).depth thread = mutex.depth thread - 1 := by
  unfold giveBack depth
  grind

theorem depth_giveBack_other (mutex : Mutex) {thread other : Thread} (hne : other ≠ thread) :
    (mutex.giveBack thread).depth other = mutex.depth other := by
  unfold giveBack depth
  grind

theorem depth_giveBackIf_self (mutex : Mutex) (thread : Thread) (holds : Bool) :
    (mutex.giveBackIf thread holds).depth thread =
      mutex.depth thread - if holds then 1 else 0 := by
  cases holds with
  | false => rfl
  | true => exact depth_giveBack_self mutex thread

theorem depth_giveBackIf_other (mutex : Mutex) {thread other : Thread} (holds : Bool)
    (hne : other ≠ thread) : (mutex.giveBackIf thread holds).depth other = mutex.depth other := by
  cases holds with
  | false => rfl
  | true => exact depth_giveBack_other mutex hne

theorem depth_giveBackMany_self (mutex : Mutex) (thread : Thread) (count : Nat) :
    (mutex.giveBackMany thread count).depth thread = mutex.depth thread - count := by
  induction count generalizing mutex with
  | zero => rfl
  | succ count ih =>
    rw [giveBackMany, ih, depth_giveBack_self]
    omega

theorem depth_giveBackMany_other (mutex : Mutex) {thread other : Thread} (count : Nat)
    (hne : other ≠ thread) :
    (mutex.giveBackMany thread count).depth other = mutex.depth other := by
  induction count generalizing mutex with
  | zero => rfl
  | succ count ih => rw [giveBackMany, ih, depth_giveBack_other mutex hne]

@[simp] theorem depth_wait (mutex : Mutex) (thread other : Thread) :
    (mutex.wait thread).depth other = mutex.depth other := rfl

@[simp] theorem queue_giveBack (mutex : Mutex) (thread : Thread) :
    (mutex.giveBack thread).queue = mutex.queue := by
  unfold giveBack
  grind

/-- Taking a level and giving it back leaves the holder as it was. -/
theorem hold_giveBack_take {mutex : Mutex} {thread : Thread}
    (h : mutex.canTake thread = true) :
    ((mutex.take thread).giveBack thread).hold = mutex.hold := by
  obtain ⟨hold, queue⟩ := mutex
  cases hold with
  | none => simp [take, giveBack]
  | some hold =>
    have howner : hold.thread = thread := by
      simp only [canTake, isLocked, isHeldBy, depth] at h
      grind
    simp [take, giveBack, ← howner]

end Mutex

end YieldLock
