import YieldLock.Roster
import YieldLock.Thread.Step

/-!
# Threads around one lock

A world is a lock, the threads that use it and a clock. It moves when a thread
enters, when a thread that is idle makes a call, when a thread inside a call makes
its next step, or when time passes. Any order of moves is a run: no schedule is
built in, and a thread that could take the lock may do so ahead of one that has
waited longer. Threads are numbered by nonzero words that are never used again,
so there are fewer of them than words.
-/

namespace YieldLock

structure World (σ : Type) where
  lock : Lock σ
  threads : Roster (ThreadState σ) := {}
  /-- The time in nanoseconds. -/
  clock : Nat := 0
  deriving DecidableEq, Repr

inductive Move (σ : Type) where
  | enter (thread : Thread) (title : Option String)
  | call (thread : Thread) (call : Call σ)
  | step (thread : Thread)
  | pass (nanos : Nat)
  deriving DecidableEq, Repr

namespace World

variable {σ : Type}

def thread (world : World σ) (name : Thread) : ThreadState σ := world.threads.get name

/-- The world after one thread has made a step. -/
def after (world : World σ) (name : Thread) (effect : Effect σ) : World σ :=
  { world with lock := effect.lock, threads := world.threads.set name effect.self }

/-- Whether there are numbers left for those of some threads that have none yet. -/
def hasRoomFor (world : World σ) (names : List Thread) : Bool :=
  world.threads.entries.length + names.countP (!world.threads.contains ·) < UInt64.size

/-- A thread of the given title enters the world. -/
def enlist (world : World σ) (name : Thread) (title : Option String) : World σ :=
  { world with threads := world.threads.set name { title } }

/-- A worker's thread as it is when it is started, about to become the worker. -/
def newborn (title : String) : ThreadState σ where
  title := some title
  isSpawned := true
  activity := .busy .start .starting

/-- Starts a thread under the configured name, unless that name cannot be a thread's. -/
def spawn (world : World σ) (name : Thread) (child : Thread) : World σ × List (Event σ) :=
  let self := world.thread name
  let title := world.lock.config.workerName
  let call := Call.spawn child
  if title.toList.contains '\x00' then
    (world, [.answered call (.panicked (.interiorNul title))])
  else
    let parent := { self with handles := child :: self.handles }
    ({ world with threads := (world.threads.set child (newborn title)).set name parent },
      [.answered call .spawned])

/-- An idle thread makes a call that it is free to make. -/
def call? (build : Build) (world : World σ) (name : Thread) (call : Call σ) :
    Option (World σ × List (Event σ)) :=
  let self := world.thread name
  match call with
  | .spawn child =>
    if self.permits call && child ≠ name && !world.threads.contains child &&
        world.hasRoomFor [name, child] then
      some (world.spawn name child)
    else none
  | call =>
    if world.hasRoomFor [name] then
      (self.invoke? build world.clock name world.lock call).map fun effect ↦
        (world.after name effect, effect.events)
    else none

/-- A thread that waits for another to end is answered how it ended. -/
def join? (world : World σ) (name child : Thread) : Option (Effect σ) :=
  match (world.thread child).activity with
  | .finished outcome =>
    let error := outcome.map LockError.ofPanic
    ThreadState.answer world.lock (world.thread name) (.join child) (.joined error) []
  | _ => none

/-- A thread inside a call makes its next step, if it can. -/
def step? (build : Build) (world : World σ) (name : Thread) :
    Option (World σ × List (Event σ)) :=
  let self := world.thread name
  let effect? :=
    match self.activity with
    | .busy _ (.joining child) => world.join? name child
    | _ => self.step? build world.clock name world.lock
  effect?.map fun effect ↦ (world.after name effect, effect.events)

def move? (build : Build) (world : World σ) : Move σ → Option (World σ × List (Event σ))
  | .enter name title =>
    if !world.threads.contains name && world.hasRoomFor [name] then
      some (world.enlist name title, [])
    else none
  | .call name call => world.call? build name call
  | .step name => world.step? build name
  | .pass nanos => some ({ world with clock := world.clock + nanos }, [])

end World

end YieldLock
