import YieldLock.Proofs.Rule
import YieldLock.World

/-!
# Runs

A run starts with a new lock that no thread has used and makes moves in any
order. A turn is one move of it together with the worlds on both sides. Main
statements: `change_of_move?`, which splits a move into a rule for one thread or
the arrival of another, and `Reachable.forall_threads`, which turns a property of
a lock and one thread that every rule keeps into one of every reachable world.
-/

namespace YieldLock

variable {σ : Type}

/-- A lock as it comes from one of its constructors. With another sleeper it is the same lock: the
worker asks for one span of sleep, and how long that takes is for the moves of time to say. A
sleeper that panics or does not come back is not among them. -/
inductive Lock.IsNew : Lock σ → Prop where
  | standard (build : Build) (value : σ) : IsNew (.standard build value)
  | withConfig {value : σ} {config : Config} {lock : Lock σ}
      (h : Lock.withConfig value config = .ok lock) : IsNew lock
  | withTeardown {lock : Lock σ} (teardown : Teardown) (hnew : IsNew lock) :
      IsNew (lock.withTeardown teardown)

theorem Lock.eq_of_withConfig {value : σ} {config : Config} {lock : Lock σ}
    (h : Lock.withConfig value config = .ok lock) : lock = { value, config } := by
  unfold Lock.withConfig at h
  cases hvalid : config.validate with
  | error error =>
    rw [hvalid] at h
    cases h
  | ok =>
    rw [hvalid] at h
    cases h
    rfl

/-- A new lock has its value, its configuration and perhaps a teardown; all else is as at first. -/
theorem Lock.IsNew.exists_eq {lock : Lock σ} (h : lock.IsNew) :
    ∃ (value : σ) (config : Config) (teardown : Option Teardown),
      lock = { value, config, teardown } := by
  induction h with
  | standard build value => exact ⟨value, .standard build, none, rfl⟩
  | @withConfig value config lock h => exact ⟨value, config, none, Lock.eq_of_withConfig h⟩
  | withTeardown teardown _ ih =>
    obtain ⟨value, config, _, rfl⟩ := ih
    exact ⟨value, config, some teardown, rfl⟩

namespace Roster

variable {α : Type} [Inhabited α]

theorem get_of_not_contains {roster : Roster α} {thread : Thread}
    (h : roster.contains thread = false) : roster.get thread = default := by
  have hnone : roster.find? thread = none := by
    simpa [contains] using h
  simp [get, hnone]

theorem contains_of_get_ne {roster : Roster α} {thread : Thread}
    (h : roster.get thread ≠ default) : roster.contains thread = true := by
  cases hcontains : roster.contains thread with
  | true => rfl
  | false => exact absurd (get_of_not_contains hcontains) h

section

omit [Inhabited α]

/-- Setting an entry makes the roster longer only for a thread that has none. -/
theorem length_set (roster : Roster α) (thread : Thread) (entry : α) :
    (roster.set thread entry).entries.length =
      roster.entries.length + [thread].countP (!roster.contains ·) := by
  obtain ⟨entries⟩ := roster
  simp only [set, contains, find?, List.countP_singleton]
  induction entries with
  | nil => rfl
  | cons head rest ih =>
    obtain ⟨name, old⟩ := head
    by_cases hname : name = thread
    · subst hname
      simp [setIn]
    · have hother : (thread == name) = false := by simpa using fun heq ↦ hname heq.symm
      simp only [setIn, if_neg hname, List.lookup_cons, hother, List.length_cons, ih]
      omega

theorem contains_set (roster : Roster α) (thread other : Thread) (entry : α) :
    (roster.set thread entry).contains other = (other == thread || roster.contains other) := by
  simp only [contains, find?, set, lookup_setIn]
  split <;> simp_all

end

end Roster

/-- The call that concerns two threads from its first step on. -/
def Call.isSpawn : Call σ → Bool
  | .spawn _ => true
  | _ => false

/-- The point at which a thread waits for another to end. -/
def Point.isJoining : Point → Bool
  | .joining _ => true
  | _ => false

/-- The call was answered with a panic of some kind, and that panic is not the one from which its
thread was unwinding before. -/
def Event.raises (kind : Panic → Bool) : Event σ → Bool
  | .answered call (.panicked panic) => !call.isUnwinding && kind panic
  | _ => false

/-- The move by which a thread starts a call or goes on inside one. -/
def Move.ofThread (name : Thread) : Option (Call σ) → Move σ
  | some made => .call name made
  | none => .step name

/-- The thread that a move belongs to. -/
def Move.thread? : Move σ → Option Thread
  | .enter name _ | .call name _ | .step name => some name
  | .pass _ => none

@[simp] theorem Move.thread?_ofThread (name : Thread) (call? : Option (Call σ)) :
    (Move.ofThread name call?).thread? = some name := by
  cases call? <;> rfl

namespace World

/-- No thread has used the lock. -/
structure IsNew (world : World σ) : Prop where
  lock : world.lock.IsNew
  threads : world.threads = {}

/-- What a move changes. -/
inductive Change (build : Build) (world : World σ) :
    Move σ → World σ → List (Event σ) → Prop where
  | enter (name : Thread) (title : Option String)
      (hnew : world.threads.contains name = false) (hroom : world.hasRoomFor [name] = true) :
      Change build world (.enter name title) (world.enlist name title) []
  | pass (nanos : Nat) :
      Change build world (.pass nanos) { world with clock := world.clock + nanos } []
  | own (name : Thread) (call? : Option (Call σ)) (effect : Effect σ)
      (hroom : call?.isSome = true → world.hasRoomFor [name] = true)
      (rule : ThreadState.Rule build world.clock name world.lock (world.thread name) call? effect) :
      Change build world (.ofThread name call?) (world.after name effect) effect.events
  | spawn (name child : Thread) (hidle : (world.thread name).activity = .idle)
      (hname : child ≠ name) (hnew : world.threads.contains child = false)
      (hroom : world.hasRoomFor [name, child] = true)
      (htitle : '\x00' ∉ world.lock.config.workerName.toList) :
      Change build world (.call name (.spawn child))
        { world with
          threads :=
            (world.threads.set child (newborn world.lock.config.workerName)).set name
              { world.thread name with handles := child :: (world.thread name).handles } }
        [.answered (.spawn child) .spawned]
  | spawnRefused (name child : Thread) (hidle : (world.thread name).activity = .idle)
      (htitle : '\x00' ∈ world.lock.config.workerName.toList) :
      Change build world (.call name (.spawn child)) world
        [.answered (.spawn child) (.panicked (.interiorNul world.lock.config.workerName))]

variable {build : Build} {world next : World σ} {events : List (Event σ)}

theorem change_of_spawn {name child : Thread}
    (h : world.call? build name (.spawn child) = some (next, events)) :
    Change build world (.call name (.spawn child)) next events := by
  unfold call? at h
  simp only at h
  split at h
  · rename_i hspawn
    simp only [Bool.and_eq_true, decide_eq_true_eq, Bool.not_eq_true'] at hspawn
    obtain ⟨⟨⟨hpermits, hname⟩, hnew⟩, hroom⟩ := hspawn
    have hidle : (world.thread name).activity = .idle := by
      cases hactivity : (world.thread name).activity <;>
        simp_all [ThreadState.permits, Activity.isIdle]
    rw [Option.some_inj] at h
    unfold spawn at h
    simp only [List.contains_iff_mem] at h
    split at h
    · rename_i htitle
      cases h
      exact .spawnRefused name child hidle htitle
    · rename_i htitle
      cases h
      exact .spawn name child hidle hname hnew hroom htitle
  · cases h

/-- A call other than a spawn is a step of its thread alone. -/
theorem call?_of_not_spawn (world : World σ) (name : Thread) {call : Call σ}
    (hspawn : call.isSpawn = false) :
    world.call? build name call =
      if world.hasRoomFor [name] then
        ((world.thread name).invoke? build world.clock name world.lock call).map fun effect ↦
          (world.after name effect, effect.events)
      else none := by
  cases call with
  | spawn child => cases hspawn
  | _ => rfl

/-- A call other than a spawn follows a rule of its thread. -/
theorem exists_rule_of_call? {name : Thread} {call : Call σ} (hspawn : call.isSpawn = false)
    (h : world.call? build name call = some (next, events)) :
    ∃ effect, ThreadState.Rule build world.clock name world.lock (world.thread name) (some call)
        effect ∧ world.hasRoomFor [name] = true ∧ next = world.after name effect ∧
      events = effect.events := by
  rw [call?_of_not_spawn world name hspawn] at h
  split at h
  · rename_i hroom
    obtain ⟨effect, heffect, hnext⟩ := Option.map_eq_some_iff.mp h
    cases hnext
    exact ⟨effect, ThreadState.rule_of_invoke? heffect, hroom, rfl, rfl⟩
  · cases h

/-- A step inside a call follows a rule of its thread. -/
theorem exists_rule_of_step? {name : Thread} (h : world.step? build name = some (next, events)) :
    ∃ effect, ThreadState.Rule build world.clock name world.lock (world.thread name) none effect ∧
      next = world.after name effect ∧ events = effect.events := by
  unfold step? at h
  obtain ⟨effect, heffect, hnext⟩ := Option.map_eq_some_iff.mp h
  cases hnext
  refine ⟨effect, ?_, rfl, rfl⟩
  split at heffect
  · rename_i call child hbusy
    unfold join? at heffect
    split at heffect
    · cases heffect
      exact .joined hbusy
    · cases heffect
  · exact ThreadState.rule_of_step? heffect

theorem change_of_call? {name : Thread} {call : Call σ}
    (h : world.call? build name call = some (next, events)) :
    Change build world (.call name call) next events := by
  cases hspawn : call.isSpawn with
  | true =>
    cases call with
    | spawn child => exact change_of_spawn h
    | _ => cases hspawn
  | false =>
    obtain ⟨effect, rule, hroom, rfl, rfl⟩ := exists_rule_of_call? hspawn h
    exact .own name (some call) effect (fun _ ↦ hroom) rule

theorem change_of_step? {name : Thread} (h : world.step? build name = some (next, events)) :
    Change build world (.step name) next events := by
  obtain ⟨effect, rule, rfl, rfl⟩ := exists_rule_of_step? h
  exact .own name none effect (by simp) rule

/-- A move is a step of one thread by a rule, or a thread arrives, or time passes. -/
theorem change_of_move? {move : Move σ} (h : world.move? build move = some (next, events)) :
    Change build world move next events := by
  cases move with
  | enter name title =>
    unfold move? at h
    simp only at h
    split at h
    · rename_i henter
      simp only [Bool.and_eq_true, Bool.not_eq_true'] at henter
      cases h
      exact .enter name title henter.1 henter.2
    · cases h
  | call name call => exact change_of_call? h
  | step name => exact change_of_step? h
  | pass nanos =>
    cases h
    exact .pass nanos

theorem thread_after (world : World σ) (name other : Thread) (effect : Effect σ) :
    (world.after name effect).thread other =
      if other = name then effect.self else world.thread other :=
  Roster.get_set _ _ _ _

@[simp] theorem thread_after_self (world : World σ) (name : Thread) (effect : Effect σ) :
    (world.after name effect).thread name = effect.self := by
  rw [thread_after, if_pos rfl]

theorem thread_after_of_ne (world : World σ) {name other : Thread} (effect : Effect σ)
    (h : other ≠ name) : (world.after name effect).thread other = world.thread other := by
  rw [thread_after, if_neg h]

@[simp] theorem lock_after (world : World σ) (name : Thread) (effect : Effect σ) :
    (world.after name effect).lock = effect.lock := rfl

theorem thread_enlist (world : World σ) (name other : Thread) (title : Option String) :
    (world.enlist name title).thread other =
      if other = name then { title } else world.thread other :=
  Roster.get_set _ _ _ _

/-- A step does not look at other threads unless it joins one. -/
theorem step?_of_busy {name : Thread} {call : Call σ} {point : Point}
    (hbusy : (world.thread name).activity = .busy call point)
    (hpoint : point.isJoining = false) :
    world.step? build name =
      ((world.thread name).step? build world.clock name world.lock).map fun effect ↦
        (world.after name effect, effect.events) := by
  unfold step?
  simp only [hbusy]
  split
  · rename_i other child hjoining
    cases hjoining
    cases hpoint
  · rfl

/-- A thread that needs the lock and can take it goes on. -/
theorem step?_of_canTake {name : Thread} (hwants : (world.thread name).activity.wantsLock = true)
    (hfree : world.lock.mutex.canTake name = true) :
    ∃ next events, world.step? build name = some (next, events) ∧
      (next.thread name).activity.wantsLock = false := by
  obtain ⟨call, point, hbusy, hpoint⟩ := Activity.exists_of_wantsLock hwants
  obtain ⟨effect, heffect, hgone⟩ :=
    ThreadState.step?_of_canTake build world.clock hbusy hpoint hfree
  have hself : point.isJoining = false := by
    cases point with
    | joining => cases hpoint
    | _ => rfl
  refine ⟨world.after name effect, effect.events, ?_, ?_⟩
  · rw [step?_of_busy hbusy hself, heffect]
    rfl
  · rw [thread_after_self]
    exact hgone

/-- A move of another thread leaves a thread as it was, if it does not start it as a worker. -/
theorem Change.thread_of_unspawned {me : Thread} {move : Move σ}
    (change : Change build world move next events) (hne : move.thread? ≠ some me)
    (hspawn : ∀ parent, move ≠ .call parent (.spawn me)) : next.thread me = world.thread me := by
  cases change with
  | enter other title =>
    rw [thread_enlist, if_neg]
    rintro rfl
    exact hne rfl
  | pass | spawnRefused => rfl
  | own other call? effect =>
    apply thread_after_of_ne world effect
    rintro rfl
    exact hne (Move.thread?_ofThread me call?)
  | spawn other child =>
    have hother : me ≠ other := by
      rintro rfl
      exact hne rfl
    have hchild : me ≠ child := by
      rintro rfl
      exact hspawn other rfl
    simp only [thread, Roster.get_set, if_neg hother, if_neg hchild]

/-- A move of another thread leaves a thread as it was or starts it as a worker. -/
theorem Change.thread_of_others {me : Thread} {move : Move σ}
    (change : Change build world move next events) (hne : move.thread? ≠ some me) :
    next.thread me = world.thread me ∨
      world.threads.contains me = false ∧ ∃ title, next.thread me = newborn title := by
  cases change with
  | enter other title =>
    left
    rw [thread_enlist, if_neg]
    rintro rfl
    exact hne rfl
  | pass | spawnRefused => exact .inl rfl
  | own other call? effect =>
    left
    apply thread_after_of_ne world effect
    rintro rfl
    exact hne (Move.thread?_ofThread me call?)
  | spawn other child _ _ hunknown =>
    have hother : me ≠ other := by
      rintro rfl
      exact hne rfl
    simp only [thread, Roster.get_set, if_neg hother]
    split
    · subst me
      exact .inr ⟨hunknown, _, rfl⟩
    · exact .inl rfl

/-- A thread that has an entry keeps it. -/
theorem Change.contains_kept {name : Thread} {move : Move σ}
    (change : Change build world move next events)
    (h : world.threads.contains name = true) : next.threads.contains name = true := by
  cases change with
  | enter | own => exact (Roster.contains_set ..).trans (by rw [h, Bool.or_true])
  | spawn =>
    simp only [Roster.contains_set, h, Bool.or_true]
  | pass | spawnRefused => exact h

/-- A thread that is known changes by its own moves only. -/
theorem Change.thread_of_ne {me : Thread} {move : Move σ}
    (change : Change build world move next events)
    (hknown : world.thread me ≠ {}) (hne : move.thread? ≠ some me) :
    next.thread me = world.thread me := by
  obtain hkept | ⟨hunknown, _⟩ := change.thread_of_others hne
  · exact hkept
  · exact absurd (Roster.get_of_not_contains hunknown) hknown

/-- A property of a lock and one thread holds for every thread after a move if it held before, does
not depend on titles and handles, and is kept by the thread's own step and by those of others. -/
theorem Change.forall_threads {P : Lock σ → Thread → ThreadState σ → Prop} {move : Move σ}
    (change : Change build world move next events)
    (h : ∀ name, P world.lock name (world.thread name))
    (entered : ∀ name title, P world.lock name {} → P world.lock name { title })
    (born : ∀ name title, P world.lock name {} → P world.lock name (newborn title))
    (spawned : ∀ name self handles, self.activity = .idle → P world.lock name self →
      P world.lock name { self with handles })
    (own : ∀ name call? effect, events = effect.events →
      ThreadState.Rule build world.clock name world.lock (world.thread name) call? effect →
      P world.lock name (world.thread name) → P effect.lock name effect.self)
    (others : ∀ name call? effect other,
      ThreadState.Rule build world.clock name world.lock (world.thread name) call? effect →
      other ≠ name → P world.lock other (world.thread other) →
      P effect.lock other (world.thread other)) (name : Thread) :
    P next.lock name (next.thread name) := by
  cases change with
  | enter other title hunknown =>
    rw [thread_enlist]
    split
    · subst name
      have hdefault : world.thread other = {} := Roster.get_of_not_contains hunknown
      exact entered other title (hdefault ▸ h other)
    · exact h name
  | pass nanos => exact h name
  | own other call? effect _ rule =>
    rw [thread_after, lock_after]
    split
    · subst name
      exact own other call? effect rfl rule (h other)
    · exact others other call? effect name rule ‹_› (h name)
  | spawn other child hidle hname hunknown =>
    simp only [thread, Roster.get_set]
    split
    · subst name
      exact spawned other _ _ hidle (h other)
    · split
      · subst name
        have hdefault : world.thread child = {} := Roster.get_of_not_contains hunknown
        exact born child _ (hdefault ▸ h child)
      · exact h name
  | spawnRefused => exact h name

/-- What a move does to a thread that is known: nothing, or it is a step of the thread by a rule, or
the thread is idle and may have got a handle. -/
inductive ChangeOf (build : Build) (world : World σ) (me : Thread) :
    Move σ → World σ → List (Event σ) → Prop where
  | others {move : Move σ} {next : World σ} {events : List (Event σ)}
      (hother : move.thread? ≠ some me) (hself : next.thread me = world.thread me) :
      ChangeOf build world me move next events
  | own (call? : Option (Call σ)) (effect : Effect σ)
      (rule : ThreadState.Rule build world.clock me world.lock (world.thread me) call? effect) :
      ChangeOf build world me (.ofThread me call?) (world.after me effect) effect.events
  | spawns {child : Thread} {next : World σ} {events : List (Event σ)}
      (hidle : (world.thread me).activity = .idle) (handles : List Thread)
      (hself : next.thread me = { world.thread me with handles }) :
      ChangeOf build world me (.call me (.spawn child)) next events

theorem Change.changeOf {me : Thread} {move : Move σ} (change : Change build world move next events)
    (hknown : world.thread me ≠ {}) : ChangeOf build world me move next events := by
  by_cases hmine : move.thread? = some me
  · cases change with
    | enter name title hunknown =>
      cases hmine
      exact absurd (Roster.get_of_not_contains hunknown) hknown
    | pass => cases hmine
    | own name call? effect _ rule =>
      rw [Move.thread?_ofThread, Option.some_inj] at hmine
      subst hmine
      exact .own call? effect rule
    | spawn name child hidle =>
      cases hmine
      exact .spawns hidle _ (Roster.get_set_self _ _ _)
    | spawnRefused name child hidle =>
      cases hmine
      exact .spawns hidle _ rfl
  · exact .others hmine (change.thread_of_ne hknown hmine)

theorem thread_of_new (hnew : world.IsNew) (name : Thread) : world.thread name = {} := by
  unfold thread
  rw [hnew.threads]
  rfl

end World

/-- One move of a run with the worlds before and after it and what it showed. -/
structure Turn (σ : Type) where
  before : World σ
  move : Move σ
  after : World σ
  events : List (Event σ)

namespace Turn

def IsMove (build : Build) (turn : Turn σ) : Prop :=
  turn.before.move? build turn.move = some (turn.after, turn.events)

/-- The turn belongs to a thread and shows that a call of it was answered. -/
def Answers (turn : Turn σ) (name : Thread) (call : Call σ) (answer : Answer σ) : Prop :=
  turn.move.thread? = some name ∧ .answered call answer ∈ turn.events

/-- The turn shows that a call raised a panic of some kind. -/
def raises (kind : Panic → Bool) (turn : Turn σ) : Bool := turn.events.any (·.raises kind)

end Turn

/-- A run from a world to a world, with its turns in order. -/
inductive Run (build : Build) (start : World σ) : List (Turn σ) → World σ → Prop where
  | nil : Run build start [] start
  | snoc {turns : List (Turn σ)} {turn : Turn σ} (run : Run build start turns turn.before)
      (hmove : turn.IsMove build) : Run build start (turns ++ [turn]) turn.after

/-- The worlds of all runs. -/
def Reachable (build : Build) (world : World σ) : Prop :=
  ∃ start turns, World.IsNew start ∧ Run build start turns world

section

variable {build : Build} {start middle world : World σ} {turns others : List (Turn σ)}

theorem Run.append (run : Run build start turns middle) (more : Run build middle others world) :
    Run build start (turns ++ others) world := by
  induction more with
  | nil => rwa [List.append_nil]
  | snoc more hmove ih =>
    rw [← List.append_assoc]
    exact .snoc ih hmove

theorem Run.single {turn : Turn σ} (hmove : turn.IsMove build) :
    Run build turn.before [turn] turn.after :=
  .snoc .nil hmove

theorem Run.cons {turn : Turn σ} (hmove : turn.IsMove build)
    (run : Run build turn.after turns world) : Run build turn.before (turn :: turns) world :=
  (Run.single hmove).append run

/-- The turn that a move makes, if it can be made. -/
def World.turn? (build : Build) (world : World σ) (move : Move σ) : Option (Turn σ) :=
  (world.move? build move).map fun (next, events) ↦ ⟨world, move, next, events⟩

/-- Makes moves one after the other if each can be made. -/
def World.play? (build : Build) (world : World σ) :
    List (Move σ) → Option (List (Turn σ) × World σ)
  | [] => some ([], world)
  | move :: moves =>
    match world.turn? build move with
    | none => none
    | some turn => (turn.after.play? build moves).map fun (turns, last) ↦ (turn :: turns, last)

theorem Turn.isMove_of_turn? {turn : Turn σ} {move : Move σ}
    (h : start.turn? build move = some turn) :
    turn.before = start ∧ turn.move = move ∧ turn.IsMove build := by
  obtain ⟨⟨next, events⟩, hmove, rfl⟩ := Option.map_eq_some_iff.mp h
  exact ⟨rfl, rfl, hmove⟩

/-- The first of several moves is made, and then the others. -/
theorem World.play?_cons {move : Move σ} {moves : List (Move σ)} :
    start.play? build (move :: moves) = some (turns, world) ↔
      ∃ next events later, start.move? build move = some (next, events) ∧
        next.play? build moves = some (later, world) ∧
        turns = ⟨start, move, next, events⟩ :: later := by
  rw [play?, turn?]
  cases start.move? build move with
  | none => simp
  | some result =>
    rw [Option.map_some]
    constructor
    · intro h
      obtain ⟨⟨later, last⟩, hplay, hlast⟩ := Option.map_eq_some_iff.mp h
      cases hlast
      exact ⟨_, _, later, rfl, hplay, rfl⟩
    · rintro ⟨next, events, later, hmove, hplay, rfl⟩
      cases hmove
      exact Option.map_eq_some_iff.mpr ⟨_, hplay, rfl⟩

/-- Moves are made in two parts, one after the other. -/
theorem World.play?_append {moves more : List (Move σ)} :
    start.play? build (moves ++ more) = some (turns, world) ↔
      ∃ earlier middle later, start.play? build moves = some (earlier, middle) ∧
        middle.play? build more = some (later, world) ∧ turns = earlier ++ later := by
  induction moves generalizing start turns with
  | nil =>
    constructor
    · exact fun hplay ↦ ⟨[], start, turns, rfl, hplay, rfl⟩
    · rintro ⟨_, _, later, hnone, hplay, rfl⟩
      cases hnone
      exact hplay
  | cons move moves ih =>
    simp only [List.cons_append, play?_cons, ih]
    constructor
    · rintro ⟨next, events, _, hmove, ⟨earlier, middle, later, hplay, hmore, rfl⟩, rfl⟩
      exact ⟨_, middle, later, ⟨next, events, earlier, hmove, hplay, rfl⟩, hmore, rfl⟩
    · rintro ⟨_, middle, later, ⟨next, events, earlier, hmove, hplay, rfl⟩, hmore, rfl⟩
      exact ⟨next, events, _, hmove, ⟨earlier, middle, later, hplay, hmore, rfl⟩, rfl⟩

theorem run_of_play? {moves : List (Move σ)} (h : start.play? build moves = some (turns, world)) :
    Run build start turns world := by
  induction moves generalizing start turns with
  | nil =>
    cases h
    exact .nil
  | cons move moves ih =>
    obtain ⟨next, events, later, hmove, hplay, rfl⟩ := World.play?_cons.mp h
    let turn : Turn σ := ⟨start, move, next, events⟩
    have hturn : turn.IsMove build := hmove
    exact Run.cons hturn (ih hplay)

theorem Reachable.run (h : Reachable build start) (run : Run build start turns world) :
    Reachable build world := by
  obtain ⟨first, earlier, hnew, hfirst⟩ := h
  exact ⟨first, earlier ++ turns, hnew, hfirst.append run⟩

theorem Reachable.move {move : Move σ} {events : List (Event σ)} (h : Reachable build start)
    (hmove : start.move? build move = some (world, events)) : Reachable build world := by
  let turn : Turn σ := ⟨start, move, world, events⟩
  have hturn : turn.IsMove build := hmove
  exact h.run (Run.single hturn)

theorem Run.reachable (run : Run build start turns world) (hnew : start.IsNew) :
    Reachable build world := ⟨start, turns, hnew, run⟩

/-- Every turn of a run is a move from a world that a part of the run leads to. -/
theorem Run.exists_of_mem {turn : Turn σ} (run : Run build start turns world)
    (hmem : turn ∈ turns) :
    ∃ earlier, earlier <+: turns ∧ Run build start earlier turn.before ∧ turn.IsMove build := by
  induction run with
  | nil => cases hmem
  | @snoc turns last run hmove ih =>
    rw [List.mem_append, List.mem_singleton] at hmem
    obtain hmem | rfl := hmem
    · obtain ⟨earlier, hearlier, hrun⟩ := ih hmem
      exact ⟨earlier, hearlier.trans (List.prefix_append turns [last]), hrun⟩
    · exact ⟨turns, List.prefix_append turns [turn], run, hmove⟩

/-- Induction along the moves that lead to a reachable world. -/
theorem Reachable.induct {P : World σ → Prop} (h : Reachable build world)
    (new : ∀ world, world.IsNew → P world)
    (change : ∀ world move next events, Reachable build world → P world →
      World.Change build world move next events → P next) : P world := by
  obtain ⟨start, turns, hnew, run⟩ := h
  induction run with
  | nil => exact new _ hnew
  | snoc run hmove ih =>
    exact change _ _ _ _ (run.reachable hnew) ih (World.change_of_move? hmove)

/-- A property of a lock and one thread holds for every thread of a reachable world if it holds
for a thread that has done nothing, does not depend on titles and handles, and is kept by the
thread's own steps and by those of others. -/
theorem Reachable.forall_threads {P : Lock σ → Thread → ThreadState σ → Prop}
    (h : Reachable build world)
    (new : ∀ lock name, Lock.IsNew lock → P lock name {})
    (entered : ∀ lock name title, P lock name {} → P lock name { title })
    (born : ∀ lock name title, P lock name {} → P lock name (World.newborn title))
    (spawned : ∀ lock name self handles, self.activity = .idle → P lock name self →
      P lock name { self with handles })
    (own : ∀ now lock name self call? effect,
      ThreadState.Rule build now name lock self call? effect → P lock name self →
      P effect.lock name effect.self)
    (others : ∀ now lock name self call? effect other state,
      ThreadState.Rule build now name lock self call? effect → other ≠ name →
      P lock other state → P effect.lock other state) (name : Thread) :
    P world.lock name (world.thread name) := by
  refine h.induct (P := fun world ↦ ∀ name, P world.lock name (world.thread name)) ?_ ?_ name
  · intro start hnew name
    rw [World.thread_of_new hnew]
    exact new _ name hnew.lock
  · intro world move next events _ ih change
    refine change.forall_threads ih ?_ ?_ ?_ ?_ ?_
    · exact fun name title ↦ entered world.lock name title
    · exact fun name title ↦ born world.lock name title
    · exact fun name self handles ↦ spawned world.lock name self handles
    · exact fun name call? effect _ rule ↦ own _ _ name _ call? effect rule
    · exact fun name call? effect other rule ↦ others _ _ name _ call? effect other _ rule

/-- A thread inside a call has an entry in the world. -/
theorem World.contains_of_rule {name : Thread} {effect : Effect σ}
    (rule : ThreadState.Rule build world.clock name world.lock (world.thread name) none effect) :
    world.threads.contains name = true := by
  apply Roster.contains_of_get_ne
  intro hdefault
  apply rule.ne_idle
  rw [World.thread, hdefault]
  rfl

theorem World.hasRoomFor_iff (names : List Thread) :
    world.hasRoomFor names = true ↔
      world.threads.entries.length + names.countP (!world.threads.contains ·) < UInt64.size :=
  decide_eq_true_iff

/-- There are fewer threads than numbers for them. -/
theorem Reachable.length_lt (h : Reachable build world) :
    world.threads.entries.length < UInt64.size := by
  refine h.induct (P := fun world ↦ world.threads.entries.length < UInt64.size) ?_ ?_
  · intro start hnew
    rw [hnew.threads]
    exact Nat.two_pow_pos 64
  · intro world move next events _ ih change
    cases change with
    | enter name title _ hroom =>
      rw [World.enlist, Roster.length_set]
      exact (World.hasRoomFor_iff _).mp hroom
    | pass nanos => exact ih
    | own name call? effect hroom rule =>
      rw [World.after, Roster.length_set]
      cases call? with
      | some call => exact (World.hasRoomFor_iff _).mp (hroom rfl)
      | none =>
        rw [List.countP_singleton, World.contains_of_rule rule]
        exact ih
    | spawn name child _ hname _ hroom =>
      rw [World.hasRoomFor_iff, List.countP_cons, List.countP_singleton] at hroom
      have hother : (name == child) = false := by simpa using fun heq ↦ hname heq.symm
      simp only [Roster.length_set, List.countP_singleton, Roster.contains_set, hother,
        Bool.false_or]
      omega
    | spawnRefused name child => exact ih

/-- A thread that has an entry needs no further number. -/
theorem Reachable.hasRoomFor (h : Reachable build world) {name : Thread}
    (hname : world.thread name ≠ {}) : world.hasRoomFor [name] = true := by
  rw [World.hasRoomFor_iff, List.countP_singleton, Roster.contains_of_get_ne hname]
  exact h.length_lt

end

end YieldLock
