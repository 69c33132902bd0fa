import YieldLock.Demo.MachineLoop
import YieldLock.Proofs.Deeds
import YieldLock.Proofs.Isolation
import YieldLock.Proofs.Spawned

/-!
# The machine's loop at work

A plant is a world in which one of the threads runs the machine's loop. The other
threads do as they like, and so does that thread before and after the loop. Main
statements: `Plant.stride`, all that a step of the loop can do, and
`Plant.Reachable.loopsAt`, what the thread has at each stage of the loop.
-/

namespace YieldLock

variable {σ : Type}

/-- The points from which a session is ended. -/
def Point.isEnding : Point → Bool
  | lowering | disposing | tearingDown _ | marking => true
  | _ => false

/-- The points of a yield at which the lock has been handed over. -/
def Point.isHandedOver : Point → Bool
  | sleeping | retaking => true
  | _ => false

def Activity.isEnding : Activity σ → Bool
  | busy _ point => point.isEnding
  | _ => false

namespace ThreadState

/-- The thread is idle and its session runs and holds a level. -/
def Runs (self : ThreadState σ) : Prop := self.activity = .idle ∧ self.session = some {}

/-- The thread is idle inside a window. -/
def Rests (self : ThreadState σ) : Prop :=
  self.activity = .idle ∧ self.session = some { phase := .yielding, holds := false }

/-- The thread looks in a yield whether anyone waits. -/
def Polls (self : ThreadState σ) : Prop :=
  self.session = some {} ∧ self.activity = .busy .yieldNow .polling

/-- The thread has handed the lock over in a yield. -/
def HandsOver (self : ThreadState σ) : Prop :=
  self.session = some {} ∧ ∃ point : Point, point.isHandedOver = true ∧
    self.activity = .busy .yieldNow point

/-- The thread ends its session in a call. -/
def Ends (self : ThreadState σ) (call : Call σ) : Prop :=
  ∃ point : Point, point.isEnding = true ∧ self.activity = .busy call point

section

variable {build : Build} {now : Nat} {me : Thread} {lock : Lock σ} {self : ThreadState σ}
  {effect : Effect σ}

theorem Rule.of_runs_read (rule : Rule build now me lock self (some (.read .session)) effect)
    (h : self.Runs) : effect = answer lock self (.read .session) (.value lock.value) [] := by
  cases rule with
  | read => rfl
  | outOfReach _ _ hsession hholds =>
    cases h.2.symm.trans hsession
    cases hholds
  | dropBegin _ hcall | dropEnded _ hcall => obtain h | ⟨_, h⟩ := hcall <;> cases h

theorem Rule.of_runs_write {value : σ}
    (rule : Rule build now me lock self (some (.write .session value)) effect) (h : self.Runs) :
    effect = answer { lock with value } self (.write .session value) (.value lock.value) [] := by
  cases rule with
  | write => rfl
  | outOfReach _ _ hsession hholds =>
    cases h.2.symm.trans hsession
    cases hholds
  | dropBegin _ hcall | dropEnded _ hcall => obtain h | ⟨_, h⟩ := hcall <;> cases h

/-- A session that runs opens a window, unless guards on its thread keep the lock. -/
theorem Rule.of_runs_open (rule : Rule build now me lock self (some .openWindow) effect)
    (h : self.Runs) : effect.lock.stats = lock.stats ∧
      (effect.answers = [.opened] ∧ effect.self.Rests ∨
        effect.answers = [.panicked .nestedWindow]) := by
  cases rule with
  | openWindow => exact ⟨rfl, .inl ⟨rfl, rfl, rfl⟩⟩
  | openNested => exact ⟨rfl, .inr rfl⟩
  | openAfterExit _ hsession hphase | openTwice _ hsession hphase =>
    cases h.2.symm.trans hsession
    cases hphase
  | outOfReach _ hcall | dropBegin _ hcall | dropEnded _ hcall =>
    obtain h | ⟨_, h⟩ := hcall <;> cases h

theorem Rule.of_rests_close (rule : Rule build now me lock self (some .closeWindow) effect)
    (h : self.Rests) : effect = goOn lock self .closeWindow .closing [] := by
  cases rule with
  | closeBegin => rfl
  | closeAfterExit _ hsession hphase | closeUnopened _ hsession hphase
  | closeRunning _ hsession hphase =>
    cases h.2.symm.trans hsession
    cases hphase
  | outOfReach _ hcall | dropBegin _ hcall | dropEnded _ hcall =>
    obtain h | ⟨_, h⟩ := hcall <;> cases h

/-- At a check point a session goes on, or it is ended. -/
theorem check_cases (me : Thread) (lock : Lock σ) (self : ThreadState σ) (call : Call σ)
    (entries : List Entry) :
    (check me lock self call entries).answers = [.flow .proceed] ∧
        (check me lock self call entries).self = { self with activity := .idle } ∨
      (check me lock self call entries).answers = [] ∧
        (check me lock self call entries).self.Ends call := by
  unfold check
  split
  · exact .inr ⟨answers_goOn .., _, rfl, rfl⟩
  · exact .inl ⟨answers_answer .., rfl⟩

/-- A thread that closes a window waits for the lock, or the window is counted. -/
theorem Rule.of_closing (rule : Rule build now me lock self none effect)
    (hbusy : self.activity = .busy .closeWindow .closing) :
    effect.self = self ∧ effect.lock.stats = lock.stats ∧ effect.answers = [] ∨
      effect.lock.stats = lock.stats.countWindow ∧
        (effect.answers = [.flow .proceed] ∧ effect.self.Runs ∨
          effect.answers = [] ∧ effect.self.Ends .closeWindow) := by
  cases rule with
  | park => exact .inl ⟨rfl, rfl, rfl⟩
  | close hstands =>
    cases hbusy.symm.trans hstands
    refine .inr ⟨by rw [lock_check], ?_⟩
    obtain ⟨hanswers, hself⟩ | hends := check_cases me _ _ _ _
    · exact .inl ⟨hanswers, by rw [hself]; exact ⟨rfl, rfl⟩⟩
    · exact .inr hends
  | _ hstands => cases hbusy.symm.trans hstands

/-- A session that runs begins a yield, which is counted. -/
theorem Rule.of_runs_yield (rule : Rule build now me lock self (some .yieldNow) effect)
    (h : self.Runs) : effect.lock.stats = lock.stats.countYield ∧ effect.answers = [] ∧
      (effect.self.Polls ∨ effect.self.Ends .yieldNow) := by
  cases rule with
  | yieldToExit => exact ⟨rfl, rfl, .inr ⟨_, rfl, rfl⟩⟩
  | yieldToPoll => exact ⟨rfl, rfl, .inl ⟨h.2, rfl⟩⟩
  | yieldAfterExit _ hsession hphase | yieldInWindow _ hsession hphase =>
    cases h.2.symm.trans hsession
    cases hphase
  | outOfReach _ hcall | dropBegin _ hcall | dropEnded _ hcall =>
    obtain h | ⟨_, h⟩ := hcall <;> cases h

/-- A session that polls goes on if nobody waits, and hands the lock over otherwise, which is
counted. -/
theorem Rule.of_polls (rule : Rule build now me lock self none effect) (h : self.Polls) :
    effect.lock.stats = lock.stats ∧ effect.answers = [.flow .proceed] ∧ effect.self.Runs ∨
      effect.lock.stats = lock.stats.countHandoff ∧
        (effect.answers = [] ∧ effect.self.HandsOver ∨
          effect.answers = [.panicked .nestedYield]) := by
  obtain ⟨hsession, hbusy⟩ := h
  cases rule with
  | pollNone => exact .inl ⟨rfl, rfl, rfl, hsession⟩
  | pollNested => exact .inr ⟨rfl, .inr rfl⟩
  | pollSleep hstands =>
    cases hbusy.symm.trans hstands
    exact .inr ⟨rfl, .inl ⟨rfl, hsession, _, rfl, rfl⟩⟩
  | pollFree _ _ hfree => cases hfree _ hsession
  | park hstands hwants =>
    cases hbusy.symm.trans hstands
    cases hwants
  | _ hstands => cases hbusy.symm.trans hstands

/-- A session that has handed the lock over waits until it has it back; then it goes on or is
ended. -/
theorem Rule.of_handsOver (rule : Rule build now me lock self none effect) (h : self.HandsOver) :
    effect.lock.stats = lock.stats ∧
      (effect.answers = [] ∧ (effect.self.HandsOver ∨ effect.self.Ends .yieldNow) ∨
        effect.answers = [.flow .proceed] ∧ effect.self.Runs) := by
  obtain ⟨hsession, point, hpoint, hbusy⟩ := h
  cases rule with
  | park => exact ⟨rfl, .inl ⟨rfl, .inl ⟨hsession, point, hpoint, hbusy⟩⟩⟩
  | wake hstands =>
    cases hbusy.symm.trans hstands
    exact ⟨rfl, .inl ⟨rfl, .inl ⟨hsession, _, rfl, rfl⟩⟩⟩
  | retake hstands =>
    cases hbusy.symm.trans hstands
    refine ⟨by rw [lock_check], ?_⟩
    obtain ⟨hanswers, hself⟩ | ⟨hanswers, hends⟩ := check_cases me _ _ _ _
    · exact .inr ⟨hanswers, by rw [hself]; exact ⟨rfl, hsession⟩⟩
    · exact .inl ⟨hanswers, .inr hends⟩
  | _ hstands =>
    cases hbusy.symm.trans hstands
    cases hpoint

/-- The end of a session goes on, or the call that it is the end of is answered. -/
theorem Rule.of_ends (rule : Rule build now me lock self none effect) {call : Call σ}
    (hcall : call = .closeWindow ∨ call = .yieldNow) (h : self.Ends call) :
    effect.lock.stats = lock.stats ∧
      (effect.answers = [] ∧ effect.self.Ends call ∨ effect.answers = [.flow .exit] ∨
        ∃ panic, effect.answers = [.panicked panic] ∧ panic ≠ .overflow) := by
  obtain ⟨point, hpoint, hbusy⟩ := h
  have hfails (panic : Panic) : call.failure panic = .panicked panic := by
    obtain rfl | rfl := hcall <;> rfl
  have hends : call.ending = .flow .exit := by obtain rfl | rfl := hcall <;> rfl
  cases rule with
  | park => exact ⟨rfl, .inl ⟨rfl, point, hpoint, hbusy⟩⟩
  | giveUp hstands | dispose hstands | disposeNone hstands =>
    cases hbusy.symm.trans hstands
    exact ⟨rfl, .inl ⟨answers_goOn .., _, rfl, rfl⟩⟩
  | giveUpNested hstands =>
    cases hbusy.symm.trans hstands
    exact ⟨by rw [lock_fail], .inr (.inr ⟨.nestedExit, by rw [answers_fail, hfails], nofun⟩)⟩
  | @tearDown _ teardown hstands =>
    cases hbusy.symm.trans hstands
    refine ⟨rfl, .inl ⟨?_, _, rfl, rfl⟩⟩
    rw [Effect.answers_tornDown, Effect.answers_entries]
  | @tearDownFailed _ teardown panic hstands hpanic =>
    cases hbusy.symm.trans hstands
    refine ⟨by rw [lock_fail], .inr (.inr ⟨panic, ?_, ?_⟩)⟩
    · rw [Effect.answers_tornDown]
      exact (answers_fail ..).trans (by rw [hfails])
    · rintro rfl
      obtain ⟨text, rfl⟩ := teardown.exists_fail_of_panic hpanic
      cases hpanic
  | mark hstands =>
    cases hbusy.symm.trans hstands
    exact ⟨by rw [lock_conclude], .inr (.inl (by rw [answers_conclude, hends]))⟩
  | _ hstands =>
    cases hbusy.symm.trans hstands
    cases hpoint

end

end ThreadState

/-- A thread that was started as a worker has not yet become it. -/
def Activity.isStarting : Activity σ → Bool
  | busy .start _ => true
  | _ => false

theorem Activity.exists_of_isStarting {activity : Activity σ}
    (h : activity.isStarting = true) : ∃ point, activity = .busy .start point := by
  unfold isStarting at h
  split at h
  · exact ⟨_, rfl⟩
  · cases h

namespace Demo

/-- A move that writes no machine, or one with the counters of the machine that is there. -/
def sparesCounters (machine : Machine) : Move Machine → Bool
  | .call _ (.write _ written) => written.frame = machine.frame && written.cycles = machine.cycles
  | _ => true

/-- The stages before and after the loop. -/
def MachineLoop.Stage.isOut : MachineLoop.Stage → Bool
  | starting | leaving _ | ended => true
  | _ => false

/-- A world in which a thread is to run the machine's loop. -/
structure Plant where
  world : World Machine
  stage : MachineLoop.Stage := .starting
  deriving DecidableEq, Repr

inductive Plant.Move where
  /-- The next step of the loop's thread, on its way into the loop if it was started for it. -/
  | loop
  /-- The loop begins on a thread that has become the worker by a call. -/
  | launch
  /-- A move that the loop has no part in. -/
  | beside (move : YieldLock.Move Machine)
  deriving DecidableEq, Repr

namespace Plant

def self (plant : Plant) (me : Thread) : ThreadState Machine := plant.world.thread me

/-- Whether the thread is in the loop, or on its way into or out of it. -/
def isInHand (me : Thread) (plant : Plant) : Bool :=
  match plant.stage with
  | .starting => (plant.self me).activity.isStarting
  | .ended => false
  | _ => true

/-- One step of the loop. -/
def loop? (build : Build) (pacing : Pacing) (me : Thread) (plant : Plant) : Option Plant :=
  if plant.isInHand me then
    (perform? build plant.world {} me (MachineLoop.action pacing plant.stage)).map fun deed ↦
      { world := deed.world
        stage := deed.reply.elim plant.stage (MachineLoop.resume build pacing plant.stage) }
  else none

/-- What happens in a plant. Whoever writes beside the loop leaves the counters of the machine as
they are. -/
def move? (build : Build) (pacing : Pacing) (me : Thread) (plant : Plant) : Move → Option Plant
  | .loop => plant.loop? build pacing me
  | .launch =>
    if plant.stage = .starting && (plant.self me).activity.isIdle &&
        (plant.self me).session = some {} then
      some { plant with stage := .loading }
    else none
  | .beside move =>
    if (move.thread? ≠ some me || plant.stage.isOut) &&
        sparesCounters plant.world.lock.value move then
      (plant.world.move? build move).map fun (next, _) ↦ { plant with world := next }
    else none

/-- A plant comes from one in which nobody has done anything and the machine is new. -/
inductive Reachable (build : Build) (pacing : Pacing) (me : Thread) : Plant → Prop where
  | new {world : World Machine} (hnew : world.IsNew) (hvalue : world.lock.value = {}) :
    Reachable build pacing me { world }
  | move {plant next : Plant} (h : Reachable build pacing me plant) (move : Move)
    (hmove : plant.move? build pacing me move = some next) : Reachable build pacing me next

/-- Lets things happen one after the other if each can. -/
def play? (build : Build) (pacing : Pacing) (me : Thread) (plant : Plant) :
    List Move → Option Plant
  | [] => some plant
  | move :: moves => (plant.move? build pacing me move).bind fun next ↦
      next.play? build pacing me moves

/-- The thread has what the stage of the loop stands for. -/
def LoopsAt (self : ThreadState Machine) : MachineLoop.Stage → Prop
  | .starting | .leaving _ | .ended => True
  | .inside _ => self.Rests
  | .closing _ =>
    self.Rests ∨ self.activity = .busy .closeWindow .closing ∨ self.Ends .closeWindow
  | .yielding => self.Runs ∨ self.Polls ∨ self.HandsOver ∨ self.Ends .yieldNow
  | _ => self.Runs

/-- The value and the counters of the lock are as they were. -/
def Keeps (plant next : Plant) : Prop :=
  next.world.lock.value = plant.world.lock.value ∧ next.world.lock.stats = plant.world.lock.stats

/-- A step of the loop's thread by a rule, with the stage after it. -/
structure Steps (build : Build) (pacing : Pacing) (me : Thread) (plant next : Plant)
    (call? : Option (Call Machine)) (effect : Effect Machine) : Prop where
  rule : ThreadState.Rule build plant.world.clock me plant.world.lock (plant.self me) call? effect
  world : next.world = plant.world.after me effect
  stage : next.stage = effect.answers.head?.elim plant.stage
    (MachineLoop.answered build pacing plant.stage)

/-- All that a step of the loop can do. -/
inductive Stride (build : Build) (pacing : Pacing) (me : Thread) (plant next : Plant) : Prop where
  | start {effect : Effect Machine} (hstage : plant.stage = .starting)
      (hstarts : (plant.self me).activity.isStarting = true)
      (hsteps : Steps build pacing me plant next none effect)
  | compute (hstage : plant.stage = .loading ∨ plant.stage = .counting ∨ plant.stage = .looking)
      (hlock : next.world.lock = plant.world.lock) (hruns : (next.self me).Runs)
      (hnext : next.stage =
        MachineLoop.answered build pacing plant.stage (.value plant.world.lock.value))
  | store (machine : Machine)
      (hstage : plant.stage = .addingCycles machine ∧ next.stage = .counting ∨
        plant.stage = .addingFrame machine ∧ next.stage = .looking)
      (hlock : next.world.lock = { plant.world.lock with value := machine })
      (hruns : (next.self me).Runs)
  | announce {frame : UInt64} (hstage : plant.stage = .announcing frame)
      (hworld : next.world = plant.world) (hruns : (next.self me).Runs)
      (hnext : next.stage = .opening .host)
  | openWindow {window : Window} (hstage : plant.stage = .opening window)
      (hkept : plant.Keeps next) (hrests : (next.self me).Rests)
      (hnext : next.stage = .inside window)
  | rest {window : Window} (hstage : plant.stage = .inside window)
      (hworld : next.world = plant.world) (hrests : (next.self me).Rests)
      (hnext : next.stage = .closing window)
  | approach {window : Window} (hstage : plant.stage = .closing window)
      (hbefore : (plant.self me).Rests ∨ (plant.self me).activity = .busy .closeWindow .closing)
      (hkept : plant.Keeps next) (hbusy : (next.self me).activity = .busy .closeWindow .closing)
      (hnext : next.stage = .closing window)
  | closeWindow {window : Window} (hstage : plant.stage = .closing window)
      (hbusy : (plant.self me).activity = .busy .closeWindow .closing)
      (hvalue : next.world.lock.value = plant.world.lock.value)
      (hstats : next.world.lock.stats = plant.world.lock.stats.countWindow)
      (hnext : next.stage = MachineLoop.afterWindow window ∧ (next.self me).Runs ∨
        next.stage = .closing window ∧ (next.self me).Ends .closeWindow)
  | beginYield (hstage : plant.stage = .yielding) (hruns : (plant.self me).Runs)
      (hvalue : next.world.lock.value = plant.world.lock.value)
      (hstats : next.world.lock.stats = plant.world.lock.stats.countYield)
      (hself : (next.self me).Polls ∨ (next.self me).Ends .yieldNow)
      (hnext : next.stage = .yielding)
  | handOver (hstage : plant.stage = .yielding) (hpolls : (plant.self me).Polls)
      (hvalue : next.world.lock.value = plant.world.lock.value)
      (hstats : next.world.lock.stats = plant.world.lock.stats.countHandoff)
      (hself : (next.self me).HandsOver) (hnext : next.stage = .yielding)
  | await (hstage : plant.stage = .yielding) (hbefore : (plant.self me).HandsOver)
      (hkept : plant.Keeps next)
      (hself : (next.self me).HandsOver ∨ (next.self me).Ends .yieldNow)
      (hnext : next.stage = .yielding)
  | proceed (hstage : plant.stage = .yielding)
      (hbefore : (plant.self me).Polls ∨ (plant.self me).HandsOver) (hkept : plant.Keeps next)
      (hruns : (next.self me).Runs) (hnext : next.stage = .loading)
  | exit {call : Call Machine}
      (hstage : call = .closeWindow ∧ (∃ window, plant.stage = .closing window) ∨
        call = .yieldNow ∧ plant.stage = .yielding)
      (hends : (plant.self me).Ends call) (hkept : plant.Keeps next)
      (hnext : next.stage = plant.stage ∧ (next.self me).Ends call ∨
        next.stage = .leaving none ∧ (next.self me).activity = .idle)
  | fail (panic : Panic)
      (hstage : (∃ window, plant.stage = .opening window ∨ plant.stage = .closing window) ∨
        plant.stage = .yielding)
      (hpanic : panic ≠ .overflow)
      (hvalue : next.world.lock.value = plant.world.lock.value)
      (hacquired : next.world.lock.stats.acquisitions = plant.world.lock.stats.acquisitions)
      (hidle : (next.self me).activity = .idle) (hnext : next.stage = .leaving (some panic))
  | leave {outcome : Option Panic} {call? : Option (Call Machine)} {effect : Effect Machine}
      (hstage : plant.stage = .leaving outcome)
      (hcall : call? = none ∨ call? = some (.finish outcome))
      (hsteps : Steps build pacing me plant next call? effect)

section

variable {build : Build} {pacing : Pacing} {me : Thread} {plant next : Plant} {deed : Deed}

theorem exists_deed_of_loop? (h : plant.loop? build pacing me = some next) :
    plant.isInHand me = true ∧ ∃ deed,
      perform? build plant.world {} me (MachineLoop.action pacing plant.stage) = some deed ∧
      next.world = deed.world ∧
      next.stage =
        deed.reply.elim plant.stage (MachineLoop.resume build pacing plant.stage) := by
  unfold loop? at h
  split at h
  · rename_i hturn
    obtain ⟨deed, hdeed, rfl⟩ := Option.map_eq_some_iff.mp h
    exact ⟨hturn, deed, hdeed, rfl, rfl⟩
  · cases h

/-- A step of the loop's thread inside a call. -/
theorem steps_of_busy (h : plant.loop? build pacing me = some next) {call : Call Machine}
    {point : Point} (hbusy : (plant.self me).activity = .busy call point) :
    ∃ effect, Steps build pacing me plant next none effect := by
  obtain ⟨_, deed, hdeed, hworld, hstage⟩ := exists_deed_of_loop? h
  obtain ⟨effect, rule, rfl⟩ := exists_rule_of_busy hbusy hdeed
  refine ⟨effect, rule, hworld, ?_⟩
  rw [hstage, Deed.reply_ofEvents]
  cases effect.answers.head? <;> rfl

/-- A call that the loop makes. -/
theorem steps_of_call (h : plant.loop? build pacing me = some next) {call : Call Machine}
    (hidle : (plant.self me).activity = .idle)
    (hcall : MachineLoop.action pacing plant.stage = .call call) (hspawn : call.isSpawn = false) :
    ∃ effect, Steps build pacing me plant next (some call) effect := by
  obtain ⟨_, deed, hdeed, hworld, hstage⟩ := exists_deed_of_loop? h
  rw [hcall] at hdeed
  obtain ⟨effect, rule, rfl⟩ := exists_rule_of_call hspawn hidle hdeed
  refine ⟨effect, rule, hworld, ?_⟩
  rw [hstage, Deed.reply_ofEvents]
  cases effect.answers.head? <;> rfl

/-- A step of the loop beside the lock. -/
theorem of_loop?_beside (h : plant.loop? build pacing me = some next)
    (hidle : (plant.self me).activity = .idle) {action : Action}
    (haction : MachineLoop.action pacing plant.stage = action)
    (hbeside : (∃ notice, action = .log notice) ∨ ∃ span, action = .rest span) :
    next.world = plant.world ∧
      next.stage = MachineLoop.resume build pacing plant.stage .continued := by
  obtain ⟨_, deed, hdeed, hworld, hstage⟩ := exists_deed_of_loop? h
  rw [haction] at hdeed
  unfold perform? at hdeed
  rw [show (plant.world.thread me).activity = .idle from hidle] at hdeed
  obtain ⟨notice, rfl⟩ | ⟨span, rfl⟩ := hbeside
  all_goals
    cases hdeed
    exact ⟨hworld, hstage⟩

variable {call? : Option (Call Machine)} {effect : Effect Machine}

theorem Steps.self_eq (h : Steps build pacing me plant next call? effect) :
    next.self me = effect.self := by
  rw [self, h.world, World.thread_after_self]

theorem Steps.lock_eq (h : Steps build pacing me plant next call? effect) :
    next.world.lock = effect.lock := by rw [h.world, World.lock_after]

/-- The stage after a step that answers the call. -/
theorem Steps.stage_of_answer (h : Steps build pacing me plant next call? effect)
    {answer : Answer Machine} (hanswers : effect.answers = [answer]) :
    next.stage = MachineLoop.answered build pacing plant.stage answer := by
  rw [h.stage, hanswers]
  rfl

theorem Steps.idle_of_answer (h : Steps build pacing me plant next call? effect)
    {answer : Answer Machine} (hanswers : effect.answers = [answer])
    (hanswer : answer ≠ .finished) : (next.self me).activity = .idle := by
  rw [h.self_eq]
  exact h.rule.idle_of_answers hanswers hanswer

theorem Steps.stage_of_none (h : Steps build pacing me plant next call? effect)
    (hanswers : effect.answers = []) : next.stage = plant.stage := by
  rw [h.stage, hanswers]
  rfl

theorem Steps.keeps (h : Steps build pacing me plant next none effect)
    (hstats : effect.lock.stats = plant.world.lock.stats) : plant.Keeps next :=
  ⟨by rw [h.lock_eq, h.rule.value_eq]; rfl, by rw [h.lock_eq, hstats]⟩

/-- A step inside a call writes nothing. -/
theorem Steps.value_eq (h : Steps build pacing me plant next none effect) :
    next.world.lock.value = plant.world.lock.value := by rw [h.lock_eq, h.rule.value_eq]; rfl

theorem stride_of_read (h : plant.loop? build pacing me = some next)
    (hstage : plant.stage = .loading ∨ plant.stage = .counting ∨ plant.stage = .looking)
    (hruns : (plant.self me).Runs) : Stride build pacing me plant next := by
  have hcall : MachineLoop.action pacing plant.stage = .call (.read .session) := by
    obtain hstage | hstage | hstage := hstage <;> rw [hstage] <;> rfl
  obtain ⟨effect, hsteps⟩ := steps_of_call h hruns.1 hcall rfl
  obtain rfl := hsteps.rule.of_runs_read hruns
  refine .compute hstage hsteps.lock_eq ?_ (hsteps.stage_of_answer rfl)
  rw [hsteps.self_eq]
  exact ⟨rfl, hruns.2⟩

theorem stride_of_write (h : plant.loop? build pacing me = some next) {machine : Machine}
    (hstage : plant.stage = .addingCycles machine ∨ plant.stage = .addingFrame machine)
    (hruns : (plant.self me).Runs) : Stride build pacing me plant next := by
  have hcall : MachineLoop.action pacing plant.stage = .call (.write .session machine) := by
    obtain hstage | hstage := hstage <;> rw [hstage] <;> rfl
  obtain ⟨effect, hsteps⟩ := steps_of_call h hruns.1 hcall rfl
  obtain rfl := hsteps.rule.of_runs_write hruns
  have hnext := hsteps.stage_of_answer rfl
  refine .store machine ?_ hsteps.lock_eq ?_
  · obtain hstage | hstage := hstage
    · exact .inl ⟨hstage, by rw [hnext, hstage]; rfl⟩
    · exact .inr ⟨hstage, by rw [hnext, hstage]; rfl⟩
  · rw [hsteps.self_eq]
    exact ⟨rfl, hruns.2⟩

theorem stride_of_announcing (h : plant.loop? build pacing me = some next) {frame : UInt64}
    (hstage : plant.stage = .announcing frame) (hruns : (plant.self me).Runs) :
    Stride build pacing me plant next := by
  obtain ⟨hworld, hnext⟩ := of_loop?_beside h hruns.1 (by rw [hstage]; rfl) (.inl ⟨_, rfl⟩)
  exact .announce hstage hworld (by rwa [self, hworld]) (by rw [hnext, hstage]; rfl)

theorem stride_of_opening (h : plant.loop? build pacing me = some next) {window : Window}
    (hstage : plant.stage = .opening window) (hruns : (plant.self me).Runs) :
    Stride build pacing me plant next := by
  have hcall : MachineLoop.action pacing plant.stage = .call .openWindow := by rw [hstage]; rfl
  obtain ⟨effect, hsteps⟩ := steps_of_call h hruns.1 hcall rfl
  have hvalue : next.world.lock.value = plant.world.lock.value := by
    rw [hsteps.lock_eq, hsteps.rule.value_eq]
    rfl
  obtain ⟨hstats, ⟨hanswers, hrests⟩ | hanswers⟩ := hsteps.rule.of_runs_open hruns
  · refine .openWindow hstage ⟨hvalue, by rw [hsteps.lock_eq, hstats]⟩
      (by rwa [hsteps.self_eq]) ?_
    rw [hsteps.stage_of_answer hanswers, hstage]
    rfl
  · refine .fail .nestedWindow (.inl ⟨window, .inl hstage⟩) nofun hvalue
      (by rw [hsteps.lock_eq, hstats]) (hsteps.idle_of_answer hanswers nofun) ?_
    rw [hsteps.stage_of_answer hanswers, hstage]
    rfl

theorem stride_of_inside (h : plant.loop? build pacing me = some next) {window : Window}
    (hstage : plant.stage = .inside window) (hrests : (plant.self me).Rests) :
    Stride build pacing me plant next := by
  obtain ⟨hworld, hnext⟩ := of_loop?_beside h hrests.1 (by rw [hstage]; rfl) (.inr ⟨_, rfl⟩)
  exact .rest hstage hworld (by rwa [self, hworld]) (by rw [hnext, hstage]; rfl)

/-- The end of a session in a call of the loop. -/
theorem stride_of_ends (h : plant.loop? build pacing me = some next) {call : Call Machine}
    (hstage : call = .closeWindow ∧ (∃ window, plant.stage = .closing window) ∨
      call = .yieldNow ∧ plant.stage = .yielding)
    (hends : (plant.self me).Ends call) : Stride build pacing me plant next := by
  obtain ⟨_, _, hbusy⟩ := id hends
  obtain ⟨effect, hsteps⟩ := steps_of_busy h hbusy
  have hcall : call = .closeWindow ∨ call = .yieldNow := hstage.imp And.left And.left
  obtain ⟨hstats, hnext⟩ := hsteps.rule.of_ends hcall hends
  have hkept := hsteps.keeps hstats
  obtain ⟨hanswers, hgoes⟩ | hanswers | ⟨panic, hanswers, hpanic⟩ := hnext
  · exact .exit hstage hends hkept
      (.inl ⟨hsteps.stage_of_none hanswers, by rwa [hsteps.self_eq]⟩)
  · refine .exit hstage hends hkept (.inr ⟨?_, hsteps.idle_of_answer hanswers nofun⟩)
    rw [hsteps.stage_of_answer hanswers]
    obtain ⟨_, window, hstage⟩ | ⟨_, hstage⟩ := hstage <;> rw [hstage] <;> rfl
  · refine .fail panic ?_ hpanic hkept.1 (by rw [hkept.2]) (hsteps.idle_of_answer hanswers nofun) ?_
    · exact hstage.imp (fun h ↦ h.2.imp fun _ ↦ .inr) And.right
    · rw [hsteps.stage_of_answer hanswers]
      obtain ⟨_, window, hstage⟩ | ⟨_, hstage⟩ := hstage <;> rw [hstage] <;> rfl

theorem stride_of_closing (h : plant.loop? build pacing me = some next) {window : Window}
    (hstage : plant.stage = .closing window)
    (hloops : (plant.self me).Rests ∨ (plant.self me).activity = .busy .closeWindow .closing ∨
      (plant.self me).Ends .closeWindow) : Stride build pacing me plant next := by
  obtain hrests | hbusy | hends := hloops
  · have hcall : MachineLoop.action pacing plant.stage = .call .closeWindow := by
      rw [hstage]
      rfl
    obtain ⟨effect, hsteps⟩ := steps_of_call h hrests.1 hcall rfl
    obtain rfl := hsteps.rule.of_rests_close hrests
    refine .approach hstage (.inl hrests) ?_ (by rw [hsteps.self_eq]; rfl) ?_
    · rw [Keeps, hsteps.lock_eq]
      exact ⟨rfl, rfl⟩
    · rw [hsteps.stage_of_none rfl, hstage]
  · obtain ⟨effect, hsteps⟩ := steps_of_busy h hbusy
    obtain ⟨hself, hstats, hanswers⟩ | ⟨hstats, hnext⟩ := hsteps.rule.of_closing hbusy
    · refine .approach hstage (.inr hbusy) (hsteps.keeps hstats) ?_ ?_
      · rw [hsteps.self_eq, hself, hbusy]
      · rw [hsteps.stage_of_none hanswers, hstage]
    · refine .closeWindow hstage hbusy hsteps.value_eq (by rw [hsteps.lock_eq, hstats]) ?_
      rw [hsteps.self_eq]
      obtain ⟨hanswers, hruns⟩ | ⟨hanswers, hends⟩ := hnext
      · exact .inl ⟨by rw [hsteps.stage_of_answer hanswers, hstage]; rfl, hruns⟩
      · exact .inr ⟨by rw [hsteps.stage_of_none hanswers, hstage], hends⟩
  · exact stride_of_ends h (.inl ⟨rfl, window, hstage⟩) hends

theorem stride_of_yielding (h : plant.loop? build pacing me = some next)
    (hstage : plant.stage = .yielding)
    (hloops : (plant.self me).Runs ∨ (plant.self me).Polls ∨ (plant.self me).HandsOver ∨
      (plant.self me).Ends .yieldNow) : Stride build pacing me plant next := by
  obtain hruns | hpolls | hgiven | hends := hloops
  · have hcall : MachineLoop.action pacing plant.stage = .call .yieldNow := by rw [hstage]; rfl
    obtain ⟨effect, hsteps⟩ := steps_of_call h hruns.1 hcall rfl
    obtain ⟨hstats, hanswers, hself⟩ := hsteps.rule.of_runs_yield hruns
    refine .beginYield hstage hruns ?_ (by rw [hsteps.lock_eq, hstats])
      (by rwa [hsteps.self_eq]) (by rw [hsteps.stage_of_none hanswers, hstage])
    rw [hsteps.lock_eq, hsteps.rule.value_eq]
    rfl
  · obtain ⟨effect, hsteps⟩ := steps_of_busy h hpolls.2
    obtain ⟨hstats, hanswers, hruns⟩ | ⟨hstats, ⟨hanswers, hself⟩ | hanswers⟩ :=
      hsteps.rule.of_polls hpolls
    · exact .proceed hstage (.inl hpolls) (hsteps.keeps hstats) (by rwa [hsteps.self_eq])
        (by rw [hsteps.stage_of_answer hanswers, hstage]; rfl)
    · exact .handOver hstage hpolls hsteps.value_eq (by rw [hsteps.lock_eq, hstats])
        (by rwa [hsteps.self_eq]) (by rw [hsteps.stage_of_none hanswers, hstage])
    · refine .fail .nestedYield (.inr hstage) nofun hsteps.value_eq
        (by rw [hsteps.lock_eq, hstats]; rfl) (hsteps.idle_of_answer hanswers nofun) ?_
      rw [hsteps.stage_of_answer hanswers, hstage]
      rfl
  · obtain ⟨_, point, _, hbusy⟩ := id hgiven
    obtain ⟨effect, hsteps⟩ := steps_of_busy h hbusy
    obtain ⟨hstats, ⟨hanswers, hself⟩ | ⟨hanswers, hruns⟩⟩ := hsteps.rule.of_handsOver hgiven
    · exact .await hstage hgiven (hsteps.keeps hstats) (by rwa [hsteps.self_eq])
        (by rw [hsteps.stage_of_none hanswers, hstage])
    · exact .proceed hstage (.inr hgiven) (hsteps.keeps hstats) (by rwa [hsteps.self_eq])
        (by rw [hsteps.stage_of_answer hanswers, hstage]; rfl)
  · exact stride_of_ends h (.inr ⟨rfl, hstage⟩) hends

theorem stride (h : plant.loop? build pacing me = some next)
    (hloops : LoopsAt (plant.self me) plant.stage) : Stride build pacing me plant next := by
  cases hstage : plant.stage with
  | starting =>
    obtain ⟨hturn, _⟩ := exists_deed_of_loop? h
    rw [isInHand, hstage] at hturn
    obtain ⟨point, hbusy⟩ := Activity.exists_of_isStarting hturn
    obtain ⟨effect, hsteps⟩ := steps_of_busy h hbusy
    exact .start hstage hturn hsteps
  | ended =>
    obtain ⟨hturn, _⟩ := exists_deed_of_loop? h
    rw [isInHand, hstage] at hturn
    cases hturn
  | leaving outcome =>
    cases hactivity : (plant.self me).activity with
    | idle =>
      have hcall : MachineLoop.action pacing plant.stage = .call (.finish outcome) := by
        rw [hstage]
        rfl
      obtain ⟨effect, hsteps⟩ := steps_of_call h hactivity hcall rfl
      exact .leave hstage (.inr rfl) hsteps
    | busy call point =>
      obtain ⟨effect, hsteps⟩ := steps_of_busy h hactivity
      exact .leave hstage (.inl rfl) hsteps
    | finished ended =>
      obtain ⟨_, deed, hdeed, _⟩ := exists_deed_of_loop? h
      rw [perform?_of_finished hactivity] at hdeed
      cases hdeed
  | loading => exact stride_of_read h (.inl hstage) (by rwa [hstage] at hloops)
  | counting => exact stride_of_read h (.inr (.inl hstage)) (by rwa [hstage] at hloops)
  | looking => exact stride_of_read h (.inr (.inr hstage)) (by rwa [hstage] at hloops)
  | addingCycles machine => exact stride_of_write h (.inl hstage) (by rwa [hstage] at hloops)
  | addingFrame machine => exact stride_of_write h (.inr hstage) (by rwa [hstage] at hloops)
  | announcing frame => exact stride_of_announcing h hstage (by rwa [hstage] at hloops)
  | opening window => exact stride_of_opening h hstage (by rwa [hstage] at hloops)
  | inside window => exact stride_of_inside h hstage (by rwa [hstage] at hloops)
  | closing window => exact stride_of_closing h hstage (by rwa [hstage] at hloops)
  | yielding => exact stride_of_yielding h hstage (by rwa [hstage] at hloops)

/-- On its way into the loop a thread becomes the worker, or it ends because there is one. -/
theorem Steps.of_starting (h : Steps build pacing me plant next none effect)
    (hsound : (plant.self me).IsSound) (hstage : plant.stage = .starting)
    (hstarts : (plant.self me).activity.isStarting = true) :
    next.stage = .starting ∧ (next.self me).activity.isStarting = true ∨
      next.stage = .ended ∧ (next.self me).activity = .finished (some .alreadyAdopted) ∨
      next.stage = .loading ∧ (next.self me).Runs := by
  obtain ⟨point, hbusy⟩ := Activity.exists_of_isStarting hstarts
  rw [h.self_eq]
  obtain ⟨⟨later, hlater⟩, hnone⟩ | ⟨hrefused, hshown⟩ | ⟨hidle, hsession, _, hanswers⟩ :=
    h.rule.of_starting hsound hbusy
  · refine .inl ⟨?_, by rw [hlater]; rfl⟩
    rw [h.stage_of_none (by rw [Effect.answers, hnone]; rfl), hstage]
  · have hanswers : effect.answers = [.finished] := by
      rw [Effect.answers, hshown]
      rfl
    refine .inr (.inl ⟨?_, hrefused⟩)
    rw [h.stage_of_answer hanswers, hstage]
    rfl
  · refine .inr (.inr ⟨?_, hidle, hsession⟩)
    rw [h.stage_of_answer hanswers, hstage]
    rfl

/-- A thread that leaves the loop goes on to leave it or has left it. -/
theorem Steps.of_leaving {outcome : Option Panic}
    (h : Steps build pacing me plant next call? effect) (hstage : plant.stage = .leaving outcome)
    (hcall : call? = none ∨ call? = some (.finish outcome)) :
    next.world.lock.value = plant.world.lock.value ∧
      (next.stage = .leaving outcome ∨ next.stage = .ended) := by
  constructor
  · rw [h.lock_eq, h.rule.value_eq]
    obtain rfl | rfl := hcall <;> rfl
  · rw [h.stage, hstage]
    cases effect.answers.head? with
    | none => exact .inl rfl
    | some answer => exact .inr rfl

theorem loopsAt_afterSum {self : ThreadState Machine}
    {stage : Machine → MachineLoop.Stage} (hstage : ∀ machine, LoopsAt self (stage machine))
    (sum : Except Panic Machine) : LoopsAt self (MachineLoop.afterSum stage sum) := by
  cases sum with
  | ok machine => exact hstage machine
  | error panic => trivial

theorem Stride.loopsAt (h : Stride build pacing me plant next)
    (hsound : (plant.self me).IsSound) : LoopsAt (next.self me) next.stage := by
  cases h with
  | start hstage hstarts hsteps =>
    obtain ⟨hnext, _⟩ | ⟨hnext, _⟩ | ⟨hnext, hruns⟩ := hsteps.of_starting hsound hstage hstarts
    · rw [hnext]
      trivial
    · rw [hnext]
      trivial
    · rw [hnext]
      exact hruns
  | compute hstage _ hruns hnext =>
    rw [hnext]
    obtain hstage | hstage | hstage := hstage
    · rw [hstage]
      apply loopsAt_afterSum
      exact fun _ ↦ hruns
    · rw [hstage]
      apply loopsAt_afterSum
      exact fun _ ↦ hruns
    · rw [hstage, MachineLoop.answered]
      split <;> exact hruns
  | store _ hstage _ hruns =>
    obtain ⟨_, hnext⟩ | ⟨_, hnext⟩ := hstage
    · rw [hnext]
      exact hruns
    · rw [hnext]
      exact hruns
  | announce _ _ hruns hnext =>
    rw [hnext]
    exact hruns
  | openWindow _ _ hrests hnext =>
    rw [hnext]
    exact hrests
  | rest _ _ hrests hnext =>
    rw [hnext]
    exact .inl hrests
  | approach _ _ _ hbusy hnext =>
    rw [hnext]
    exact .inr (.inl hbusy)
  | @closeWindow window _ _ _ _ hnext =>
    obtain ⟨hnext, hruns⟩ | ⟨hnext, hends⟩ := hnext
    · rw [hnext]
      cases window with
      | host => exact hruns
      | frame => exact .inl hruns
    · rw [hnext]
      exact .inr (.inr hends)
  | beginYield _ _ _ _ hself hnext =>
    rw [hnext]
    exact .inr (hself.imp_right .inr)
  | handOver _ _ _ _ hself hnext =>
    rw [hnext]
    exact .inr (.inr (.inl hself))
  | await _ _ _ hself hnext =>
    rw [hnext]
    exact .inr (.inr hself)
  | proceed _ _ _ hruns hnext =>
    rw [hnext]
    exact hruns
  | exit hstage _ _ hnext =>
    obtain ⟨hnext, hends⟩ | ⟨hnext, _⟩ := hnext
    · rw [hnext]
      obtain ⟨rfl, window, hstage⟩ | ⟨rfl, hstage⟩ := hstage
      · rw [hstage]
        exact .inr (.inr hends)
      · rw [hstage]
        exact .inr (.inr (.inr hends))
    · rw [hnext]
      trivial
  | fail _ _ _ _ _ _ hnext =>
    rw [hnext]
    trivial
  | @leave _ _ effect hstage _ hsteps =>
    rw [hsteps.stage, hstage]
    cases effect.answers.head? <;> trivial

/-- The loop that has loaded the machine for a frame adds the cycles of the frame. -/
theorem Stride.stage_of_loading (h : Stride build pacing me plant next)
    (hstage : plant.stage = .loading) :
    next.stage =
      MachineLoop.afterSum .addingCycles (plant.world.lock.value.addCycles build) := by
  cases h with
  | compute _ _ _ hnext =>
    rw [hnext, hstage]
    rfl
  | store _ hother => obtain ⟨hother, _⟩ | ⟨hother, _⟩ := hother <;> cases hstage.symm.trans hother
  | exit hother => obtain ⟨_, _, hother⟩ | ⟨_, hother⟩ := hother <;> cases hstage.symm.trans hother
  | fail _ hother =>
    obtain ⟨_, hother | hother⟩ | hother := hother <;> cases hstage.symm.trans hother
  | _ hother => cases hstage.symm.trans hother

/-- In the loop the thread is known to the world. -/
theorem LoopsAt.ne_default {self : ThreadState Machine} {stage : MachineLoop.Stage}
    (h : LoopsAt self stage) (hstage : stage.isOut = false) : self ≠ {} := by
  rintro rfl
  cases stage with
  | starting | leaving | ended => cases hstage
  | closing =>
    obtain ⟨_, h⟩ | h | ⟨_, _, h⟩ := h <;> cases h
  | yielding => obtain ⟨_, h⟩ | ⟨h, _⟩ | ⟨h, _⟩ | ⟨_, _, h⟩ := h <;> cases h
  | _ => cases h.2

/-- In the loop the thread has not ended. -/
theorem LoopsAt.ne_finished {self : ThreadState Machine} {stage : MachineLoop.Stage}
    (h : LoopsAt self stage) (hstage : stage.isOut = false) (outcome : Option Panic) :
    self.activity ≠ .finished outcome := by
  intro hfinished
  cases stage with
  | starting | leaving | ended => cases hstage
  | closing =>
    obtain ⟨hidle, _⟩ | hbusy | ⟨_, _, hbusy⟩ := h
    · cases hidle.symm.trans hfinished
    · cases hbusy.symm.trans hfinished
    · cases hbusy.symm.trans hfinished
  | yielding =>
    obtain ⟨hidle, _⟩ | ⟨_, hbusy⟩ | ⟨_, _, _, hbusy⟩ | ⟨_, _, hbusy⟩ := h
    · cases hidle.symm.trans hfinished
    · cases hbusy.symm.trans hfinished
    · cases hbusy.symm.trans hfinished
    · cases hbusy.symm.trans hfinished
  | _ => cases h.1.symm.trans hfinished

theorem loopsAt_of_isOut (self : ThreadState Machine) {stage : MachineLoop.Stage}
    (hstage : stage.isOut = true) : LoopsAt self stage := by
  cases stage with
  | starting | leaving | ended => trivial
  | _ => cases hstage

/-- What happens in a plant is a step of the loop, or the loop begins, or a move is made that the
loop has no part in. -/
inductive Happens (build : Build) (pacing : Pacing) (me : Thread) (plant : Plant) :
    Plant → Prop where
  | loop {next : Plant} (hloop : plant.loop? build pacing me = some next) :
      Happens build pacing me plant next
  | launch (hstage : plant.stage = .starting) (hruns : (plant.self me).Runs) :
      Happens build pacing me plant { plant with stage := .loading }
  | beside {move : YieldLock.Move Machine} {world : World Machine}
      {events : List (Event Machine)} (hmove : plant.world.move? build move = some (world, events))
      (hother : move.thread? ≠ some me ∨ plant.stage.isOut = true)
      (hspares : sparesCounters plant.world.lock.value move = true) :
      Happens build pacing me plant { plant with world }

theorem happens_of_move? {move : Move} (h : plant.move? build pacing me move = some next) :
    Happens build pacing me plant next := by
  cases move with
  | loop => exact .loop h
  | launch =>
    unfold move? at h
    simp only [Bool.and_eq_true, decide_eq_true_eq] at h
    split at h
    · rename_i hlaunch
      cases h
      obtain ⟨⟨hstage, hidle⟩, hsession⟩ := hlaunch
      refine .launch hstage ⟨?_, hsession⟩
      cases hactivity : (plant.self me).activity with
      | idle => rfl
      | _ =>
        rw [hactivity] at hidle
        cases hidle
    · cases h
  | beside move =>
    unfold move? at h
    simp only [Bool.and_eq_true, Bool.or_eq_true, decide_eq_true_eq] at h
    split at h
    · rename_i hfree
      obtain ⟨⟨world, events⟩, hmove, rfl⟩ := Option.map_eq_some_iff.mp h
      exact .beside hmove hfree.1 hfree.2
    · cases h

/-- A move of another thread that spares the counters can be made beside the loop. -/
theorem move?_beside {move : YieldLock.Move Machine} {world : World Machine}
    {events : List (Event Machine)} (hmove : plant.world.move? build move = some (world, events))
    (hother : move.thread? ≠ some me)
    (hspares : sparesCounters plant.world.lock.value move = true) :
    plant.move? build pacing me (.beside move) = some { plant with world } := by
  simp [Plant.move?, hother, hspares, hmove]

/-- A step of the loop moves the world, or leaves it as it is. -/
theorem world_of_loop? (h : plant.loop? build pacing me = some next)
    (hreach : YieldLock.Reachable build plant.world) :
    YieldLock.Reachable build next.world := by
  obtain ⟨_, deed, hdeed, hworld, _⟩ := exists_deed_of_loop? h
  rw [hworld]
  exact reachable_of_perform? hdeed hreach

theorem Happens.loopsAt (h : Happens build pacing me plant next)
    (hreach : YieldLock.Reachable build plant.world)
    (hloops : LoopsAt (plant.self me) plant.stage) : LoopsAt (next.self me) next.stage := by
  cases h with
  | loop hloop => exact (stride hloop hloops).loopsAt (hreach.fits me).sound
  | launch _ hruns => exact hruns
  | beside hmove hother =>
    cases hstage : plant.stage.isOut with
    | true => exact loopsAt_of_isOut _ hstage
    | false =>
      have hne := hother.resolve_right (by rw [hstage]; nofun)
      have hkept := (World.change_of_move? hmove).thread_of_ne (hloops.ne_default hstage) hne
      exact (congrArg (LoopsAt · plant.stage) hkept).mpr hloops

theorem Happens.reachable (h : Happens build pacing me plant next)
    (hreach : YieldLock.Reachable build plant.world) :
    YieldLock.Reachable build next.world := by
  cases h with
  | loop hloop => exact world_of_loop? hloop hreach
  | launch => exact hreach
  | beside hmove => exact hreach.move hmove

theorem Reachable.play? (h : Reachable build pacing me plant) {moves : List Move}
    (hplay : plant.play? build pacing me moves = some next) :
    Reachable build pacing me next := by
  induction moves generalizing plant with
  | nil =>
    cases hplay
    exact h
  | cons move moves ih =>
    obtain ⟨middle, hmove, hlater⟩ := Option.bind_eq_some_iff.mp hplay
    exact ih (h.move move hmove) hlater

theorem Reachable.world (h : Reachable build pacing me plant) :
    YieldLock.Reachable build plant.world := by
  induction h with
  | new hnew => exact Run.nil.reachable hnew
  | move _ _ hmove ih => exact (happens_of_move? hmove).reachable ih

/-- The thread has what the stage of the loop stands for. -/
theorem Reachable.loopsAt (h : Reachable build pacing me plant) :
    LoopsAt (plant.self me) plant.stage := by
  induction h with
  | new => trivial
  | move h _ hmove ih => exact (happens_of_move? hmove).loopsAt h.world ih

end

end Plant

end Demo

end YieldLock
