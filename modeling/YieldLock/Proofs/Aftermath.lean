import YieldLock.Proofs.Calls
import YieldLock.Proofs.Phase

/-!
# What a failed assertion leaves

A session makes some of its assertions before it has changed anything, or takes
back what it has changed: then a failed call leaves the session as it was. The
assertions against guards around a window and around the end of the session are
made after the level was given up, and that is not undone: the session goes on
without its level. Main statement: `session_after_failed_assertion`.
-/

namespace YieldLock

variable {σ : Type}

namespace Panic

/-- Assertions about the phase of a session. -/
def isOfPhase : Panic → Bool
  | yieldInWindow | windowOpenTwice | windowNotOpen => true
  | _ => false

/-- Assertions that a session makes. -/
def isOfSession (panic : Panic) : Bool := panic.isOfPhase || panic.isNesting

/-- Assertions that a session makes when it has given up its level. -/
def followsRelease : Panic → Bool
  | nestedWindow | nestedExit => true
  | _ => false

end Panic

namespace Call

/-- Calls in which a session makes its assertions and which it is to outlive. -/
def asserts : Call σ → Bool
  | yieldNow | openWindow | closeWindow | endSession => true
  | _ => false

/-- What is left of a session when a call fails after the level was given up. A window that was to
be closed is closed. -/
def leaves (call : Call σ) (session : Session) : Session where
  phase :=
    match call with
    | closeWindow => .running
    | _ => session.phase
  holds := false

theorem leaves_of_ne {call : Call σ} (h : call ≠ .closeWindow) (session : Session) :
    call.leaves session = { session with holds := false } := by
  cases call with
  | closeWindow => exact absurd rfl h
  | _ => rfl

end Call

/-- The call that a thread made in a turn has panicked on an assertion of its session, now or after
some turns in which the thread has made no other call. -/
structure FailsAssertion (build : Build) (me : Thread) (call : Call σ) (panic : Panic)
    (asked : Turn σ) (later : List (Turn σ)) (answered : Turn σ) : Prop where
  reachable : Reachable build asked.before
  isAsked : asked.IsMove build
  run : ∃ world, Run build asked.after later world
  asks : asked.move = .call me call
  asserts : call.asserts = true
  since : ∀ turn ∈ later, turn.isCallBy me = false
  mem : answered ∈ asked :: later
  answers : answered.Answers me call (.panicked panic)
  isOfSession : panic.isOfSession = true

namespace World

/-- A thread that reaches for the value through its session gets it. -/
def Shares (build : Build) (world : World σ) (me : Thread) : Prop :=
  ∃ next, world.call? build me (.read .session) =
    some (next, [.answered (.read .session) (.value world.lock.value)])

/-- A thread has the session, the levels of the lock and the access to the value that it had. -/
structure KeepsSession (build : Build) (me : Thread) (before after : World σ) : Prop where
  session : (after.thread me).session = (before.thread me).session
  depth : after.lock.mutex.depth me = before.lock.mutex.depth me
  shares : after.Shares build me ↔ before.Shares build me

/-- A thread's session has lost its level and with it the access to the value; what is left of the
thread's levels are those of its guards. -/
structure LosesLevel (build : Build) (me : Thread) (call : Call σ) (before after : World σ) :
    Prop where
  session : (after.thread me).session = (before.thread me).session.map call.leaves
  depth : after.lock.mutex.depth me = (before.thread me).guards
  shares : ¬after.Shares build me

end World

namespace ThreadState

/-- A call has panicked on an assertion of the session. -/
structure Stopped (state asked : ThreadState σ) (call : Call σ) (panic : Panic) : Prop where
  idle : state.activity = .idle
  guards : state.guards = asked.guards
  session :
    state.session = if panic.followsRelease then asked.session.map call.leaves else asked.session

/-- What a thread has changed of itself in a call that is under way. -/
structure Underway (state asked : ThreadState σ) (call : Call σ) : Prop where
  busy : ∃ point, state.activity = .busy call point
  guards : state.guards = asked.guards
  kept : ∀ point, state.activity = .busy call point → point.followsGiveUp = false →
    point ≠ .lowering → state.session = asked.session
  lowering : state.activity = .busy call .lowering →
    state.session.map ({ · with holds := false }) = asked.session.map call.leaves

section

variable {build : Build} {now : Nat} {me : Thread} {lock : Lock σ} {asked self : ThreadState σ}
  {call? : Option (Call σ)} {call : Call σ} {effect : Effect σ}

/-- A session makes its assertions only if there is one. -/
theorem Rule.exists_session (rule : Rule build now me lock self (some call) effect)
    (hcall : call.asserts = true) : ∃ session, self.session = some session := by
  cases rule with
  | yieldAfterExit _ hsession | yieldInWindow _ hsession | yieldToExit _ hsession
  | yieldToPoll _ hsession | openAfterExit _ hsession | openTwice _ hsession
  | openNested _ hsession | openWindow _ hsession | closeAfterExit _ hsession
  | closeBegin _ hsession | closeUnopened _ hsession | closeRunning _ hsession
  | endAfterExit _ hsession | endBegin _ hsession => exact ⟨_, hsession⟩
  | outOfReach _ hother | dropBegin _ hother | dropEnded _ hother =>
    obtain rfl | ⟨_, rfl⟩ := hother <;> cases hcall
  | _ => cases hcall

theorem underway_goOn (lock : Lock σ) (entries : List Entry) {point : Point}
    (hguards : self.guards = asked.guards) (hpoint : point ≠ .lowering)
    (hkept : point.followsGiveUp = false → self.session = asked.session) :
    (goOn lock self call point entries).self.Underway asked call where
  busy := ⟨point, rfl⟩
  guards := hguards
  kept other hother hfollows _ := by
    cases hother
    exact hkept hfollows
  lowering hlowering := by
    cases hlowering
    exact absurd rfl hpoint

theorem underway_lowering (lock : Lock σ) (entries : List Entry)
    (hguards : self.guards = asked.guards)
    (hleaves : self.session.map ({ · with holds := false }) = asked.session.map call.leaves) :
    (goOn lock self call .lowering entries).self.Underway asked call where
  busy := ⟨.lowering, rfl⟩
  guards := hguards
  kept other hother _ hpoint := by
    cases hother
    exact absurd rfl hpoint
  lowering _ := hleaves

/-- A session at a check point goes on to its end or is answered. -/
theorem underway_check (me : Thread) (lock : Lock σ) (entries : List Entry)
    (hguards : self.guards = asked.guards)
    (hleaves : self.session.map ({ · with holds := false }) = asked.session.map call.leaves) :
    (check me lock self call entries).self.Underway asked call ∨
      (check me lock self call entries).self.activity.isBusy = false := by
  unfold check
  split
  · exact .inl (underway_lowering lock entries hguards hleaves)
  · exact .inr rfl

/-- A call that makes an assertion is answered at once, or nothing has changed yet. -/
theorem Rule.underway_call (rule : Rule build now me lock self (some call) effect)
    (hcall : call.asserts = true) :
    effect.self.Underway self call ∨ effect.self.activity.isBusy = false := by
  cases rule with
  | yieldToExit => exact .inl (underway_lowering _ _ rfl rfl)
  | yieldToPoll | closeBegin => exact .inl (underway_goOn _ _ rfl (by decide) fun _ ↦ rfl)
  | closeRunning _ hsession hphase =>
    apply underway_check me lock [] rfl
    rw [hsession, Option.map_some, Option.map_some, Call.leaves, hphase]
  | endBegin => exact .inl (underway_lowering _ _ rfl rfl)
  | reenter | enter | adopt | finishBegin | joinBegin => cases hcall
  | dropBegin _ hdrop | dropEnded _ hdrop => obtain rfl | ⟨_, rfl⟩ := hdrop <;> cases hcall
  | finishEnded => cases hcall
  | _ => exact .inr rfl

/-- A further step of the call answers it, or leaves the session as it was until the level is given
up. -/
theorem Rule.underway_step (rule : Rule build now me lock self none effect)
    (hsound : self.IsSound) (h : self.Underway asked call) :
    effect.self.Underway asked call ∨ effect.self.activity.isBusy = false := by
  obtain ⟨point, hmade⟩ := h.busy
  have hguards := h.guards
  cases rule with
  | park => exact .inl h
  | start hbusy | pollSleep hbusy | pollFree hbusy | wake hbusy =>
    obtain ⟨rfl, rfl⟩ := Activity.busy.inj (hmade.symm.trans hbusy)
    exact .inl (underway_goOn _ _ hguards (by decide) fun _ ↦ h.kept _ hbusy rfl (by decide))
  | retake hbusy | recheck hbusy =>
    obtain ⟨rfl, rfl⟩ := Activity.busy.inj (hmade.symm.trans hbusy)
    obtain ⟨rfl, _⟩ := hsound.place _ _ hbusy
    refine underway_check _ _ _ hguards ?_
    rw [h.kept _ hbusy rfl (by decide)]
    rfl
  | close hbusy =>
    obtain ⟨rfl, rfl⟩ := Activity.busy.inj (hmade.symm.trans hbusy)
    obtain ⟨rfl, hsession⟩ := hsound.place _ _ hbusy
    refine underway_check _ _ _ hguards ?_
    rw [← h.kept _ hbusy rfl (by decide), hsession]
    rfl
  | giveUp hbusy | dispose hbusy | disposeNone hbusy | tearDown hbusy =>
    obtain ⟨rfl, rfl⟩ := Activity.busy.inj (hmade.symm.trans hbusy)
    exact .inl (underway_goOn lock [] hguards (by simp) (by simp [Point.followsGiveUp]))
  | obtainUnmatched | startLate | adoptLost | giveUpNested | tearDownFailed =>
    right
    unfold fail
    split <;> rfl
  | mark =>
    right
    unfold conclude
    split <;> rfl
  | _ => exact .inr rfl

theorem fail_of_asserts (hcall : call.asserts = true) (lock : Lock σ) (self : ThreadState σ)
    (panic : Panic) (entries : List Entry) :
    fail lock self call panic entries = answer lock self call (.panicked panic) entries := by
  cases call with
  | yieldNow | openWindow | closeWindow | endSession => rfl
  | _ => cases hcall

theorem Rule.stopped_call (rule : Rule build now me lock self (some call) effect)
    (hcall : call.asserts = true) {panic : Panic} (hpanic : panic.isOfSession = true)
    (hanswers : .panicked panic ∈ effect.answers) : effect.self.Stopped self call panic := by
  cases rule with
  | yieldInWindow | openTwice =>
    rw [answers_answer, List.mem_singleton] at hanswers
    split at hanswers
    · cases hanswers
      exact ⟨rfl, rfl, rfl⟩
    · cases hanswers
  | closeUnopened =>
    cases List.mem_singleton.mp hanswers
    exact ⟨rfl, rfl, rfl⟩
  | openNested _ hsession hphase =>
    cases List.mem_singleton.mp hanswers
    refine ⟨rfl, rfl, ?_⟩
    change some _ = Option.map Call.openWindow.leaves self.session
    rw [hsession, Option.map_some, Call.leaves_of_ne (by simp), hphase]
  | closeRunning =>
    rw [answers_check] at hanswers
    split at hanswers <;> simp at hanswers
  | outOfReach _ hother =>
    obtain rfl | ⟨_, rfl⟩ := hother <;> cases hcall
  | dropBegin _ hdrop | dropEnded _ hdrop => obtain rfl | ⟨_, rfl⟩ := hdrop <;> cases hcall
  | finishEnded | adoptLate => cases hcall
  | _ => simp at hanswers

/-- An assertion that fails in a further step of a call finds the session as it was, or is made
about a session that has just given up its level. -/
theorem Rule.stopped_step (rule : Rule build now me lock self none effect)
    (h : self.Underway asked call) (hcall : call.asserts = true) {panic : Panic}
    (hpanic : panic.isOfSession = true) (hanswers : .panicked panic ∈ effect.answers) :
    effect.self.Stopped asked call panic := by
  obtain ⟨point, hmade⟩ := h.busy
  cases rule with
  | pollNested hbusy =>
    obtain ⟨rfl, rfl⟩ := Activity.busy.inj (hmade.symm.trans hbusy)
    cases List.mem_singleton.mp hanswers
    exact ⟨rfl, h.guards, h.kept _ hbusy rfl (by decide)⟩
  | giveUpNested hbusy hsession =>
    obtain ⟨rfl, rfl⟩ := Activity.busy.inj (hmade.symm.trans hbusy)
    rw [fail_of_asserts hcall] at hanswers ⊢
    cases List.mem_singleton.mp hanswers
    refine ⟨rfl, h.guards, ?_⟩
    rw [if_pos (by rfl), ← h.lowering hbusy, hsession]
    rfl
  | obtainUnmatched hbusy | startLate hbusy | adoptLost hbusy =>
    obtain ⟨rfl, rfl⟩ := Activity.busy.inj (hmade.symm.trans hbusy)
    rw [fail_of_asserts hcall] at hanswers
    cases List.mem_singleton.mp hanswers
    cases hpanic
  | tearDownFailed hbusy hraised =>
    obtain ⟨rfl, rfl⟩ := Activity.busy.inj (hmade.symm.trans hbusy)
    rw [Effect.answers_tornDown, fail_of_asserts hcall, answers_answer] at hanswers
    obtain ⟨text, rfl⟩ := Teardown.exists_fail_of_panic hraised
    cases hraised
    cases List.mem_singleton.mp hanswers
    cases hpanic
  | retake | recheck | close =>
    rw [answers_check] at hanswers
    split at hanswers <;> simp at hanswers
  | mark hbusy =>
    obtain ⟨rfl, rfl⟩ := Activity.busy.inj (hmade.symm.trans hbusy)
    rw [answers_conclude, List.mem_singleton] at hanswers
    cases call with
    | yieldNow | openWindow | closeWindow | endSession => cases hanswers
    | _ => cases hcall
  | park => cases hanswers
  | @adoptWon made =>
    rw [answers_answer, List.mem_singleton] at hanswers
    cases made <;> cases hanswers
  | _ => simp at hanswers

end

end ThreadState

section

variable {build : Build} {me : Thread} {call : Call σ} {panic : Panic} {world : World σ}
  {asked answered turn : Turn σ} {later : List (Turn σ)}

open ThreadState

theorem Reachable.shares_iff (h : Reachable build world)
    (hidle : (world.thread me).activity = .idle) {session : Session}
    (hsession : (world.thread me).session = some session) :
    world.Shares build me ↔ session.holds = true := by
  obtain ⟨next, hcall⟩ : ∃ next, world.call? build me (.read .session) =
      some (next, [.answered (.read .session) (sharedAnswer world.lock session)]) :=
    h.call?_of_shared hidle hsession rfl
  rw [World.Shares, hcall, sharedAnswer]
  cases hholds : session.holds with
  | true => exact ⟨fun _ ↦ rfl, fun _ ↦ ⟨next, rfl⟩⟩
  | false => simp

/-- A turn of a known thread in which it makes no call is a step inside one. -/
theorem Turn.exists_rule_of_step (hmove : turn.IsMove build)
    (hmine : turn.move.thread? = some me) (hcall : turn.isCallBy me = false)
    (hknown : turn.before.threads.contains me = true) :
    ∃ effect, Rule build turn.before.clock me turn.before.lock (turn.before.thread me) none effect ∧
      turn.after = turn.before.after me effect ∧ turn.events = effect.events := by
  obtain ⟨before, move, after, events⟩ := turn
  have change : World.Change build before move after events := World.change_of_move? hmove
  have hnocall {name : Thread} {made : Call σ} (hname : name = me)
      (hnone : (Turn.mk before (.call name made) after events).isCallBy me = false) : False := by
    cases (Turn.isCallBy_of_call (congrArg (Move.call · made) hname)).symm.trans hnone
  cases change with
  | enter name title hunknown =>
    obtain rfl := Option.some_inj.mp hmine
    cases hknown.symm.trans hunknown
  | pass => cases hmine
  | own name call? effect _ rule =>
    rw [Move.thread?_ofThread, Option.some_inj] at hmine
    subst hmine
    cases call? with
    | some made => exact (hnocall rfl hcall).elim
    | none => exact ⟨effect, rule, rfl, rfl⟩
  | spawn name | spawnRefused name => exact (hnocall (Option.some_inj.mp hmine) hcall).elim

/-- A call is under way until it is answered, however the other threads move. -/
theorem Run.underway {asked : ThreadState σ} {start : World σ} (h : Reachable build start)
    (run : Run build start later world) (hsince : ∀ turn ∈ later, turn.isCallBy me = false)
    (hknown : start.threads.contains me = true)
    (hstart : (start.thread me).Underway asked call ∨ (start.thread me).activity.isBusy = false) :
    world.threads.contains me = true ∧
      ((world.thread me).Underway asked call ∨ (world.thread me).activity.isBusy = false) := by
  induction run with
  | nil => exact ⟨hknown, hstart⟩
  | @snoc turns turn run hmove ih =>
    obtain ⟨hknown, hbefore⟩ := ih fun other hmem ↦ hsince other (List.mem_append_left _ hmem)
    have hcall := hsince turn (List.mem_append_right _ (List.mem_singleton_self turn))
    have change := World.change_of_move? hmove
    refine ⟨change.contains_kept hknown, ?_⟩
    by_cases hmine : turn.move.thread? = some me
    · obtain ⟨effect, rule, hafter, _⟩ := Turn.exists_rule_of_step hmove hmine hcall hknown
      rw [hafter, World.thread_after_self]
      obtain hunderway | hidle := hbefore
      · exact rule.underway_step ((h.run run).fits me).sound hunderway
      · cases rule.isBusy_of_step.symm.trans hidle
    · obtain hkept | ⟨hunknown, _⟩ := change.thread_of_others hmine
      · rwa [hkept]
      · cases hknown.symm.trans hunknown

namespace FailsAssertion

variable (h : FailsAssertion build me call panic asked later answered)

include h

/-- The first step of the call. -/
theorem exists_rule :
    ∃ first, Rule build asked.before.clock me asked.before.lock (asked.before.thread me) (some call)
        first ∧ asked.after = asked.before.after me first ∧ asked.events = first.events := by
  have hspawn : call.isSpawn = false := by
    have hasserts := h.asserts
    cases call with
    | spawn => cases hasserts
    | _ => rfl
  obtain ⟨first, rule, _, hafter, hevents⟩ :=
    World.exists_rule_of_call? hspawn (h.isAsked.call?_eq h.asks)
  exact ⟨first, rule, hafter, hevents⟩

theorem reachable_after : Reachable build answered.after := by
  obtain ⟨world, run⟩ := h.run
  obtain ⟨hreach, hmove⟩ := (Run.cons h.isAsked run).isMove_of_mem h.reachable h.mem
  exact hreach.move hmove

/-- The call is answered, and it has changed the session only if the level was given up before. -/
theorem stopped : (answered.after.thread me).Stopped (asked.before.thread me) call panic := by
  obtain ⟨first, rule, hfirst, hevents⟩ := h.exists_rule
  have hanswered := Event.mem_answers h.answers.2
  obtain rfl | hmem := List.mem_cons.mp h.mem
  · rw [hfirst, World.thread_after_self]
    rw [hevents] at hanswered
    exact rule.stopped_call h.asserts h.isOfSession hanswered
  · obtain ⟨world, run⟩ := h.run
    obtain ⟨earlier, rest, rfl, hbefore, hmove, _⟩ := run.exists_split hmem
    have hreach : Reachable build asked.after := h.reachable.move h.isAsked
    have hknown : asked.after.threads.contains me = true := by
      rw [hfirst, World.after, Roster.contains_set, beq_self_eq_true, Bool.true_or]
    have hstart := rule.underway_call h.asserts
    rw [← World.thread_after_self asked.before me first, ← hfirst] at hstart
    obtain ⟨hknown, hunderway⟩ := hbefore.underway hreach
      (fun turn hturn ↦ h.since turn (List.mem_append_left _ hturn)) hknown hstart
    obtain ⟨effect, rule, hafter, hevents⟩ :=
      Turn.exists_rule_of_step hmove h.answers.1 (h.since answered hmem) hknown
    rw [hevents] at hanswered
    rw [hafter, World.thread_after_self]
    obtain hunderway | hidle := hunderway
    · exact rule.stopped_step hunderway h.asserts h.isOfSession hanswered
    · cases rule.isBusy_of_step.symm.trans hidle

end FailsAssertion

/-- A call that panics on an assertion about the phase of the session, or on the one in a yield,
leaves the session as it was: it has the phase it had and holds its level if it did, so the depth of
the lock and the access to the value are the same. The assertions around a window and around the
end of the session are made when the session has given up its level: it then has the phase it had,
or is running if its window was to be closed, but it holds no level any more, the thread owns only
the levels of its guards, and the value is out of the session's reach. -/
theorem session_after_failed_assertion
    (h : FailsAssertion build me call panic asked later answered) :
    (panic.followsRelease = false →
      World.KeepsSession build me asked.before answered.after) ∧
    (panic.followsRelease = true →
      World.LosesLevel build me call asked.before answered.after) := by
  have hstopped := h.stopped
  have hafter := h.reachable_after
  obtain ⟨first, rule, _⟩ := h.exists_rule
  obtain ⟨session, hsession⟩ := rule.exists_session h.asserts
  have hidle := rule.idle_of_call
  have hkept := hstopped.session
  constructor
  · intro hpanic
    rw [hpanic, if_neg (by decide)] at hkept
    refine ⟨hkept, ?_, ?_⟩
    · rw [(hafter.fits me).depth, (h.reachable.fits me).depth]
      exact levels_add 0 hstopped.guards hkept (by rw [hstopped.idle, hidle])
    · rw [hafter.shares_iff hstopped.idle (hkept.trans hsession),
        h.reachable.shares_iff hidle hsession]
  · intro hpanic
    rw [hpanic, if_pos rfl] at hkept
    have hleft : (answered.after.thread me).session = some (call.leaves session) := by
      rw [hkept, hsession, Option.map_some]
    refine ⟨hkept, ?_, ?_⟩
    · rw [(hafter.fits me).depth, levels_of_holdsNoLevel (holdsNoLevel_of_some hleft rfl)]
      exact hstopped.guards
    · rw [hafter.shares_iff hstopped.idle hleft]
      exact Bool.false_ne_true

/-- A call that is made in play fails on an assertion. -/
theorem failsAssertion_of_play? {start ready : World σ} {setup moves : List (Move σ)}
    {before : List (Turn σ)} (hnew : start.IsNew)
    (hready : start.play? build setup = some (before, ready))
    (hasked : ready.turn? build (.call me call) = some asked)
    (hlater : asked.after.play? build moves = some (later, world))
    (hmem : answered ∈ asked :: later) (hsince : ∀ turn ∈ later, turn.isCallBy me = false)
    (hanswers : answered.move.thread? = some me ∧
      .answered call (.panicked panic) ∈ answered.events)
    (hkinds : call.asserts = true ∧ panic.isOfSession = true) :
    FailsAssertion build me call panic asked later answered := by
  obtain ⟨rfl, hasks, hmove⟩ := Turn.isMove_of_turn? hasked
  exact ⟨(run_of_play? hready).reachable hnew, hmove, ⟨world, run_of_play? hlater⟩, hasks, hkinds.1,
    hsince, hmem, hanswers, hkinds.2⟩

/-- A call can fail on an assertion and leave the session changed. -/
def FailsChanged (build : Build) (me : Thread) (call : Call σ) (panic : Panic) : Prop :=
  ∃ asked later answered, FailsAssertion build me call panic asked later answered ∧
    ¬World.KeepsSession build me asked.before answered.after

theorem failsChanged_of_play? {start : World σ} (hnew : start.IsNew) (setup moves : List (Move σ))
    (hkinds : call.asserts = true ∧ panic.isOfSession = true)
    (hplay : ∃ ready ∈ start.play? build setup, ∃ asked ∈ ready.2.turn? build (.call me call),
      ∃ later ∈ asked.after.play? build moves, ∃ answered ∈ (asked :: later.1).getLast?,
        (∀ turn ∈ later.1, turn.isCallBy me = false) ∧
        (answered.move.thread? = some me ∧
          .answered call (.panicked panic) ∈ answered.events) ∧
        (answered.after.thread me).session ≠ (asked.before.thread me).session) :
    FailsChanged build me call panic := by
  obtain ⟨_, hready, asked, hasked, ⟨later, _⟩, hlater, answered, hlast, hsince, hanswers,
    hchanged⟩ := hplay
  have hmem : answered ∈ asked :: later := List.mem_of_getLast? hlast
  exact ⟨asked, later, answered,
    failsAssertion_of_play? hnew hready hasked hlater hmem hsince hanswers hkinds,
    fun h ↦ hchanged h.session⟩

set_option synthInstance.maxSize 512 in
/-- With a guard on its thread, a session that fails to open a window, or to end, loses its level,
and one that fails to end when it closes a window is running without one. -/
theorem failed_assertion_changes_session :
    FailsChanged .checked "worker" (.openWindow : Call Unit) .nestedWindow ∧
    FailsChanged .checked "worker" (.endSession : Call Unit) .nestedExit ∧
    FailsChanged .checked "worker" (.closeWindow : Call Unit) .nestedExit := by
  have hnew : ({ lock := .standard .checked () } : World Unit).IsNew :=
    ⟨.standard .checked (), rfl⟩
  let guarded : List (Move Unit) :=
    [.call "worker" .adopt, .step "worker", .call "worker" .tryAcquire]
  let opened : List (Move Unit) :=
    [.call "worker" .adopt, .step "worker", .call "worker" .openWindow,
      .call "worker" .tryAcquire, .call "other" .requestShutdown]
  refine ⟨?_, ?_, ?_⟩
  · exact failsChanged_of_play? hnew guarded [] ⟨rfl, rfl⟩ (by decide +kernel)
  · exact failsChanged_of_play? hnew guarded [.step "worker"] ⟨rfl, rfl⟩ (by decide +kernel)
  · exact failsChanged_of_play? hnew opened [.step "worker", .step "worker"] ⟨rfl, rfl⟩
      (by decide +kernel)

set_option synthInstance.maxSize 512 in
/-- A yield that fails while somebody waits keeps the session, and a window that fails to open takes
its level away. -/
theorem failed_yield_keeps_session :
    (∃ (asked answered : Turn Unit),
      FailsAssertion .checked "worker" .yieldNow .nestedYield asked [answered] answered ∧
        World.KeepsSession .checked "worker" asked.before answered.after) ∧
    (∃ asked : Turn Unit,
      FailsAssertion .checked "worker" .openWindow .nestedWindow asked [] asked ∧
        World.LosesLevel .checked "worker" .openWindow asked.before asked.after) := by
  let start : World Unit := { lock := .standard .checked () }
  have hnew : start.IsNew := ⟨.standard .checked (), rfl⟩
  let setup : List (Move Unit) :=
    [.call "worker" .adopt, .step "worker", .call "other" .acquire, .call "worker" .tryAcquire]
  have hyield : ∃ ready ∈ start.play? .checked setup,
      ∃ asked ∈ ready.2.turn? .checked (.call "worker" .yieldNow),
      ∃ answered ∈ asked.after.turn? .checked (.step "worker"),
      answered.isCallBy "worker" = false ∧ answered.move.thread? = some "worker" ∧
        .answered .yieldNow (.panicked .nestedYield) ∈ answered.events := by
    decide +kernel
  have hwindow : ∃ ready ∈ start.play? .checked setup,
      ∃ asked ∈ ready.2.turn? .checked (.call "worker" .openWindow),
      asked.move.thread? = some "worker" ∧
        .answered .openWindow (.panicked .nestedWindow) ∈ asked.events := by
    decide +kernel
  constructor
  · obtain ⟨_, hready, asked, hasked, answered, hanswered, hsince, hanswers⟩ := hyield
    obtain ⟨hbefore, _, hmove⟩ := Turn.isMove_of_turn? hanswered
    have hplay : asked.after.play? .checked [.step "worker"] =
        some ([answered], answered.after) := by
      rw [World.play?, hanswered]
      rfl
    have hfails := failsAssertion_of_play? hnew hready hasked hplay
      (List.mem_cons_of_mem _ (List.mem_singleton_self answered))
      (List.forall_mem_singleton.mpr hsince) hanswers ⟨rfl, rfl⟩
    exact ⟨asked, answered, hfails, (session_after_failed_assertion hfails).1 rfl⟩
  · obtain ⟨_, hready, asked, hasked, hanswers⟩ := hwindow
    have hplay : asked.after.play? .checked [] = some ([], asked.after) := rfl
    have hfails := failsAssertion_of_play? hnew hready hasked hplay List.mem_cons_self
      (List.forall_mem_nil _) hanswers ⟨rfl, rfl⟩
    exact ⟨asked, hfails, (session_after_failed_assertion hfails).2 rfl⟩

end

end YieldLock
