import YieldLock.Proofs.Ownership

/-!
# Calls that are answered

Whether a call comes back is a matter of its own thread's steps: the others may
move in between as they like, and the thread may have to wait for the lock.
`AnswersWithin` says that it comes back all the same after so many steps of its
own, and with what. Main statement: `answersWithin_lowering`, a session that has
begun to end does so without waiting for anyone.
-/

namespace YieldLock

variable {σ : Type}

/-- The thread needs the lock and cannot take it. -/
def World.isHeldUp (world : World σ) (name : Thread) : Bool :=
  (world.thread name).activity.wantsLock && !world.lock.mutex.canTake name

/-- The world moves on while a thread stays where it is. -/
inductive Stays (build : Build) (name : Thread) (world : World σ) : World σ → Prop where
  | refl : Stays build name world world
  | tail {middle later : World σ} {move : Move σ} {events : List (Event σ)}
      (stays : Stays build name world middle)
      (hmove : middle.move? build move = some (later, events))
      (hself : later.thread name = middle.thread name) : Stays build name world later

/-- A move can be made, and it answers a call as wanted or leaves more to be done. -/
def GoesOn (wanted : World σ → Answer σ → Prop) (more : World σ → Prop)
    (result : Option (World σ × List (Event σ))) : Prop :=
  ∃ next events, result = some (next, events) ∧
    ((∃ reply, events.filterMap Event.answer? = [reply] ∧ wanted next reply) ∨
      events.filterMap Event.answer? = [] ∧ more next)

/-- Whatever others do in between, a thread inside a call can always make its next step, unless it
may wait and is held up at the lock, and after so many steps its call is answered as wanted. -/
def AnswersWithin (build : Build) (name : Thread) (mayWait : Bool)
    (wanted : World σ → Answer σ → Prop) : Nat → World σ → Prop
  | 0, _ => False
  | steps + 1, world =>
    ∀ later, Stays build name world later →
      (mayWait && later.isHeldUp name) = true ∨
        GoesOn wanted (AnswersWithin build name mayWait wanted steps) (later.step? build name)

/-- An idle thread can make a call, which is answered as wanted after so many further steps. -/
def AnswersCall (build : Build) (name : Thread) (mayWait : Bool)
    (wanted : World σ → Answer σ → Prop) (steps : Nat) (world : World σ) (call : Call σ) : Prop :=
  GoesOn wanted (AnswersWithin build name mayWait wanted steps) (world.call? build name call)

theorem GoesOn.imp {wanted relaxed : World σ → Answer σ → Prop} {more further : World σ → Prop}
    {result : Option (World σ × List (Event σ))} (h : GoesOn wanted more result)
    (hwanted : ∀ world reply, wanted world reply → relaxed world reply)
    (hmore : ∀ world, more world → further world) : GoesOn relaxed further result := by
  obtain ⟨next, events, hresult, ⟨reply, hreply, hnext⟩ | ⟨hnone, hnext⟩⟩ := h
  · exact ⟨next, events, hresult, .inl ⟨reply, hreply, hwanted next reply hnext⟩⟩
  · exact ⟨next, events, hresult, .inr ⟨hnone, hmore next hnext⟩⟩

theorem AnswersWithin.imp {build : Build} {name : Thread} {mayWait : Bool}
    {wanted relaxed : World σ → Answer σ → Prop} {steps : Nat} {world : World σ}
    (h : AnswersWithin build name mayWait wanted steps world)
    (hwanted : ∀ world reply, wanted world reply → relaxed world reply) :
    AnswersWithin build name mayWait relaxed steps world := by
  induction steps generalizing world with
  | zero => exact h
  | succ steps ih =>
    intro later stays
    obtain hwaits | hgoes := h later stays
    · exact .inl hwaits
    · exact .inr (hgoes.imp hwanted fun next hnext ↦ ih hnext)

theorem AnswersWithin.succ {build : Build} {name : Thread} {mayWait : Bool}
    {wanted : World σ → Answer σ → Prop} {steps : Nat} {world : World σ}
    (h : AnswersWithin build name mayWait wanted steps world) :
    AnswersWithin build name mayWait wanted (steps + 1) world := by
  induction steps generalizing world with
  | zero => exact h.elim
  | succ steps ih =>
    intro later stays
    obtain hwaits | hgoes := h later stays
    · exact .inl hwaits
    · exact .inr (hgoes.imp (fun _ _ ↦ id) fun next hnext ↦ ih hnext)

namespace Stays

variable {build : Build} {name : Thread} {world later : World σ}

theorem thread_eq (stays : Stays build name world later) :
    later.thread name = world.thread name := by
  induction stays with
  | refl => rfl
  | tail _ _ hself ih => exact hself.trans ih

theorem reachable (stays : Stays build name world later) (h : Reachable build world) :
    Reachable build later := by
  induction stays with
  | refl => exact h
  | tail _ hmove _ ih => exact ih.move hmove

theorem advances (stays : Stays build name world later) : world.lock.Advances later.lock := by
  induction stays with
  | refl => exact .refl _
  | tail _ hmove _ ih => exact ih.trans (World.change_of_move? hmove).advances

end Stays

namespace Activity

/-- The thread is inside a call. -/
def isBusy : Activity σ → Bool
  | busy _ _ => true
  | _ => false

end Activity

namespace Call

/-- Calls that the session does not outlive. -/
def dropsSession : Call σ → Bool
  | dropSession | unwindSession _ | finish _ => true
  | _ => false

end Call

namespace ThreadState

theorem session_conclude_of_drops (lock : Lock σ) (self : ThreadState σ) {call : Call σ}
    (h : call.dropsSession = true) : (conclude lock self call).self.session = none := by
  cases call with
  | dropSession | unwindSession | finish => rfl
  | _ => cases h

/-- A call that drops the session while its thread unwinds cannot panic once more. -/
theorem session_fail_of_drops (lock : Lock σ) (self : ThreadState σ) {call : Call σ}
    (panic : Panic) (entries : List Entry) (h : call.dropsSession = true)
    (hcall : call.isUnwinding = false) :
    (fail lock self call panic entries).self.session = none := by
  cases call with
  | dropSession | finish => rfl
  | unwindSession => cases hcall
  | _ => cases h

/-- A thread that makes a further step is inside a call. -/
theorem Rule.isBusy_of_step {build : Build} {now : Nat} {me : Thread} {lock : Lock σ}
    {self : ThreadState σ} {effect : Effect σ} (rule : Rule build now me lock self none effect) :
    self.activity.isBusy = true := by
  cases rule with
  | _ hbusy =>
    rw [hbusy]
    rfl

/-- A step that answers a call ends it. -/
theorem Rule.isBusy_of_answers {build : Build} {now : Nat} {me : Thread} {lock : Lock σ}
    {self : ThreadState σ} {call? : Option (Call σ)} {effect : Effect σ}
    (rule : Rule build now me lock self call? effect) (hanswers : effect.answers ≠ []) :
    effect.self.activity.isBusy = false := by
  cases rule with
  | obtainUnmatched | startLate | adoptLost | giveUpNested | tearDownFailed =>
    unfold fail
    split <;> rfl
  | dropEnded | finishEnded | mark =>
    unfold conclude
    split <;> rfl
  | closeRunning | retake | recheck | close =>
    rw [answers_check] at hanswers
    unfold check
    split
    · rw [if_pos ‹_›] at hanswers
      exact absurd rfl hanswers
    · rfl
  | park => exact absurd rfl hanswers
  | tearDown =>
    rw [Effect.answers_tornDown] at hanswers
    exact absurd (answers_goOn ..) hanswers
  | tryTake | tryRefused | release | read | write | outOfReach | request | adoptLate
  | yieldAfterExit | yieldInWindow | openAfterExit | openTwice | openNested | openWindow
  | closeAfterExit | closeUnopened | endAfterExit | obtain | reentered | adoptWon | pollNone
  | pollNested | joined => rfl
  | _ => exact absurd (answers_goOn ..) hanswers

end ThreadState

theorem World.Change.isBusy_of_answers {build : Build} {world next : World σ} {move : Move σ}
    {events : List (Event σ)} {name : Thread}
    (change : World.Change build world move next events) (hmine : move.thread? = some name)
    (hanswers : events.filterMap Event.answer? ≠ []) :
    (next.thread name).activity.isBusy = false := by
  cases change with
  | enter | pass => exact absurd rfl hanswers
  | own other call? effect _ rule =>
    rw [Move.thread?_ofThread, Option.some_inj] at hmine
    subst hmine
    rw [World.thread_after_self]
    exact rule.isBusy_of_answers hanswers
  | spawn other child hidle =>
    cases hmine
    simp only [World.thread, Roster.get_set_self] at hidle ⊢
    rw [hidle]
    rfl
  | spawnRefused other child hidle =>
    cases hmine
    rw [hidle]
    rfl

namespace World

/-- What a call that ends the session comes to: a session that was dropped is gone, and if nothing
stands in the way of a clean end the answer says so. -/
def Ended (me : Thread) (call : Call σ) (clean : Prop) (next : World σ) (reply : Answer σ) : Prop :=
  (clean → reply = call.ending) ∧ (call.dropsSession = true → (next.thread me).session = none)

/-- The thread has no session any more, whatever its call was answered. -/
def SessionGone (me : Thread) (next : World σ) (_ : Answer σ) : Prop :=
  (next.thread me).session = none

/-- What the end of a session depends on: a clean end needs a lock without a failing teardown and,
where it is checked, a thread without guards; an end while unwinding must not fail either. -/
structure IsEnding (build : Build) (me : Thread) (call : Call σ) (clean : Prop) (world : World σ) :
    Prop where
  reachable : Reachable build world
  unnested : clean → build = .checked → call.isUnwinding = false → (world.thread me).guards = 0
  harmless : clean ∨ call.isUnwinding = true →
    ∀ text, world.lock.teardown ≠ some (.fail text)

section

variable {build : Build} {me : Thread} {call : Call σ} {point : Point} {clean : Prop}
  {world later : World σ} {effect : Effect σ}

theorem move?_of_step? (hbusy : (world.thread me).activity = .busy call point)
    (hpoint : point.isJoining = false)
    (hstep : (world.thread me).step? build world.clock me world.lock = some effect) :
    world.move? build (.step me) = some (world.after me effect, effect.events) := by
  change world.step? build me = _
  rw [step?_of_busy hbusy hpoint, hstep]
  rfl

theorem move?_of_invoke? (h : Reachable build world) (hknown : world.thread me ≠ {})
    (hinvoke : (world.thread me).invoke? build world.clock me world.lock call = some effect)
    (hspawn : call.isSpawn = false) :
    world.move? build (.call me call) = some (world.after me effect, effect.events) := by
  change world.call? build me call = _
  rw [call?_of_not_spawn world me hspawn, if_pos (h.hasRoomFor hknown), hinvoke]
  rfl

theorem IsEnding.stays (h : IsEnding build me call clean world)
    (stays : Stays build me world later) : IsEnding build me call clean later where
  reachable := stays.reachable h.reachable
  unnested := by
    rw [stays.thread_eq]
    exact h.unnested
  harmless hclean text := stays.advances.teardown_ne (h.harmless hclean text)

theorem IsEnding.step {move : Move σ} (h : IsEnding build me call clean world)
    (hmove : world.move? build move = some (world.after me effect, effect.events))
    (hguards : effect.self.guards ≤ (world.thread me).guards) :
    IsEnding build me call clean (world.after me effect) where
  reachable := h.reachable.move hmove
  unnested hclean hchecked hrunning := by
    have hnone := h.unnested hclean hchecked hrunning
    rw [thread_after_self]
    omega
  harmless hclean text := (change_of_move? hmove).advances.teardown_ne (h.harmless hclean text)

theorem goesOn_of_answers {wanted : World σ → Answer σ → Prop} {more : World σ → Prop}
    {reply : Answer σ}
    (hmove : world.move? build (.step me) = some (world.after me effect, effect.events))
    (hanswers : effect.answers = [reply]) (hwanted : wanted (world.after me effect) reply) :
    GoesOn wanted more (world.step? build me) :=
  ⟨_, _, hmove, .inl ⟨reply, hanswers, hwanted⟩⟩

theorem goesOn_of_more {wanted : World σ → Answer σ → Prop} {more : World σ → Prop}
    (hmove : world.move? build (.step me) = some (world.after me effect, effect.events))
    (hanswers : effect.answers = []) (hmore : more (world.after me effect)) :
    GoesOn wanted more (world.step? build me) :=
  ⟨_, _, hmove, .inr ⟨hanswers, hmore⟩⟩

theorem activity_after_busy (world : World σ) (effect : Effect σ)
    (h : effect.self.activity = .busy call point) :
    ((world.after me effect).thread me).activity = .busy call point := by
  rw [thread_after_self, h]

/-- The step that announces the end answers the call. -/
theorem answersWithin_marking (mayWait : Bool)
    (hbusy : (world.thread me).activity = .busy call .marking) :
    AnswersWithin build me mayWait (Ended me call clean) 1 world := by
  intro later stays
  right
  have hlater : (later.thread me).activity = .busy call .marking := by
    rw [stays.thread_eq, hbusy]
  have hstep : (later.thread me).step? build later.clock me later.lock =
      some (ThreadState.conclude { later.lock with terminated := later.lock.terminated.set }
        (later.thread me) call) := by
    rw [ThreadState.step?, hlater]
  refine goesOn_of_answers (move?_of_step? hlater rfl hstep) (ThreadState.answers_conclude ..) ?_
  refine ⟨fun _ ↦ rfl, fun hdrops ↦ ?_⟩
  rw [thread_after_self]
  exact ThreadState.session_conclude_of_drops _ _ hdrops

/-- A teardown either comes to an end or panics, and its panic ends the call. -/
theorem answersWithin_tearingDown (mayWait : Bool) {teardown : Teardown}
    (hbusy : (world.thread me).activity = .busy call (.tearingDown teardown))
    (hharmless : clean ∨ call.isUnwinding = true → ∀ text, teardown ≠ .fail text) :
    AnswersWithin build me mayWait (Ended me call clean) 2 world := by
  intro later stays
  right
  have hlater : (later.thread me).activity = .busy call (.tearingDown teardown) := by
    rw [stays.thread_eq, hbusy]
  have hstep : (later.thread me).step? build later.clock me later.lock =
      ThreadState.tearDown? me later.lock (later.thread me) call teardown := by
    rw [ThreadState.step?, hlater]
  unfold ThreadState.tearDown? at hstep
  cases hpanic : (teardown.run me later.lock).2.1 with
  | none =>
    simp only [hpanic] at hstep
    refine goesOn_of_more (move?_of_step? hlater rfl hstep) ?_ ?_
    · exact (Effect.answers_tornDown ..).trans (ThreadState.answers_goOn ..)
    · exact answersWithin_marking mayWait (activity_after_busy _ _ rfl)
  | some panic =>
    obtain ⟨text, hfail⟩ := Teardown.exists_fail_of_panic hpanic
    have hrunning : call.isUnwinding = false := by
      apply Bool.eq_false_iff.mpr
      intro hunwinding
      exact hharmless (.inr hunwinding) text hfail
    simp only [hpanic, hrunning] at hstep
    refine goesOn_of_answers (move?_of_step? hlater rfl hstep)
      ((Effect.answers_tornDown ..).trans (ThreadState.answers_fail ..)) ?_
    refine ⟨fun hclean ↦ absurd hfail (hharmless (.inl hclean) text), fun hdrops ↦ ?_⟩
    rw [thread_after_self]
    exact ThreadState.session_fail_of_drops _ _ _ _ hdrops hrunning

theorem answersWithin_disposing (mayWait : Bool)
    (hbusy : (world.thread me).activity = .busy call .disposing)
    (h : IsEnding build me call clean world) :
    AnswersWithin build me mayWait (Ended me call clean) 3 world := by
  intro later stays
  right
  have hlater : (later.thread me).activity = .busy call .disposing := by
    rw [stays.thread_eq, hbusy]
  have hstep : (later.thread me).step? build later.clock me later.lock =
      some (ThreadState.dispose later.lock (later.thread me) call) := by
    rw [ThreadState.step?, hlater]
  unfold ThreadState.dispose at hstep
  cases hteardown : later.lock.teardown with
  | none =>
    simp only [hteardown] at hstep
    refine goesOn_of_more (move?_of_step? hlater rfl hstep) (ThreadState.answers_goOn ..) ?_
    exact (answersWithin_marking mayWait (activity_after_busy _ _ rfl)).succ
  | some teardown =>
    simp only [hteardown] at hstep
    refine goesOn_of_more (move?_of_step? hlater rfl hstep) (ThreadState.answers_goOn ..) ?_
    have hharmless : clean ∨ call.isUnwinding = true → ∀ text, teardown ≠ .fail text := by
      rintro hclean text rfl
      exact (h.stays stays).harmless hclean text hteardown
    exact answersWithin_tearingDown mayWait (activity_after_busy _ _ rfl) hharmless

/-- A session that has begun to end does so in four steps and waits for nobody. -/
theorem answersWithin_lowering (mayWait : Bool)
    (hbusy : (world.thread me).activity = .busy call .lowering)
    (h : IsEnding build me call clean world) :
    AnswersWithin build me mayWait (Ended me call clean) 4 world := by
  intro later stays
  right
  have hlater : (later.thread me).activity = .busy call .lowering := by
    rw [stays.thread_eq, hbusy]
  have hending := h.stays stays
  have hfits := hending.reachable.fits me
  obtain ⟨_, session, hsession, _⟩ := hfits.sound.place _ _ hlater
  have hstep : (later.thread me).step? build later.clock me later.lock =
      some (ThreadState.giveUp build me later.lock (later.thread me) call session) := by
    rw [ThreadState.step?, hlater]
    simp only [hsession, Option.map_some]
  have hdepth : (later.lock.mutex.giveBackIf me session.holds).depth me =
      (later.thread me).guards :=
    hfits.depth_giveBackIf hsession (by rw [hlater]; rfl)
  unfold ThreadState.giveUp at hstep
  cases hnested : build.isChecked && !call.isUnwinding &&
      (later.lock.mutex.giveBackIf me session.holds).isHeldBy me with
  | true =>
    simp only [hnested, if_true] at hstep
    simp only [Bool.and_eq_true, Build.isChecked_eq_true, Bool.not_eq_true'] at hnested
    obtain ⟨⟨hchecked, hrunning⟩, hheld⟩ := hnested
    refine goesOn_of_answers (move?_of_step? hlater rfl hstep) (ThreadState.answers_fail ..) ?_
    refine ⟨fun hclean ↦ ?_, fun hdrops ↦ ?_⟩
    -- The assertion only fails where guards are left, which a clean end rules out.
    · have hguards := hending.unnested hclean hchecked hrunning
      rw [Mutex.isHeldBy, hdepth, hguards] at hheld
      cases hheld
    · rw [thread_after_self]
      exact ThreadState.session_fail_of_drops _ _ _ _ hdrops hrunning
  | false =>
    simp only [hnested] at hstep
    have hmove := move?_of_step? hlater rfl hstep
    apply goesOn_of_more hmove (ThreadState.answers_goOn ..)
    exact answersWithin_disposing mayWait (activity_after_busy _ _ rfl)
      (hending.step hmove (Nat.le_refl _))

end

end World

end YieldLock
