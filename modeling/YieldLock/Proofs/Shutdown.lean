import YieldLock.Proofs.Answering

/-!
# Shutdown is not missed

Once a request for shutdown has been answered, the next check point of the worker
is its last, whatever has become of the waiters since. Every call that reaches a
check point without the worker's guards in its way is answered with an exit, and
so are the calls that the request found on their way to the lock. Main statement:
`exit_after_request`.
-/

namespace YieldLock

variable {σ : Type}

/-- The points of a yield from which its last check point is still ahead. -/
def Point.precedesCheck : Point → Bool
  | sleeping | retaking | rechecking | closing => true
  | _ => false

/-- The answer that tells the worker to leave its loop. -/
def ToldToExit (_ : World σ) (reply : Answer σ) : Prop := reply = .flow .exit

namespace Call

/-- Calls for which the session is borrowed. -/
def usesSession : Call σ → Bool
  | yieldNow | openWindow | closeWindow | endSession | dropSession | unwindSession _
  | finish _ => true
  | _ => false

theorem usesSession_of_endsSession {call : Call σ} (h : call.endsSession = true) :
    call.usesSession = true := by
  cases call with
  | yieldNow | closeWindow | endSession | dropSession | unwindSession | finish => rfl
  | _ => cases h

end Call

namespace ThreadState

theorem check_of_shouldExit {me : Thread} {lock : Lock σ} (h : lock.shouldExit me = true)
    (self : ThreadState σ) (call : Call σ) (entries : List Entry) :
    check me lock self call entries = goOn lock self call .lowering entries := by
  rw [check, if_pos h]

section

variable (build : Build) (now : Nat) (me : Thread) (lock : Lock σ) {self : ThreadState σ}
  {session : Session}

theorem invoke?_yieldNow (hidle : self.activity = .idle) (hsession : self.session = some session) :
    self.invoke? build now me lock .yieldNow = some (beginYield build me lock self session) := by
  simp [invoke?, permits, hidle, hsession, Activity.isIdle]

theorem invoke?_openWindow (hidle : self.activity = .idle)
    (hsession : self.session = some session) :
    self.invoke? build now me lock .openWindow =
      some (openWindow build me lock self session) := by
  simp [invoke?, permits, hidle, hsession, Activity.isIdle]

theorem invoke?_closeWindow (hidle : self.activity = .idle)
    (hsession : self.session = some session) :
    self.invoke? build now me lock .closeWindow = some (beginClose build me lock self session) := by
  simp [invoke?, permits, hidle, hsession, Activity.isIdle]

end

/-- The thread has a session and is not inside a call that could change it. -/
def LeavesSession (self : ThreadState σ) (session : Session) : Prop :=
  self.session = some session ∧
    ∀ call point, self.activity = .busy call point → call.usesSession = false

section

variable {build : Build} {now : Nat} {me : Thread} {lock : Lock σ} {self : ThreadState σ}
  {call? : Option (Call σ)} {effect : Effect σ} {session : Session}

theorem leavesSession_of_idle (h : self.session = some session) (hidle : self.activity = .idle) :
    self.LeavesSession session := by
  refine ⟨h, fun call point hbusy ↦ ?_⟩
  rw [hidle] at hbusy
  cases hbusy

theorem leavesSession_goOn (h : self.session = some session) (lock : Lock σ) {call : Call σ}
    (point : Point) (entries : List Entry) (hcall : call.usesSession = false) :
    (goOn lock self call point entries).self.LeavesSession session := by
  refine ⟨h, fun other point hbusy ↦ ?_⟩
  cases hbusy
  exact hcall

/-- Apart from its session's calls a thread with a session can only stand at the lock for another
guard or wait for a thread to end. -/
theorem LeavesSession.point (h : self.LeavesSession session) (hsound : self.IsSound)
    {call : Call σ} {point : Point} (hbusy : self.activity = .busy call point) :
    (∃ watch, point = .waiting watch) ∨ point = .reentering ∨ ∃ child, point = .joining child := by
  have hcall := h.2 _ _ hbusy
  have hplace := hsound.place _ _ hbusy
  cases point with
  | waiting watch => exact .inl ⟨watch, rfl⟩
  | reentering => exact .inr (.inl rfl)
  | joining child => exact .inr (.inr ⟨child, rfl⟩)
  | starting | adopting =>
    have hnone := hplace.2
    rw [h.1] at hnone
    cases hnone
  | polling | rechecking | sleeping | retaking | closing =>
    obtain ⟨rfl, _⟩ := hplace
    cases hcall
  | lowering | disposing | tearingDown | marking =>
    rw [Call.usesSession_of_endsSession hplace.1] at hcall
    cases hcall

/-- A thread that makes no call for which its session is borrowed keeps the session as it is. -/
theorem Rule.leavesSession (rule : Rule build now me lock self call? effect) (hsound : self.IsSound)
    (h : self.LeavesSession session)
    (hcall : ∀ call, call? = some call → call.usesSession = false) :
    effect.self.LeavesSession session := by
  have hsession := h.1
  cases rule with
  | reenter | enter | adopt => exact leavesSession_goOn hsession _ _ _ rfl
  | joinBegin => exact leavesSession_goOn hsession lock _ [] rfl
  | tryTake | tryRefused | release | read | write | outOfReach | request | adoptLate | obtain
  | reentered | joined => exact leavesSession_of_idle hsession rfl
  | yieldAfterExit | yieldInWindow | yieldToExit | yieldToPoll | openAfterExit | openTwice
  | openNested | openWindow | closeAfterExit | closeBegin | closeUnopened | closeRunning
  | endAfterExit | endBegin | finishBegin | finishEnded => cases hcall _ rfl
  | dropBegin _ hdrop | dropEnded _ hdrop =>
    have hused := Call.usesSession_of_endsSession hdrop.endsSession
    rw [hcall _ rfl] at hused
    cases hused
  | park => exact h
  | @obtainUnmatched call _ hbusy =>
    obtain rfl : call = .acquire := hsound.place _ _ hbusy
    exact leavesSession_of_idle hsession rfl
  | startLate hbusy | start hbusy | adoptLost hbusy | adoptWon hbusy | pollNone hbusy
  | pollNested hbusy | pollSleep hbusy | pollFree hbusy | wake hbusy | retake hbusy | recheck hbusy
  | close hbusy | giveUpNested hbusy | giveUp hbusy | dispose hbusy | disposeNone hbusy
  | tearDown hbusy | tearDownFailed hbusy | mark hbusy =>
    obtain ⟨watch, hpoint⟩ | hpoint | ⟨child, hpoint⟩ := h.point hsound hbusy <;> cases hpoint

end

end ThreadState

namespace World

variable {build : Build} {me : Thread} {world next : World σ} {move : Move σ}
  {events : List (Event σ)}

theorem Change.leavesSession {session : Session} (change : Change build world move next events)
    (hsound : (world.thread me).IsSound) (h : (world.thread me).LeavesSession session)
    (hcall : ∀ call, move = .call me call → call.usesSession = false) :
    (next.thread me).LeavesSession session := by
  cases change.changeOf (ThreadState.ne_default_of_session h.1) with
  | others _ hself =>
    rw [hself]
    exact h
  | own call? effect rule =>
    rw [thread_after_self]
    refine rule.leavesSession hsound h fun call heq ↦ hcall call ?_
    rw [heq]
    rfl
  | spawns hidle handles hself =>
    rw [hself]
    exact ThreadState.leavesSession_of_idle h.1 hidle

/-- The thread has a session, has to obey a shutdown, and has nothing in the way of a clean end. -/
structure MustExit (build : Build) (me : Thread) (call : Call σ) (world : World σ) : Prop where
  ending : IsEnding build me call True world
  session : (world.thread me).session.isSome = true
  lowered : world.lock.keepAlive.isSet = false

theorem MustExit.shouldExit {call : Call σ} (h : MustExit build me call world) :
    world.lock.shouldExit me = true := by
  have hworker := (h.ending.reachable.fits me).worker h.session
  rw [Lock.shouldExit, h.lowered, Lock.isWorker, hworker, beq_self_eq_true]
  rfl

variable {call : Call σ} {point : Point} {mayWait : Bool} {later : World σ}

theorem MustExit.stays (h : MustExit build me call world) (stays : Stays build me world later) :
    MustExit build me call later where
  ending := h.ending.stays stays
  session := by
    rw [stays.thread_eq]
    exact h.session
  lowered := stays.advances.keepAlive h.lowered

theorem MustExit.step {effect : Effect σ} (h : MustExit build me call world)
    (hmove : world.move? build move = some (world.after me effect, effect.events))
    (hguards : effect.self.guards = (world.thread me).guards)
    (hsession : effect.self.session.isSome = true) :
    MustExit build me call (world.after me effect) where
  ending := h.ending.step hmove (Nat.le_of_eq hguards)
  session := by
    rw [thread_after_self]
    exact hsession
  lowered := (change_of_move? hmove).advances.keepAlive h.lowered

/-- At a check point the session begins to end. -/
theorem MustExit.goesOn_check (h : MustExit build me call world) {lock : Lock σ}
    {self : ThreadState σ} {entries : List Entry}
    (hbusy : (world.thread me).activity = .busy call point)
    (hpoint : point.isJoining = false)
    (hstep : (world.thread me).step? build world.clock me world.lock =
      some (ThreadState.check me lock self call entries))
    (hexit : lock.shouldExit me = true) (hguards : self.guards = (world.thread me).guards) :
    GoesOn (Ended me call True) (AnswersWithin build me mayWait (Ended me call True) 4)
      (world.step? build me) := by
  rw [ThreadState.check_of_shouldExit hexit] at hstep
  have hmove := move?_of_step? hbusy hpoint hstep
  apply goesOn_of_more hmove (ThreadState.answers_goOn ..)
  exact answersWithin_lowering mayWait (activity_after_busy _ _ rfl)
    (h.ending.step hmove (Nat.le_of_eq hguards))

theorem MustExit.answersWithin_rechecking (h : MustExit build me call world)
    (hbusy : (world.thread me).activity = .busy call .rechecking) :
    AnswersWithin build me mayWait (Ended me call True) 5 world := by
  intro later stays
  right
  have hlater : (later.thread me).activity = .busy call .rechecking := by
    rw [stays.thread_eq, hbusy]
  have hstep : (later.thread me).step? build later.clock me later.lock =
      some (ThreadState.check me later.lock (later.thread me) call []) := by
    rw [ThreadState.step?, hlater]
  exact (h.stays stays).goesOn_check hlater rfl hstep (h.stays stays).shouldExit rfl

/-- The thread takes the lock as soon as it can, and then it is at a check point. -/
theorem MustExit.answersWithin_retaking (h : MustExit build me call world)
    (hbusy : (world.thread me).activity = .busy call .retaking) :
    AnswersWithin build me true (Ended me call True) 5 world := by
  intro later stays
  have hlater : (later.thread me).activity = .busy call .retaking := by
    rw [stays.thread_eq, hbusy]
  cases hfree : later.lock.mutex.canTake me with
  | false =>
    left
    rw [isHeldUp, hlater, hfree]
    rfl
  | true =>
    right
    have hstep : (later.thread me).step? build later.clock me later.lock =
        some (ThreadState.check me { later.lock with mutex := later.lock.mutex.take me }
          (later.thread me) call [.logged .handedOver]) := by
      rw [ThreadState.step?, hlater]
      exact ThreadState.withLock?_of_canTake hfree _
    exact (h.stays stays).goesOn_check hlater rfl hstep (h.stays stays).shouldExit rfl

theorem MustExit.answersWithin_closing (h : MustExit build me call world)
    (hbusy : (world.thread me).activity = .busy call .closing) :
    AnswersWithin build me true (Ended me call True) 5 world := by
  intro later stays
  have hlater : (later.thread me).activity = .busy call .closing := by
    rw [stays.thread_eq, hbusy]
  cases hfree : later.lock.mutex.canTake me with
  | false =>
    left
    rw [isHeldUp, hlater, hfree]
    rfl
  | true =>
    right
    have hstep : (later.thread me).step? build later.clock me later.lock =
        some (ThreadState.close me (later.thread me) call
          { later.lock with mutex := later.lock.mutex.take me }) := by
      rw [ThreadState.step?, hlater]
      exact ThreadState.withLock?_of_canTake hfree _
    exact (h.stays stays).goesOn_check hlater rfl hstep (h.stays stays).shouldExit rfl

theorem MustExit.answersWithin_sleeping (h : MustExit build me call world)
    (hbusy : (world.thread me).activity = .busy call .sleeping) :
    AnswersWithin build me true (Ended me call True) 6 world := by
  intro later stays
  right
  have hlater : (later.thread me).activity = .busy call .sleeping := by
    rw [stays.thread_eq, hbusy]
  have hstep : (later.thread me).step? build later.clock me later.lock =
      some (ThreadState.goOn later.lock (later.thread me) call .retaking []) := by
    rw [ThreadState.step?, hlater]
  have hmove := move?_of_step? hlater rfl hstep
  have hexit := h.stays stays
  apply goesOn_of_more hmove (ThreadState.answers_goOn ..)
  exact (hexit.step hmove rfl hexit.session).answersWithin_retaking (activity_after_busy _ _ rfl)

/-- A yield that begins after the request ends the session at once. -/
theorem MustExit.answersCall_yieldNow (h : MustExit build me .yieldNow world) {session : Session}
    (hidle : (world.thread me).activity = .idle)
    (hsession : (world.thread me).session = some session) (hphase : session.phase = .running) :
    AnswersCall build me false (Ended me .yieldNow True) 4 world .yieldNow := by
  have hinvoke := ThreadState.invoke?_yieldNow build world.clock me world.lock hidle hsession
  unfold ThreadState.beginYield at hinvoke
  simp only [hphase, h.shouldExit, if_true] at hinvoke
  have hknown := ThreadState.ne_default_of_session hsession
  have hmove := move?_of_invoke? h.ending.reachable hknown hinvoke rfl
  refine ⟨_, _, hmove, .inr ⟨ThreadState.answers_goOn .., ?_⟩⟩
  exact answersWithin_lowering false (activity_after_busy _ _ rfl)
    (h.ending.step hmove (Nat.le_refl _))

/-- Closing a window takes the lock first. -/
theorem MustExit.answersCall_closeWindow (h : MustExit build me .closeWindow world)
    {session : Session} (hidle : (world.thread me).activity = .idle)
    (hsession : (world.thread me).session = some session) (hphase : session.phase = .yielding) :
    AnswersCall build me true (Ended me .closeWindow True) 5 world .closeWindow := by
  have hinvoke := ThreadState.invoke?_closeWindow build world.clock me world.lock hidle hsession
  unfold ThreadState.beginClose at hinvoke
  simp only [hphase] at hinvoke
  have hknown := ThreadState.ne_default_of_session hsession
  have hmove := move?_of_invoke? h.ending.reachable hknown hinvoke rfl
  refine ⟨_, _, hmove, .inr ⟨ThreadState.answers_goOn .., ?_⟩⟩
  exact (h.step hmove rfl h.session).answersWithin_closing (activity_after_busy _ _ rfl)

/-- A running session opens a window at once unless guards are in its way. -/
theorem exists_opened (h : Reachable build world) {session : Session}
    (hidle : (world.thread me).activity = .idle)
    (hsession : (world.thread me).session = some session) (hphase : session.phase = .running)
    (hguards : build = .unchecked ∨ (world.thread me).guards = 0) :
    ∃ opened, world.move? build (.call me .openWindow) =
        some (opened, [.answered .openWindow .opened]) ∧
      (opened.thread me).LeavesSession { phase := .yielding, holds := false } := by
  have hinvoke := ThreadState.invoke?_openWindow build world.clock me world.lock hidle hsession
  have hdepth : (world.lock.mutex.giveBackIf me session.holds).depth me =
      (world.thread me).guards :=
    (h.fits me).depth_giveBackIf hsession (by rw [hidle]; rfl)
  have hfree : (build.isChecked &&
      (world.lock.mutex.giveBackIf me session.holds).isHeldBy me) = false := by
    obtain hunchecked | hnone := hguards
    · rw [hunchecked]
      rfl
    · rw [Mutex.isHeldBy, hdepth, hnone]
      exact Bool.and_false _
  unfold ThreadState.openWindow at hinvoke
  simp only [hphase, hfree] at hinvoke
  have hknown := ThreadState.ne_default_of_session hsession
  refine ⟨_, move?_of_invoke? h hknown hinvoke rfl, ?_⟩
  rw [thread_after_self]
  exact ThreadState.leavesSession_of_idle rfl rfl

end World

section

variable {build : Build} {start world later : World σ} {turns inner : List (Turn σ)} {me : Thread}
  {session : Session}

/-- A thread keeps its session as it is until it makes a call for which the session is borrowed. -/
theorem Run.leavesSession (run : Run build world turns later) (h : Reachable build world)
    (hleaves : (world.thread me).LeavesSession session)
    (hcalls : ∀ turn ∈ turns, ∀ call, turn.move = .call me call → call.usesSession = false) :
    (later.thread me).LeavesSession session := by
  induction run with
  | nil => exact hleaves
  | @snoc turns turn run hmove ih =>
    have hearlier := ih fun earlier hmem ↦ hcalls earlier (List.mem_append_left _ hmem)
    have hlast := hcalls turn (List.mem_append_right _ (List.mem_singleton_self turn))
    have hsound := ((h.run run).fits me).sound
    exact (World.change_of_move? hmove).leavesSession hsound hearlier hlast

theorem mustExit_of_lowered (h : Reachable build world)
    (hlowered : world.lock.keepAlive.isSet = false)
    (hsession : (world.thread me).session = some session)
    (hguards : build = .unchecked ∨ (world.thread me).guards = 0)
    (hteardown : ∀ text, world.lock.teardown ≠ some (.fail text)) (call : Call σ) :
    World.MustExit build me call world where
  ending := by
    refine ⟨h, fun _ hchecked _ ↦ ?_, fun _ ↦ hteardown⟩
    obtain hunchecked | hnone := hguards
    · rw [hchecked] at hunchecked
      cases hunchecked
    · exact hnone
  session := by
    rw [hsession]
    rfl
  lowered := hlowered

theorem World.MustExit.answersWithin {call : Call σ} {point : Point}
    (h : World.MustExit build me call world)
    (hbusy : (world.thread me).activity = .busy call point) (hpoint : point.precedesCheck = true) :
    AnswersWithin build me true (World.Ended me call True) 6 world := by
  cases point with
  | sleeping => exact h.answersWithin_sleeping hbusy
  | retaking => exact (h.answersWithin_retaking hbusy).succ
  | rechecking => exact (h.answersWithin_rechecking hbusy).succ
  | closing => exact (h.answersWithin_closing hbusy).succ
  | _ => cases hpoint

theorem AnswersWithin.toldToExit {call : Call σ} {mayWait : Bool} {steps : Nat}
    (h : AnswersWithin build me mayWait (World.Ended me call True) steps world)
    (hcall : call.ending = .flow .exit) : AnswersWithin build me mayWait ToldToExit steps world :=
  h.imp fun _ _ hended ↦ (hended.1 trivial).trans hcall

theorem AnswersCall.toldToExit {call : Call σ} {mayWait : Bool} {steps : Nat}
    (h : AnswersCall build me mayWait (World.Ended me call True) steps world call)
    (hcall : call.ending = .flow .exit) :
    AnswersCall build me mayWait ToldToExit steps world call :=
  h.imp (fun _ _ hended ↦ (hended.1 trivial).trans hcall) fun _ hmore ↦ hmore.toldToExit hcall

/-- After a request for shutdown has been answered, a worker with no guards in its way is told to
exit: at once by a yield, and as soon as it has the lock by closing a window that was open or is
opened now, and by a yield or a close that was on its way to its check point. -/
theorem exit_after_request (hnew : start.IsNew) (run : Run build start turns world)
    (hrequest : ∃ turn ∈ turns, ∃ caller request,
      turn.Answers caller .requestShutdown (.requested request))
    (hsession : (world.thread me).session = some session)
    (hguards : build = .unchecked ∨ (world.thread me).guards = 0)
    (hteardown : ∀ text, world.lock.teardown ≠ some (.fail text)) :
    ((world.thread me).activity = .idle → session.phase = .running →
      AnswersCall build me false ToldToExit 4 world .yieldNow) ∧
    ((world.thread me).activity = .idle → session.phase = .yielding →
      AnswersCall build me true ToldToExit 5 world .closeWindow) ∧
    ((world.thread me).activity = .idle → session.phase = .running →
      ∃ opened, world.call? build me .openWindow =
          some (opened, [.answered .openWindow .opened]) ∧
        ∀ inner later, Run build opened inner later →
          (∀ turn ∈ inner, ∀ call, turn.move = .call me call → call.usesSession = false) →
          (later.thread me).activity = .idle →
          (build = .unchecked ∨ (later.thread me).guards = 0) →
          AnswersCall build me true ToldToExit 5 later .closeWindow) ∧
    (∀ call point, (world.thread me).activity = .busy call point → point.precedesCheck = true →
      AnswersWithin build me true ToldToExit 6 world) := by
  have hreach : Reachable build world := run.reachable hnew
  have hlowered : world.lock.keepAlive.isSet = false := by
    obtain ⟨turn, hmem, caller, request, _, hevent⟩ := hrequest
    exact run.lowered_of_requested ⟨turn, hmem, _, request, hevent⟩
  have hexit := mustExit_of_lowered hreach hlowered hsession hguards hteardown
  refine ⟨fun hidle hphase ↦ ?_, fun hidle hphase ↦ ?_, fun hidle hphase ↦ ?_,
    fun call point hbusy hpoint ↦ ?_⟩
  · exact ((hexit .yieldNow).answersCall_yieldNow hidle hsession hphase).toldToExit rfl
  · exact ((hexit .closeWindow).answersCall_closeWindow hidle hsession hphase).toldToExit rfl
  · obtain ⟨opened, hmove, hleaves⟩ :=
      World.exists_opened hreach hidle hsession hphase hguards
    refine ⟨opened, hmove, fun inner later hrun hcalls hlater hnone ↦ ?_⟩
    have hopened : Reachable build opened := hreach.move hmove
    have hkept := hrun.leavesSession hopened hleaves hcalls
    have hadvances : world.lock.Advances later.lock :=
      (World.change_of_move? hmove).advances.trans hrun.advances
    have hclose := mustExit_of_lowered (hopened.run hrun) (hadvances.keepAlive hlowered) hkept.1
      hnone (fun text ↦ hadvances.teardown_ne (hteardown text)) .closeWindow
    exact (hclose.answersCall_closeWindow hlater hkept.1 rfl).toldToExit rfl
  · have hplace := (hreach.fits me).sound.place _ _ hbusy
    have hcall : call.ending = .flow .exit := by
      cases point with
      | sleeping | retaking | rechecking | closing =>
        rw [hplace.1]
        rfl
      | _ => cases hpoint
    exact ((hexit call).answersWithin hbusy hpoint).toldToExit hcall

/-- A request made while another thread waits for the lock ends the worker's next yield. -/
theorem yield_exits_after_request :
    ∃ world : World Unit, (world.thread "worker").activity = .idle ∧
      world.lock.mutex.queue = ["other"] ∧
      AnswersCall .checked "worker" false ToldToExit 4 world .yieldNow := by
  let start : World Unit := { lock := .standard .checked () }
  let moves : List (Move Unit) :=
    [.call "worker" .adopt, .step "worker", .call "other" .acquire, .step "other",
      .call "third" .requestShutdown]
  have hplay : ∃ turns world, start.play? .checked moves = some (turns, world) ∧
      (∃ turn ∈ turns, ∃ caller request,
        turn.Answers caller .requestShutdown (.requested request)) ∧
      (world.thread "worker").session = some {} ∧ (world.thread "worker").guards = 0 ∧
      (world.thread "worker").activity = .idle ∧ world.lock.teardown = none ∧
      world.lock.mutex.queue = ["other"] := by
    refine ⟨_, _, rfl, ?_, rfl, rfl, rfl, rfl, rfl⟩
    exact ⟨_, .tail _ (.tail _ (.tail _ (.tail _ (.head _)))), "third", .signalled, rfl,
      .tail _ (.head _)⟩
  obtain ⟨turns, world, hturns, hrequest, hsession, hguards, hidle, hteardown, hqueue⟩ := hplay
  have hnone : ∀ text, world.lock.teardown ≠ some (.fail text) := by
    intro text hsome
    rw [hteardown] at hsome
    cases hsome
  have hexit := exit_after_request ⟨.standard .checked (), rfl⟩ (run_of_play? hturns) hrequest
    hsession (.inr hguards) hnone
  exact ⟨world, hidle, hqueue, hexit.1 hidle rfl⟩

end

end YieldLock
