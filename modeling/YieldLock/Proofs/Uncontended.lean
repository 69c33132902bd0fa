import YieldLock.Proofs.Acquiring
import YieldLock.Proofs.Calls
import YieldLock.Proofs.Shutdown

/-!
# Yields that nobody waits for

A yield looks for waiters and goes on at once if there are none. Threads that try
to take the lock, or that wait to become the worker, are not counted as waiters,
so they do not disturb it. Main statements: `Rule.of_yield_unwaited`,
`Rule.of_other_unwaited`, and `uncontended_yields_change_nothing`.
-/

namespace YieldLock

variable {σ : Type}

/-- The counters after a number of yields. -/
def Stats.countYields (stats : Stats) (number : Nat) : Stats :=
  { stats with yieldCalls := stats.yieldCalls + .ofNat number }

theorem Stats.countYields_zero (stats : Stats) : stats.countYields 0 = stats := by
  rw [countYields]
  exact congrArg (fun yieldCalls ↦ { stats with yieldCalls }) (UInt64.add_zero _)

theorem Stats.countYields_succ (stats : Stats) (number : Nat) :
    stats.countYields (number + 1) = (stats.countYields number).countYield := by
  rw [countYields, countYields, countYield, UInt64.ofNat_add, ← UInt64.add_assoc]
  rfl

/-- The move is a request for shutdown. -/
def Move.isRequest : Move σ → Bool
  | .call _ .requestShutdown => true
  | _ => false

/-- The thread is on its way to the lock to become the worker. -/
def Activity.awaitsAdoption : Activity σ → Bool
  | .busy _ .adopting => true
  | _ => false

/-- A yield is answered, and its worker goes on. -/
def Event.isProceed : Event σ → Bool
  | .answered .yieldNow (.flow .proceed) => true
  | _ => false

namespace Turn

/-- The thread makes a yield. -/
def isYieldOf (me : Thread) (turn : Turn σ) : Bool :=
  match turn.move with
  | .call name .yieldNow => name == me
  | _ => false

/-- The thread is answered that it may go on after a yield. -/
def proceedsFor (me : Thread) (turn : Turn σ) : Bool :=
  turn.move.thread? == some me && turn.events.any Event.isProceed

/-- A turn in which a worker does nothing but yield, nobody asks for shutdown, and no thread but the
worker is in an acquisition. -/
structure IsUncontended (me : Thread) (turn : Turn σ) : Prop where
  own : turn.move.thread? = some me → turn.move = .call me .yieldNow ∨ turn.move = .step me
  alive : turn.move.isRequest = false
  free : ∀ name, ¬turn.after.IsAcquiring name

end Turn

namespace ThreadState

section

variable {build : Build} {now : Nat} {me name : Thread} {lock : Lock σ} {self : ThreadState σ}
  {call? : Option (Call σ)} {effect : Effect σ}

/-- A thread without a session can only stand at the lock to get a guard or to become the worker, or
wait for a thread to end. -/
theorem IsSound.point_of_none (h : self.IsSound) (hsession : self.session = none) {call : Call σ}
    {point : Point} (hbusy : self.activity = .busy call point) :
    call = .acquire ∨ point = .starting ∨ point = .adopting ∨ ∃ child, point = .joining child := by
  have hplace := h.place _ _ hbusy
  cases point with
  | waiting | reentering => exact .inl hplace
  | starting => exact .inr (.inl rfl)
  | adopting => exact .inr (.inr (.inl rfl))
  | joining child => exact .inr (.inr (.inr ⟨child, rfl⟩))
  | polling | rechecking | lowering =>
    obtain ⟨_, session, hsome, _⟩ := hplace
    cases hsession.symm.trans hsome
  | sleeping | retaking | closing | disposing | tearingDown | marking =>
    cases hsession.symm.trans hplace.2

/-- A running session that yields while the signal is up goes to look for waiters, and if there are
none it goes on. -/
theorem Rule.of_yield_unwaited (rule : Rule build now me lock self call? effect)
    (hsession : self.session = some { phase := .running, holds := true })
    (hactivity : self.activity = .idle ∨ self.activity = .busy .yieldNow .polling)
    (hcall : call? = some .yieldNow ∨ call? = none)
    (halive : lock.keepAlive.isSet = true) (hwaiters : lock.waiters.isSet = false) :
    call? = some .yieldNow ∧ self.activity = .idle ∧
        effect = goOn { lock with stats := lock.stats.countYield } self .yieldNow .polling [] ∨
      call? = none ∧ self.activity = .busy .yieldNow .polling ∧
        effect = answer lock self .yieldNow (.flow .proceed) [] := by
  cases rule with
  | yieldToPoll hidle => exact .inl ⟨rfl, hidle, rfl⟩
  | yieldToExit _ _ _ hexit =>
    rw [Lock.shouldExit, halive] at hexit
    cases hexit
  | yieldAfterExit _ hother hphase | yieldInWindow _ hother hphase =>
    cases hsession.symm.trans hother
    cases hphase
  | pollNone hbusy =>
    obtain hidle | hpolls := hactivity
    · cases hidle.symm.trans hbusy
    · cases hpolls.symm.trans hbusy
      exact .inr ⟨rfl, hpolls, rfl⟩
  | pollNested _ hset | pollSleep _ hset | pollFree _ hset => cases hset.symm.trans hwaiters
  | outOfReach _ hother | dropBegin _ hother | dropEnded _ hother =>
    obtain heq | ⟨_, heq⟩ := hother <;> subst heq <;> obtain heq | heq := hcall <;> cases heq
  | reenter | enter | tryTake | tryRefused | release | read | write | request | adoptLate | adopt
  | openAfterExit | openTwice | openNested | openWindow | closeAfterExit | closeBegin
  | closeUnopened | closeRunning | endAfterExit | endBegin | finishBegin | finishEnded
  | joinBegin => obtain heq | heq := hcall <;> cases heq
  | park hbusy hwants =>
    obtain hidle | hpolls := hactivity
    · cases hidle.symm.trans hbusy
    · cases hpolls.symm.trans hbusy
      cases hwants
  | _ hbusy =>
    obtain hidle | hpolls := hactivity
    · cases hidle.symm.trans hbusy
    · cases hpolls.symm.trans hbusy

/-- A thread that has neither a session nor a guard, and that is in no acquisition, does nothing to
a lock that the worker holds unless it asks for shutdown or joins the queue. -/
theorem Rule.of_other_unwaited (rule : Rule build now name lock self call? effect)
    (hsound : self.IsSound) (hsession : self.session = none) (hguards : self.guards = 0)
    (hheld : lock.mutex.canTake name = false) (hworker : lock.worker.isSome = true)
    (hasks : call? ≠ some .requestShutdown)
    (hbefore : ∀ point, self.activity ≠ .busy .acquire point)
    (hafter : ∀ point, effect.self.activity ≠ .busy .acquire point)
    (hqueued : self.activity.awaitsAdoption = true → name ∈ lock.mutex.queue) :
    effect.lock = lock ∧ effect.self.activity.awaitsAdoption = false ∧
      (call? = some .tryAcquire → effect.events = [.answered .tryAcquire .refused]) := by
  have hnone {session : Session} (hsome : self.session = some session) : False := by
    cases hsession.symm.trans hsome
  have hpoint {call : Call σ} {point : Point} (hbusy : self.activity = .busy call point) :
      point = .starting ∨ point = .adopting ∨ ∃ child, point = .joining child := by
    obtain rfl | hpoint := hsound.point_of_none hsession hbusy
    · exact absurd hbusy (hbefore point)
    · exact hpoint
  have hreach {access : Access} (hreach : self.Reaches access) : False := by
    cases access with
    | guard => exact absurd hguards (Nat.pos_iff_ne_zero.mp hreach)
    | session => exact hnone hreach.choose_spec.1
  cases rule with
  | reenter | enter => exact absurd rfl (hafter _)
  | request => exact absurd rfl hasks
  | release _ hguard => exact absurd hguards (Nat.pos_iff_ne_zero.mp hguard)
  | read _ hreaches | write _ hreaches => exact (hreach hreaches).elim
  | adopt _ hunadopted | start _ hunadopted =>
    rw [hunadopted] at hworker
    cases hworker
  | outOfReach _ _ hsome | yieldAfterExit _ hsome | yieldInWindow _ hsome | yieldToExit _ hsome
  | yieldToPoll _ hsome | openAfterExit _ hsome | openTwice _ hsome | openNested _ hsome
  | openWindow _ hsome | closeAfterExit _ hsome | closeBegin _ hsome | closeUnopened _ hsome
  | closeRunning _ hsome | endAfterExit _ hsome | endBegin _ hsome | dropBegin _ _ _ hsome
  | dropEnded _ _ _ hsome | finishBegin _ _ hsome => exact (hnone hsome).elim
  | tryTake _ hfree | obtain _ hfree | obtainUnmatched _ hfree | reentered _ hfree
  | adoptLost _ hfree | adoptWon _ hfree | retake _ hfree | close _ hfree =>
    cases hheld.symm.trans hfree
  | tryRefused => exact ⟨rfl, rfl, fun _ ↦ rfl⟩
  | adoptLate | joinBegin | joined => exact ⟨rfl, rfl, by simp⟩
  | finishEnded =>
    rw [hguards]
    exact ⟨rfl, rfl, by simp⟩
  | park hbusy hwants _ hqueue =>
    obtain rfl | rfl | ⟨_, rfl⟩ := hpoint hbusy
    · cases hwants
    · exact absurd (hqueued (by rw [hbusy]; rfl)) hqueue
    · cases hwants
  | startLate =>
    rw [lock_fail]
    refine ⟨rfl, ?_, by simp⟩
    unfold fail
    split <;> rfl
  | _ hbusy => obtain h | h | ⟨_, h⟩ := hpoint hbusy <;> cases h

end

end ThreadState

/-- A lock as a worker left it that has only yielded since, with nobody waiting. -/
structure World.StaysCalm (start : Lock σ) (me : Thread) (number : Nat) (world : World σ) :
    Prop where
  lock : world.lock = { start with stats := start.stats.countYields number }
  session : (world.thread me).session = some { phase := .running, holds := true }
  activity : (world.thread me).activity = .idle ∨
    (world.thread me).activity = .busy .yieldNow .polling
  free : ∀ name, name ≠ me → ∀ point, (world.thread name).activity ≠ .busy .acquire point
  queued : ∀ name, (world.thread name).activity.awaitsAdoption = true →
    name ∈ world.lock.mutex.queue
  alive : world.lock.keepAlive.isSet = true
  unwaited : world.lock.waiters.isSet = false

/-- What a turn shows while nobody waits for a worker that yields: only yields are answered by the
worker, and they go on; an attempt of another thread to take the lock fails; nobody sleeps. -/
structure Turn.ShowsCalm (me : Thread) (turn : Turn σ) : Prop where
  proceeds : ∀ call reply, turn.Answers me call reply →
    call = .yieldNow ∧ reply = .flow .proceed
  refuses : ∀ name, name ≠ me → turn.move = .call name .tryAcquire →
    turn.events = [.answered .tryAcquire .refused]
  awake : ∀ span, .entry (.slept span) ∉ turn.events

section

variable {build : Build} {start : Lock σ} {me : Thread} {number : Nat} {world next : World σ}
  {move : Move σ} {events : List (Event σ)}

open ThreadState

namespace World.StaysCalm

variable (h : world.StaysCalm start me number)

include h

theorem isHeldBy (hreach : Reachable build world) : world.lock.mutex.isHeldBy me = true := by
  have hreleased : (world.thread me).activity.isReleased = false := by
    obtain hidle | hpolls := h.activity
    · rw [hidle]
      rfl
    · rw [hpolls]
      rfl
  rw [Mutex.isHeldBy, (hreach.fits me).depth, levels_of_holds h.session rfl hreleased]
  exact decide_eq_true (Nat.succ_pos _)

/-- Another thread has nothing but a place in the queue. -/
theorem of_other (hreach : Reachable build world) {name : Thread} (hne : name ≠ me) :
    (world.thread name).session = none ∧ (world.thread name).guards = 0 ∧
      world.lock.mutex.canTake name = false := by
  have hheld := h.isHeldBy hreach
  have hfree := Mutex.canTake_of_owner hheld hne
  have hworker := (hreach.fits me).worker (by rw [h.session]; rfl)
  have hdepth : world.lock.mutex.depth name = 0 := by
    rw [Mutex.canTake, Bool.or_eq_false_iff] at hfree
    exact Mutex.isHeldBy_eq_false_iff.mp hfree.2
  rw [(hreach.fits name).depth] at hdepth
  exact ⟨hreach.session_eq_none hworker hne, Nat.eq_zero_of_add_eq_zero_right hdepth, hfree⟩

/-- A move of another thread leaves the lock and the worker as they are. -/
theorem of_others (hreach : Reachable build world)
    (change : World.Change build world move next events) (hne : move.thread? ≠ some me)
    (halive : move.isRequest = false)
    (hfree : ∀ name, name ≠ me → ∀ point, (next.thread name).activity ≠ .busy .acquire point) :
    next.lock = world.lock ∧ next.thread me = world.thread me ∧
      (∀ name, (next.thread name).activity.awaitsAdoption = true →
        (world.thread name).activity.awaitsAdoption = true) ∧
      (∀ name, move = .call name .tryAcquire → events = [.answered .tryAcquire .refused]) ∧
      ∀ span, .entry (.slept span) ∉ events := by
  have hself := change.thread_of_ne (ne_default_of_session h.session) hne
  cases change with
  | enter name title =>
    refine ⟨rfl, hself, fun other hadopts ↦ ?_, by simp, by simp⟩
    rw [World.thread_enlist] at hadopts
    split at hadopts
    · cases hadopts
    · exact hadopts
  | pass | spawnRefused => exact ⟨rfl, hself, fun _ ↦ id, by simp, by simp⟩
  | own name call? effect _ rule =>
    have hname : name ≠ me := fun heq ↦ hne (heq ▸ Move.thread?_ofThread name call?)
    have hworker := (hreach.fits me).worker (by rw [h.session]; rfl)
    obtain ⟨hsession, hguards, hheld⟩ := h.of_other hreach hname
    have hsound := (hreach.fits name).sound
    have hasks : call? ≠ some .requestShutdown := by
      rintro rfl
      cases halive
    have hafter (point : Point) : effect.self.activity ≠ .busy .acquire point := by
      have := hfree name hname point
      rwa [World.thread_after_self] at this
    obtain ⟨hlock, hidle, hrefused⟩ := rule.of_other_unwaited hsound hsession hguards hheld
      (by rw [hworker]; rfl) hasks (h.free name hname) hafter (h.queued name)
    refine ⟨hlock, hself, fun other hadopts ↦ ?_, fun other hcalls ↦ ?_, fun span hslept ↦ ?_⟩
    · rw [World.thread_after] at hadopts
      split at hadopts
      · cases hidle.symm.trans hadopts
      · exact hadopts
    · cases call? with
      | none => cases hcalls
      | some call =>
        cases hcalls
        exact hrefused rfl
    · cases rule.origin hsound _ hslept with
      | slept _ call hbusy =>
        obtain ⟨_, session, hsome, _⟩ := hsound.place _ _ hbusy
        cases hsession.symm.trans hsome
  | spawn name child =>
    refine ⟨rfl, hself, fun other hadopts ↦ ?_, by simp, by simp⟩
    simp only [World.thread, Roster.get_set] at hadopts
    split at hadopts
    · subst other
      exact hadopts
    · split at hadopts
      · cases hadopts
      · exact hadopts

/-- A step of a yield that leaves all but the counters of the lock as they are. -/
theorem after_own {effect : Effect σ} {more : Nat}
    (hlock : effect.lock = { world.lock with stats := start.stats.countYields more })
    (hsession : effect.self.session = (world.thread me).session)
    (hactivity : effect.self.activity = .idle ∨ effect.self.activity = .busy .yieldNow .polling) :
    (world.after me effect).StaysCalm start me more := by
  have hself : (world.after me effect).thread me = effect.self := World.thread_after_self ..
  refine ⟨?_, ?_, ?_, fun name hname ↦ ?_, fun name hadopts ↦ ?_, ?_, ?_⟩
  · rw [World.lock_after, hlock, h.lock]
  · rw [hself, hsession, h.session]
  · rwa [hself]
  · rw [World.thread_after_of_ne world effect hname]
    exact h.free name hname
  · rw [World.lock_after, hlock]
    rw [World.thread_after] at hadopts
    split at hadopts
    · obtain hidle | hpolls := hactivity
      · rw [hidle] at hadopts
        cases hadopts
      · rw [hpolls] at hadopts
        cases hadopts
    · exact h.queued name hadopts
  · rw [World.lock_after, hlock]
    exact h.alive
  · rw [World.lock_after, hlock]
    exact h.unwaited

/-- A worker between two yields can make the next. -/
theorem exists_call? (hreach : Reachable build world)
    (hidle : (world.thread me).activity = .idle) :
    ∃ next, world.call? build me .yieldNow = some (next, []) := by
  have hinvoke := invoke?_yieldNow build world.clock me world.lock hidle h.session
  have hcall := World.move?_of_invoke? hreach (ne_default_of_session h.session) hinvoke rfl
  have hexit : world.lock.shouldExit me = false := by
    rw [Lock.shouldExit, h.alive]
    rfl
  rw [beginYield, hexit] at hcall
  exact ⟨_, hcall⟩

/-- A worker in a yield is answered by its next step. -/
theorem exists_step? (hpolls : (world.thread me).activity = .busy .yieldNow .polling) :
    ∃ next, world.step? build me = some (next, [.answered .yieldNow (.flow .proceed)]) := by
  have hstep : (world.thread me).step? build world.clock me world.lock =
      some (answer world.lock (world.thread me) .yieldNow (.flow .proceed) []) := by
    unfold ThreadState.step?
    rw [hpolls]
    change some (poll build me world.lock (world.thread me) .yieldNow) = _
    rw [poll, h.unwaited]
    rfl
  rw [World.step?_of_busy hpolls rfl, hstep]
  exact ⟨_, rfl⟩

end World.StaysCalm

/-- The yields of a thread that are under way. -/
def World.pending (world : World σ) (me : Thread) : Nat :=
  if (world.thread me).activity.isIdle then 0 else 1

/-- A turn keeps a lock calm, shows no more than that, and answers a yield if one was under way. -/
structure Turn.KeepsCalm (start : Lock σ) (me : Thread) (number : Nat) (turn : Turn σ) : Prop where
  after : turn.after.StaysCalm start me (number + if turn.isYieldOf me then 1 else 0)
  shows : turn.ShowsCalm me
  counts : turn.before.pending me + (if turn.isYieldOf me then 1 else 0) =
    turn.after.pending me + if turn.proceedsFor me then 1 else 0

variable {turn : Turn σ}

/-- The turn in which a yield is made. -/
theorem World.StaysCalm.keeps_of_call (h : turn.before.StaysCalm start me number)
    (hmove : turn.IsMove build) (hcalls : turn.move = .call me .yieldNow) :
    turn.KeepsCalm start me number := by
  have hyield : turn.isYieldOf me = true := by
    rw [Turn.isYieldOf, hcalls]
    exact beq_self_eq_true me
  obtain ⟨effect, rule, _, hafter, hevents⟩ :=
    World.exists_rule_of_call? rfl (hmove.call?_eq hcalls)
  obtain ⟨_, hidle, rfl⟩ | ⟨hnone, _⟩ :=
    rule.of_yield_unwaited h.session h.activity (.inl rfl) h.alive h.unwaited
  · have hsilent : turn.proceedsFor me = false := by
      rw [Turn.proceedsFor, hevents]
      exact Bool.and_false _
    refine ⟨?_, ⟨?_, ?_, ?_⟩, ?_⟩
    · rw [hyield, hafter]
      refine h.after_own ?_ rfl (.inr rfl)
      rw [if_pos rfl, Stats.countYields_succ, lock_goOn, h.lock]
    · rintro call reply ⟨_, hanswered⟩
      rw [hevents] at hanswered
      cases hanswered
    · intro name hname htries
      cases hcalls.symm.trans htries
    · rw [hevents]
      exact fun span ↦ List.not_mem_nil
    · rw [hyield, hsilent, hafter, World.pending, World.pending, hidle, World.thread_after_self]
      rfl
  · cases hnone

/-- The turn in which a yield is answered. -/
theorem World.StaysCalm.keeps_of_step (h : turn.before.StaysCalm start me number)
    (hmove : turn.IsMove build) (hsteps : turn.move = .step me) :
    turn.KeepsCalm start me number := by
  have hyield : turn.isYieldOf me = false := by
    rw [Turn.isYieldOf, hsteps]
  obtain ⟨effect, rule, hafter, hevents⟩ := World.exists_rule_of_step? (hmove.step?_eq hsteps)
  obtain ⟨hsome, _⟩ | ⟨_, hpolls, rfl⟩ :=
    rule.of_yield_unwaited h.session h.activity (.inr rfl) h.alive h.unwaited
  · cases hsome
  · have hproceeds : turn.proceedsFor me = true := by
      rw [Turn.proceedsFor, hevents, hsteps, Move.thread?, beq_self_eq_true]
      rfl
    refine ⟨?_, ⟨?_, ?_, ?_⟩, ?_⟩
    · rw [hyield, hafter]
      refine h.after_own ?_ rfl (.inl rfl)
      rw [lock_answer, h.lock]
      rfl
    · rintro call reply ⟨_, hanswered⟩
      rw [hevents] at hanswered
      cases List.mem_singleton.mp hanswered
      exact ⟨rfl, rfl⟩
    · intro name hname htries
      cases hsteps.symm.trans htries
    · rw [hevents]
      intro span hslept
      cases List.mem_singleton.mp hslept
    · rw [hyield, hproceeds, hafter, World.pending, World.pending, hpolls,
        World.thread_after_self]
      rfl

/-- If no thread but the worker is in an acquisition, no other is in one at all. -/
theorem World.ne_acquire_of_free (hworker : world.lock.worker = some me)
    (hfree : ∀ name, ¬world.IsAcquiring name) (name : Thread) (hname : name ≠ me) (point : Point) :
    (world.thread name).activity ≠ .busy .acquire point := by
  intro hbusy
  refine hfree name ⟨⟨point, hbusy⟩, ?_⟩
  rw [hworker]
  exact fun heq ↦ hname (Option.some_inj.mp heq).symm

/-- A turn of another thread. -/
theorem World.StaysCalm.keeps_of_others (h : turn.before.StaysCalm start me number)
    (hreach : Reachable build turn.before) (hmove : turn.IsMove build)
    (hcalm : turn.IsUncontended me) (hother : turn.move.thread? ≠ some me) :
    turn.KeepsCalm start me number := by
  have hworker := (hreach.fits me).worker (by rw [h.session]; rfl)
  have hlater : turn.after.lock.worker = some me :=
    (World.change_of_move? hmove).advances.worker me hworker
  have hfree := World.ne_acquire_of_free hlater hcalm.free
  obtain ⟨hlock, hself, hadopts, hrefuses, hawake⟩ :=
    h.of_others hreach (World.change_of_move? hmove) hother hcalm.alive hfree
  have hyield : turn.isYieldOf me = false := by
    unfold Turn.isYieldOf
    split
    · rename_i name hcalls
      exact beq_eq_false_iff_ne.mpr fun heq ↦ hother (hcalls ▸ congrArg some heq)
    · rfl
  have hsilent : turn.proceedsFor me = false := by
    rw [Turn.proceedsFor, beq_eq_false_iff_ne.mpr hother]
    rfl
  refine ⟨⟨?_, ?_, ?_, hfree, ?_, ?_, ?_⟩, ⟨?_, ?_, hawake⟩, ?_⟩
  · rw [hlock, hyield]
    exact h.lock
  · rw [hself]
    exact h.session
  · rw [hself]
    exact h.activity
  · rw [hlock]
    exact fun name hother ↦ h.queued name (hadopts name hother)
  · rw [hlock]
    exact h.alive
  · rw [hlock]
    exact h.unwaited
  · exact fun call reply hanswers ↦ absurd hanswers.1 hother
  · exact fun name _ ↦ hrefuses name
  · rw [hyield, hsilent, World.pending, World.pending, hself]

theorem World.StaysCalm.next_turn (h : turn.before.StaysCalm start me number)
    (hreach : Reachable build turn.before) (hmove : turn.IsMove build)
    (hcalm : turn.IsUncontended me) : turn.KeepsCalm start me number := by
  by_cases hmine : turn.move.thread? = some me
  · obtain hcalls | hsteps := hcalm.own hmine
    · exact h.keeps_of_call hmove hcalls
    · exact h.keeps_of_step hmove hsteps
  · exact h.keeps_of_others hreach hmove hcalm hmine

/-- The signal of the waiters is down as long as no thread but the worker is in an acquisition. -/
theorem Reachable.forall_not_isAcquiring_iff (h : Reachable build world) :
    (∀ name, ¬world.IsAcquiring name) ↔ world.lock.waiters.isSet = false := by
  have hcount := h.waiters_eq_encard
  rw [Waiters.isSet, decide_eq_false_iff_not, UInt64.lt_iff_toNat_lt]
  constructor
  · intro hfree
    have hempty : {name | world.IsAcquiring name} = ∅ := Set.eq_empty_of_forall_notMem hfree
    rw [hempty, Set.encard_empty, Nat.cast_eq_zero] at hcount
    rw [hcount]
    exact Nat.lt_irrefl 0
  · intro hunset name hname
    rw [Nat.eq_zero_of_not_pos hunset, Nat.cast_zero] at hcount
    exact Set.notMem_empty name (Set.encard_eq_zero.mp hcount.symm ▸ hname)

variable {turns : List (Turn σ)} {last : World σ}

/-- Along a run the worker has only yielded, and every yield but one that may be under way has been
answered. -/
theorem Run.staysCalm (run : Run build world turns last) (hreach : Reachable build world)
    (h : world.StaysCalm world.lock me 0) (hturns : ∀ turn ∈ turns, turn.IsUncontended me) :
    last.StaysCalm world.lock me (turns.countP (·.isYieldOf me)) ∧
      (∀ turn ∈ turns, turn.ShowsCalm me ∧ turn.after.lock.mutex = world.lock.mutex) ∧
      world.pending me + turns.countP (·.isYieldOf me) =
        last.pending me + turns.countP (·.proceedsFor me) := by
  induction run with
  | nil => exact ⟨h, List.forall_mem_nil _, rfl⟩
  | @snoc turns turn run hmove ih =>
    obtain ⟨hbefore, hshown, hcount⟩ :=
      ih fun other hmem ↦ hturns other (List.mem_append_left _ hmem)
    have hlast := hturns turn (List.mem_append_right _ (List.mem_singleton_self turn))
    obtain ⟨hafter, hshows, hmore⟩ := hbefore.next_turn (hreach.run run) hmove hlast
    rw [List.countP_append, List.countP_append, List.countP_singleton, List.countP_singleton,
      List.forall_mem_append, List.forall_mem_singleton]
    refine ⟨hafter, ⟨hshown, hshows, ?_⟩, by omega⟩
    rw [hafter.lock]

/-- Yields that nobody waits for are no-ops. From a world in which the session runs and holds its
level and the signal is up, let the worker only yield, while no other thread is in an acquisition
and nobody asks for shutdown; threads that wait to become the worker are in the queue. Then every
yield is answered, and goes on; the worker owns the lock all the time, at the same depth; attempts
of other threads to take it fail, and none gets it; nobody sleeps; and in the end the lock is as it
was at the start, its queue included, but for the number of yields. -/
theorem uncontended_yields_change_nothing (h : Reachable build world)
    (hidle : (world.thread me).activity = .idle)
    (hsession : (world.thread me).session = some { phase := .running, holds := true })
    (halive : world.lock.keepAlive.isSet = true) (hfree : ∀ name, ¬world.IsAcquiring name)
    (hqueued : ∀ name, (world.thread name).activity.awaitsAdoption = true →
      name ∈ world.lock.mutex.queue)
    (run : Run build world turns last) (hturns : ∀ turn ∈ turns, turn.IsUncontended me) :
    (∀ turn ∈ turns, turn.ShowsCalm me ∧
      turn.after.lock.mutex.depth me = world.lock.mutex.depth me ∧
      turn.after.lock.mutex.isHeldBy me = true ∧
      ∀ name, name ≠ me → turn.after.lock.mutex.isHeldBy name = false) ∧
    ((last.thread me).activity = .idle ∧
        turns.countP (·.isYieldOf me) = turns.countP (·.proceedsFor me) ∧
        (∃ next, last.call? build me .yieldNow = some (next, [])) ∨
      (last.thread me).activity = .busy .yieldNow .polling ∧
        turns.countP (·.isYieldOf me) = turns.countP (·.proceedsFor me) + 1 ∧
        ∃ next, last.step? build me = some (next, [.answered .yieldNow (.flow .proceed)])) ∧
    last.lock =
      { world.lock with
        stats := world.lock.stats.countYields (turns.countP (·.isYieldOf me)) } := by
  have hworker := (h.fits me).worker (by rw [hsession]; rfl)
  have hunwaited := h.forall_not_isAcquiring_iff.mp hfree
  have hstart : world.StaysCalm world.lock me 0 := by
    refine ⟨?_, hsession, .inl hidle, World.ne_acquire_of_free hworker hfree, hqueued, halive,
      hunwaited⟩
    rw [Stats.countYields_zero]
  obtain ⟨hlast, hshown, hcount⟩ := run.staysCalm h hstart hturns
  have hpending : world.pending me = 0 := by
    rw [World.pending, hidle]
    rfl
  rw [hpending, Nat.zero_add] at hcount
  refine ⟨?_, ?_, hlast.lock⟩
  · intro turn hmem
    obtain ⟨hshows, hmutex⟩ := hshown turn hmem
    have howner := hstart.isHeldBy h
    rw [hmutex]
    refine ⟨hshows, rfl, howner, fun name hname ↦ ?_⟩
    have hother := Mutex.canTake_of_owner howner hname
    rw [Mutex.canTake, Bool.or_eq_false_iff] at hother
    exact hother.2
  · have hafter := h.run run
    obtain hrests | hpolls := hlast.activity
    · refine .inl ⟨hrests, ?_, hlast.exists_call? hafter hrests⟩
      rw [hcount, World.pending, hrests]
      exact Nat.zero_add _
    · refine .inr ⟨hpolls, ?_, hlast.exists_step? hpolls⟩
      rw [hcount, World.pending, hpolls]
      exact Nat.add_comm _ _

set_option synthInstance.maxSize 512 in
/-- While a thread is blocked at the lock because it wants to become the worker, two yields change
nothing but their number, and an attempt of a third thread to take the lock in between fails. -/
theorem two_yields_before_blocked_adoption :
    ∃ (world last : World Unit) (turns : List (Turn Unit)), Run .checked world turns last ∧
      "late" ∈ world.lock.mutex.queue ∧
      last.lock = { world.lock with stats := world.lock.stats.countYields 2 } ∧
      ∃ turn ∈ turns, turn.move = .call "other" .tryAcquire ∧
        turn.events = [.answered .tryAcquire .refused] := by
  let start : World Unit := { lock := .standard .checked () }
  let setup : List (Move Unit) :=
    [.call "worker" .adopt, .call "late" .adopt, .step "worker", .step "late"]
  let moves : List (Move Unit) :=
    [.call "worker" .yieldNow, .call "other" .tryAcquire, .step "worker", .call "other" .adopt,
      .call "worker" .yieldNow, .step "worker"]
  have hplay : ∃ ready ∈ start.play? .checked setup,
      (ready.2.thread "worker").activity = .idle ∧
      (ready.2.thread "worker").session = some { phase := .running, holds := true } ∧
      ready.2.lock.keepAlive.isSet = true ∧ ready.2.lock.waiters.isSet = false ∧
      (∀ name ∈ ready.2.threads.threads, (ready.2.thread name).activity.awaitsAdoption = true →
        name ∈ ready.2.lock.mutex.queue) ∧
      "late" ∈ ready.2.lock.mutex.queue ∧
      ∃ later ∈ ready.2.play? .checked moves,
        (∀ turn ∈ later.1,
          (turn.move.thread? = some "worker" →
            turn.move = .call "worker" .yieldNow ∨ turn.move = .step "worker") ∧
          turn.move.isRequest = false ∧ turn.after.lock.waiters.isSet = false) ∧
        later.1.countP (·.isYieldOf "worker") = 2 ∧
        ∃ turn ∈ later.1, turn.move = .call "other" .tryAcquire := by
    decide +kernel
  obtain ⟨⟨_, world⟩, hready, hidle, hsession, halive, hunset, hqueued, hlate, ⟨turns, last⟩,
    hlater, hturns, htwice, turn, hmem, htries⟩ := hplay
  have hreach : Reachable .checked world :=
    (run_of_play? hready).reachable ⟨.standard .checked (), rfl⟩
  have run : Run .checked world turns last := run_of_play? hlater
  have hadopts (name : Thread) (hname : (world.thread name).activity.awaitsAdoption = true) :
      name ∈ world.lock.mutex.queue := by
    by_cases hknown : name ∈ world.threads.threads
    · exact hqueued name hknown hname
    · have hdefault : world.thread name = {} :=
        Roster.get_of_not_contains (Roster.contains_eq_false_of_not_mem hknown)
      rw [hdefault] at hname
      cases hname
  have hcalm : ∀ turn ∈ turns, turn.IsUncontended "worker" := by
    intro other hother
    obtain ⟨hown, hrequest, hwaiters⟩ := hturns other hother
    obtain ⟨hbefore, hmove⟩ := run.isMove_of_mem hreach hother
    have hafter : Reachable .checked other.after := hbefore.move hmove
    exact ⟨hown, hrequest, hafter.forall_not_isAcquiring_iff.mpr hwaiters⟩
  obtain ⟨hshows, _, hlock⟩ := uncontended_yields_change_nothing hreach hidle hsession halive
    (hreach.forall_not_isAcquiring_iff.mpr hunset) hadopts run hcalm
  rw [htwice] at hlock
  exact ⟨world, last, turns, run, hlate, hlock, turn, hmem, htries,
    (hshows turn hmem).1.refuses "other" (by decide) htries⟩

end

end YieldLock
