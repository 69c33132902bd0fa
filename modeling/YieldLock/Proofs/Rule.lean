import YieldLock.Thread.Step

/-!
# The rules of a thread's steps

Every step of a thread follows one of the rules below. A rule names the guard
under which the step is made, the lock and the thread after it, and what it
shows. Rules of a first step carry the call that was made. Main statements:
`rule_of_invoke?` and `rule_of_step?`, by which later modules argue by cases on
the rules and not on the definition of a step.
-/

namespace YieldLock

namespace Call

variable {σ : Type}

/-- Calls that drop the session and leave its thread alive. -/
def IsDrop (call : Call σ) : Prop := call = .dropSession ∨ ∃ panic, call = .unwindSession panic

end Call

namespace Point

/-- The points at which a thread needs the lock to go on. -/
def wantsLock : Point → Bool
  | waiting _ | reentering | adopting | retaking | closing => true
  | _ => false

end Point

namespace Activity

variable {σ : Type}

/-- The thread is inside a call and needs the lock to go on. -/
def wantsLock : Activity σ → Bool
  | busy _ point => point.wantsLock
  | _ => false

theorem exists_of_wantsLock {activity : Activity σ} (h : activity.wantsLock = true) :
    ∃ call point, activity = .busy call point ∧ point.wantsLock = true := by
  cases activity with
  | busy call point => exact ⟨call, point, rfl, h⟩
  | idle | finished => cases h

end Activity

namespace ThreadState

variable {σ : Type}

/-- The thread has the hold through which it is to reach the value. -/
def Reaches (self : ThreadState σ) : Access → Prop
  | .guard => 0 < self.guards
  | .session => ∃ session, self.session = some session ∧ session.holds = true

inductive Rule (build : Build) (now : Nat) (me : Thread) (lock : Lock σ) (self : ThreadState σ) :
    Option (Call σ) → Effect σ → Prop where
  | reenter (hidle : self.activity = .idle) (hworker : lock.isWorker me = true) :
      Rule build now me lock self (some .acquire)
        (goOn lock self .acquire .reentering
          (if lock.config.warnOnWorkerAcquire then [.logged .workerReenters] else []))
  | enter (hidle : self.activity = .idle) (hworker : lock.isWorker me = false) :
      Rule build now me lock self (some .acquire)
        (goOn { lock with waiters := lock.waiters.enter } self .acquire (.waiting ⟨now⟩) [])
  | tryTake (hidle : self.activity = .idle) (hfree : lock.mutex.canTake me = true) :
      Rule build now me lock self (some .tryAcquire)
        (answer { lock with mutex := lock.mutex.take me } { self with guards := self.guards + 1 }
          .tryAcquire .acquired [])
  | tryRefused (hidle : self.activity = .idle) (hheld : lock.mutex.canTake me = false) :
      Rule build now me lock self (some .tryAcquire) (answer lock self .tryAcquire .refused [])
  | release (hidle : self.activity = .idle) (hguard : 0 < self.guards) :
      Rule build now me lock self (some .release)
        (answer { lock with mutex := lock.mutex.giveBack me }
          { self with guards := self.guards - 1 } .release .released [])
  | read (hidle : self.activity = .idle) {access : Access} (hreach : self.Reaches access) :
      Rule build now me lock self (some (.read access))
        (answer lock self (.read access) (.value lock.value) [])
  | write (hidle : self.activity = .idle) {access : Access} {value : σ}
      (hreach : self.Reaches access) :
      Rule build now me lock self (some (.write access value))
        (answer { lock with value } self (.write access value) (.value lock.value) [])
  | outOfReach (hidle : self.activity = .idle) {call : Call σ} {session : Session}
      (hcall : call = .read .session ∨ ∃ value, call = .write .session value)
      (hsession : self.session = some session) (hholds : session.holds = false) :
      Rule build now me lock self (some call)
        (answer lock self call (.panicked (.notHolding session.phase)) [])
  | request (hidle : self.activity = .idle) :
      Rule build now me lock self (some .requestShutdown)
        (answer (lock.requestShutdown me).2.2 self .requestShutdown
          (.requested (lock.requestShutdown me).1) ((lock.requestShutdown me).2.1.map .logged))
  | adoptLate (hidle : self.activity = .idle) (hworker : lock.worker.isSome = true) :
      Rule build now me lock self (some .adopt)
        (answer lock self .adopt (.panicked .alreadyAdopted) [])
  | adopt (hidle : self.activity = .idle) (hworker : lock.worker = none) :
      Rule build now me lock self (some .adopt) (goOn lock self .adopt .adopting [])
  | yieldAfterExit (hidle : self.activity = .idle) {session : Session}
      (hsession : self.session = some session) (hphase : session.phase = .terminated) :
      Rule build now me lock self (some .yieldNow)
        (answer lock self .yieldNow (.flow .exit) [.logged .keptRunning])
  | yieldInWindow (hidle : self.activity = .idle) {session : Session}
      (hsession : self.session = some session) (hphase : session.phase = .yielding) :
      Rule build now me lock self (some .yieldNow)
        (answer lock self .yieldNow
          (if build.isChecked then .panicked .yieldInWindow else .flow .proceed) [])
  | yieldToExit (hidle : self.activity = .idle) {session : Session}
      (hsession : self.session = some session) (hphase : session.phase = .running)
      (hexit : lock.shouldExit me = true) :
      Rule build now me lock self (some .yieldNow)
        (goOn { lock with stats := lock.stats.countYield } self .yieldNow .lowering [])
  | yieldToPoll (hidle : self.activity = .idle) {session : Session}
      (hsession : self.session = some session) (hphase : session.phase = .running)
      (hexit : lock.shouldExit me = false) :
      Rule build now me lock self (some .yieldNow)
        (goOn { lock with stats := lock.stats.countYield } self .yieldNow .polling [])
  | openAfterExit (hidle : self.activity = .idle) {session : Session}
      (hsession : self.session = some session) (hphase : session.phase = .terminated) :
      Rule build now me lock self (some .openWindow)
        (answer lock self .openWindow .opened [.logged .windowAfterExit])
  | openTwice (hidle : self.activity = .idle) {session : Session}
      (hsession : self.session = some session) (hphase : session.phase = .yielding) :
      Rule build now me lock self (some .openWindow)
        (answer lock self .openWindow
          (if build.isChecked then .panicked .windowOpenTwice else .opened) [])
  | openNested (hidle : self.activity = .idle) {session : Session}
      (hsession : self.session = some session) (hphase : session.phase = .running)
      (hchecked : build = .checked)
      (hheld : (lock.mutex.giveBackIf me session.holds).isHeldBy me = true) :
      Rule build now me lock self (some .openWindow)
        (answer { lock with mutex := lock.mutex.giveBackIf me session.holds }
          { self with session := some { phase := .running, holds := false } } .openWindow
          (.panicked .nestedWindow) [])
  | openWindow (hidle : self.activity = .idle) {session : Session}
      (hsession : self.session = some session) (hphase : session.phase = .running)
      (hfree : build = .checked → (lock.mutex.giveBackIf me session.holds).isHeldBy me = false) :
      Rule build now me lock self (some .openWindow)
        (answer { lock with mutex := lock.mutex.giveBackIf me session.holds }
          { self with session := some { phase := .yielding, holds := false } } .openWindow
          .opened [])
  | closeAfterExit (hidle : self.activity = .idle) {session : Session}
      (hsession : self.session = some session) (hphase : session.phase = .terminated) :
      Rule build now me lock self (some .closeWindow)
        (answer lock self .closeWindow (.flow .exit) [.logged .keptRunning])
  | closeBegin (hidle : self.activity = .idle) {session : Session}
      (hsession : self.session = some session) (hphase : session.phase = .yielding) :
      Rule build now me lock self (some .closeWindow) (goOn lock self .closeWindow .closing [])
  | closeUnopened (hidle : self.activity = .idle) {session : Session}
      (hsession : self.session = some session) (hphase : session.phase = .running)
      (hchecked : build = .checked) :
      Rule build now me lock self (some .closeWindow)
        (answer lock self .closeWindow (.panicked .windowNotOpen) [])
  | closeRunning (hidle : self.activity = .idle) {session : Session}
      (hsession : self.session = some session) (hphase : session.phase = .running)
      (hunchecked : build = .unchecked) :
      Rule build now me lock self (some .closeWindow) (check me lock self .closeWindow [])
  | endAfterExit (hidle : self.activity = .idle) {session : Session}
      (hsession : self.session = some session) (hphase : session.phase = .terminated) :
      Rule build now me lock self (some .endSession)
        (answer lock self .endSession (.flow .exit) [])
  | endBegin (hidle : self.activity = .idle) {session : Session}
      (hsession : self.session = some session) (hphase : session.phase ≠ .terminated) :
      Rule build now me lock self (some .endSession)
        (goOn { lock with keepAlive := lock.keepAlive.clear } self .endSession .lowering
          (if lock.keepAlive.isSet then [.logged .workerInitiates] else []))
  | dropBegin (hidle : self.activity = .idle) {call : Call σ} {session : Session}
      (hcall : call.IsDrop) (hspawned : self.isSpawned = false)
      (hsession : self.session = some session) (hphase : session.phase ≠ .terminated) :
      Rule build now me lock self (some call) (goOn lock self call .lowering [])
  | dropEnded (hidle : self.activity = .idle) {call : Call σ} {session : Session}
      (hcall : call.IsDrop) (hspawned : self.isSpawned = false)
      (hsession : self.session = some session) (hphase : session.phase = .terminated) :
      Rule build now me lock self (some call) (conclude lock self call)
  | finishBegin (hidle : self.activity = .idle) {outcome : Option Panic} {session : Session}
      (hspawned : self.isSpawned = true)
      (hsession : self.session = some session) (hphase : session.phase ≠ .terminated) :
      Rule build now me lock self (some (.finish outcome))
        (goOn { lock with mutex := lock.mutex.giveBackMany me self.guards }
          { self with guards := 0 } (.finish outcome) .lowering [])
  | finishEnded (hidle : self.activity = .idle) {outcome : Option Panic}
      (hspawned : self.isSpawned = true)
      (hsession : ∀ session, self.session = some session → session.phase = .terminated) :
      Rule build now me lock self (some (.finish outcome))
        (conclude { lock with mutex := lock.mutex.giveBackMany me self.guards }
          { self with guards := 0 } (.finish outcome))
  | joinBegin (hidle : self.activity = .idle) {child : Thread} (hchild : child ∈ self.handles) :
      Rule build now me lock self (some (.join child))
        (goOn lock { self with handles := self.handles.erase child } (.join child)
          (.joining child) [])
  | park {call : Call σ} {point : Point} (hbusy : self.activity = .busy call point)
      (hwants : point.wantsLock = true) (hheld : lock.mutex.canTake me = false)
      (hqueue : me ∉ lock.mutex.queue) :
      Rule build now me lock self none ⟨{ lock with mutex := lock.mutex.wait me }, self, []⟩
  | obtain {call : Call σ} {watch : Stopwatch} (hbusy : self.activity = .busy call (.waiting watch))
      (hfree : lock.mutex.canTake me = true)
      (hmatched : build = .checked → lock.waiters.isMatched = true) :
      Rule build now me lock self none
        (answer
          { lock with
            mutex := lock.mutex.take me
            waiters := lock.waiters.leave
            stats := lock.stats.countAcquisition (watch.elapsedMicros now) }
          { self with guards := self.guards + 1 } call .acquired [])
  | obtainUnmatched {call : Call σ} {watch : Stopwatch}
      (hbusy : self.activity = .busy call (.waiting watch))
      (hfree : lock.mutex.canTake me = true) (hchecked : build = .checked)
      (hmatched : lock.waiters.isMatched = false) :
      Rule build now me lock self none
        (fail
          { lock with
            mutex := (lock.mutex.take me).giveBack me
            waiters := lock.waiters.leave }
          self call .unmatchedLeave [])
  | reentered {call : Call σ} (hbusy : self.activity = .busy call .reentering)
      (hfree : lock.mutex.canTake me = true) :
      Rule build now me lock self none
        (answer { lock with mutex := lock.mutex.take me } { self with guards := self.guards + 1 }
          call .acquired [])
  | startLate {call : Call σ} (hbusy : self.activity = .busy call .starting)
      (hworker : lock.worker.isSome = true) :
      Rule build now me lock self none (fail lock self call .alreadyAdopted [])
  | start {call : Call σ} (hbusy : self.activity = .busy call .starting)
      (hworker : lock.worker = none) :
      Rule build now me lock self none (goOn lock self call .adopting [])
  | adoptLost {call : Call σ} (hbusy : self.activity = .busy call .adopting)
      (hfree : lock.mutex.canTake me = true) (hworker : lock.worker.isSome = true) :
      Rule build now me lock self none
        (fail { lock with mutex := (lock.mutex.take me).giveBack me } self call .alreadyAdopted [])
  | adoptWon {call : Call σ} (hbusy : self.activity = .busy call .adopting)
      (hfree : lock.mutex.canTake me = true) (hworker : lock.worker = none) :
      Rule build now me lock self none
        (answer { lock with mutex := lock.mutex.take me, worker := some me }
          { self with session := some {} } call
          (adoptedAnswer call) [.logged (.adopted self.title)])
  | pollNone {call : Call σ} (hbusy : self.activity = .busy call .polling)
      (hwaiters : lock.waiters.isSet = false) :
      Rule build now me lock self none (answer lock self call (.flow .proceed) [])
  | pollNested {call : Call σ} {session : Session} (hbusy : self.activity = .busy call .polling)
      (hwaiters : lock.waiters.isSet = true) (hsession : self.session = some session)
      (hholds : session.holds = true) (hchecked : build = .checked)
      (hheld : (lock.mutex.giveBack me).isHeldBy me = true) :
      Rule build now me lock self none
        (answer
          { lock with
            mutex := (lock.mutex.giveBack me).take me
            stats := lock.stats.countHandoff }
          self call (.panicked .nestedYield) [])
  | pollSleep {call : Call σ} {session : Session} (hbusy : self.activity = .busy call .polling)
      (hwaiters : lock.waiters.isSet = true) (hsession : self.session = some session)
      (hholds : session.holds = true)
      (hfree : build = .checked → (lock.mutex.giveBack me).isHeldBy me = false) :
      Rule build now me lock self none
        (goOn { lock with mutex := lock.mutex.giveBack me, stats := lock.stats.countHandoff } self
          call .sleeping [.slept lock.config.yieldSleep])
  | pollFree {call : Call σ} (hbusy : self.activity = .busy call .polling)
      (hwaiters : lock.waiters.isSet = true)
      (hsession : ∀ session, self.session = some session → session.holds = false) :
      Rule build now me lock self none
        (goOn { lock with stats := lock.stats.countHandoff } self call .rechecking
          [.logged .handedOver])
  | wake {call : Call σ} (hbusy : self.activity = .busy call .sleeping) :
      Rule build now me lock self none (goOn lock self call .retaking [])
  | retake {call : Call σ} (hbusy : self.activity = .busy call .retaking)
      (hfree : lock.mutex.canTake me = true) :
      Rule build now me lock self none
        (check me { lock with mutex := lock.mutex.take me } self call [.logged .handedOver])
  | recheck {call : Call σ} (hbusy : self.activity = .busy call .rechecking) :
      Rule build now me lock self none (check me lock self call [])
  | close {call : Call σ} (hbusy : self.activity = .busy call .closing)
      (hfree : lock.mutex.canTake me = true) :
      Rule build now me lock self none
        (check me
          { lock with mutex := lock.mutex.take me, stats := lock.stats.countWindow }
          { self with session := some { phase := .running, holds := true } } call [])
  | giveUpNested {call : Call σ} {session : Session} (hbusy : self.activity = .busy call .lowering)
      (hsession : self.session = some session) (hchecked : build = .checked)
      (hcall : call.isUnwinding = false)
      (hheld : (lock.mutex.giveBackIf me session.holds).isHeldBy me = true) :
      Rule build now me lock self none
        (fail
          { lock with
            keepAlive := lock.keepAlive.clear
            mutex := lock.mutex.giveBackIf me session.holds }
          { self with session := some { session with holds := false } } call .nestedExit [])
  | giveUp {call : Call σ} {session : Session} (hbusy : self.activity = .busy call .lowering)
      (hsession : self.session = some session)
      (hfree : build = .checked → call.isUnwinding = false →
        (lock.mutex.giveBackIf me session.holds).isHeldBy me = false) :
      Rule build now me lock self none
        (goOn
          { lock with
            keepAlive := lock.keepAlive.clear
            mutex := lock.mutex.giveBackIf me session.holds }
          { self with session := some { phase := .terminated, holds := false } } call .disposing
          [.logged .exiting])
  | dispose {call : Call σ} {teardown : Teardown} (hbusy : self.activity = .busy call .disposing)
      (hteardown : lock.teardown = some teardown) :
      Rule build now me lock self none
        (goOn { lock with teardown := none } self call (.tearingDown teardown) [])
  | disposeNone {call : Call σ} (hbusy : self.activity = .busy call .disposing)
      (hteardown : lock.teardown = none) :
      Rule build now me lock self none (goOn { lock with teardown := none } self call .marking [])
  | tearDown {call : Call σ} {teardown : Teardown}
      (hbusy : self.activity = .busy call (.tearingDown teardown))
      (hpanic : (teardown.run me lock).2.1 = none) :
      Rule build now me lock self none
        { goOn { lock with keepAlive := (teardown.run me lock).2.2 } self call .marking
            (teardown.run me lock).1 with
          events := .tornDown teardown :: (teardown.run me lock).1.map .entry }
  | tearDownFailed {call : Call σ} {teardown : Teardown} {panic : Panic}
      (hbusy : self.activity = .busy call (.tearingDown teardown))
      (hpanic : (teardown.run me lock).2.1 = some panic) (hcall : call.isUnwinding = false) :
      Rule build now me lock self none
        { fail { lock with keepAlive := (teardown.run me lock).2.2 } self call panic
            (teardown.run me lock).1 with
          events := .tornDown teardown ::
            (fail { lock with keepAlive := (teardown.run me lock).2.2 } self call panic
              (teardown.run me lock).1).events }
  /-- The end of the other thread, and with it the error, is not part of this rule. -/
  | joined {call : Call σ} {child : Thread} {error : Option LockError}
      (hbusy : self.activity = .busy call (.joining child)) :
      Rule build now me lock self none (answer lock self (.join child) (.joined error) [])
  | mark {call : Call σ} (hbusy : self.activity = .busy call .marking) :
      Rule build now me lock self none
        (conclude { lock with terminated := lock.terminated.set } self call)

section

variable {build : Build} {now : Nat} {me : Thread} {lock : Lock σ} {self : ThreadState σ}
  {effect : Effect σ}

theorem rule_beginYield {session : Session} (hidle : self.activity = .idle)
    (hsession : self.session = some session) :
    Rule build now me lock self (some .yieldNow) (beginYield build me lock self session) := by
  unfold beginYield
  split
  · exact .yieldAfterExit hidle hsession ‹_›
  · have h : Rule build now me lock self (some .yieldNow) _ :=
      .yieldInWindow hidle hsession ‹_›
    cases build <;> exact h
  · split
    · exact .yieldToExit hidle hsession ‹_› ‹_›
    · exact .yieldToPoll hidle hsession ‹_› (Bool.not_eq_true _ ▸ ‹_›)

theorem rule_openWindow {session : Session} (hidle : self.activity = .idle)
    (hsession : self.session = some session) :
    Rule build now me lock self (some .openWindow)
      (ThreadState.openWindow build me lock self session) := by
  unfold ThreadState.openWindow
  split
  · exact .openAfterExit hidle hsession ‹_›
  · have h : Rule build now me lock self (some .openWindow) _ :=
      .openTwice hidle hsession ‹_›
    cases build <;> exact h
  · rename_i hphase
    simp only
    split
    · rename_i hnested
      rw [Bool.and_eq_true, Build.isChecked_eq_true] at hnested
      have h : Rule build now me lock self (some .openWindow) _ :=
        .openNested hidle hsession hphase hnested.1 hnested.2
      rw [hphase]
      exact h
    · rename_i hfree
      apply Rule.openWindow hidle hsession hphase
      intro hchecked
      simpa [hchecked, Build.isChecked] using hfree

theorem rule_beginClose {session : Session} (hidle : self.activity = .idle)
    (hsession : self.session = some session) :
    Rule build now me lock self (some .closeWindow) (beginClose build me lock self session) := by
  unfold beginClose
  split
  · exact .closeAfterExit hidle hsession ‹_›
  · exact .closeBegin hidle hsession ‹_›
  · cases build with
    | checked => exact .closeUnopened hidle hsession ‹_› rfl
    | unchecked => exact .closeRunning hidle hsession ‹_› rfl

theorem rule_beginEnd {session : Session} (hidle : self.activity = .idle)
    (hsession : self.session = some session) :
    Rule build now me lock self (some .endSession) (beginEnd lock self session) := by
  unfold beginEnd
  split
  · exact .endAfterExit hidle hsession ‹_›
  · exact .endBegin hidle hsession ‹_›

theorem leave_of_live (lock : Lock σ) (call : Call σ) {session : Session}
    (hsession : self.session = some session) (hphase : session.phase ≠ .terminated) :
    leave lock self call = goOn lock self call .lowering [] := by
  obtain ⟨phase, holds⟩ := session
  unfold leave
  cases phase <;> simp_all

theorem leave_of_ended (lock : Lock σ) (self : ThreadState σ) (call : Call σ)
    (hsession : ∀ session, self.session = some session → session.phase = .terminated) :
    leave lock self call = conclude lock self call := by
  unfold leave
  split <;> simp_all

theorem rule_drop {call : Call σ} (hcall : call.IsDrop) (hidle : self.activity = .idle)
    (hspawned : self.isSpawned = false) (hsession : self.session.isSome = true) :
    Rule build now me lock self (some call) (leave lock self call) := by
  obtain ⟨session, hsession⟩ := Option.isSome_iff_exists.mp hsession
  by_cases hphase : session.phase = .terminated
  · have hended : ∀ other, self.session = some other → other.phase = .terminated := by
      intro other hother
      rw [hsession, Option.some_inj] at hother
      rw [← hother, hphase]
    rw [leave_of_ended lock self call hended]
    exact .dropEnded hidle hcall hspawned hsession hphase
  · rw [leave_of_live lock call hsession hphase]
    exact .dropBegin hidle hcall hspawned hsession hphase

theorem rule_finish {outcome : Option Panic} (hidle : self.activity = .idle)
    (hspawned : self.isSpawned = true) :
    Rule build now me lock self (some (.finish outcome))
      (leave { lock with mutex := lock.mutex.giveBackMany me self.guards }
        { self with guards := 0 } (.finish outcome)) := by
  by_cases hended : ∀ session, self.session = some session → session.phase = .terminated
  · rw [leave_of_ended _ { self with guards := 0 } _ hended]
    exact .finishEnded hidle hspawned hended
  · simp only [Classical.not_forall] at hended
    obtain ⟨session, hsession, hphase⟩ := hended
    have h := leave_of_live { lock with mutex := lock.mutex.giveBackMany me self.guards }
      (.finish outcome) (show { self with guards := 0 }.session = _ from hsession) hphase
    rw [h]
    exact .finishBegin hidle hspawned hsession hphase

theorem rule_reach {call : Call σ} {access : Access} {after : Lock σ}
    (hidle : self.activity = .idle)
    (hcall : call = .read access ∧ after = lock ∨
      ∃ value, call = .write access value ∧ after = { lock with value })
    (hguard : access = .guard → 0 < self.guards)
    (hsession : access = .session → self.session.isSome = true) :
    Rule build now me lock self (some call) (reach lock self call access after) := by
  by_cases hreach : self.Reaches access
  · have hvalue : reach lock self call access after =
        answer after self call (.value lock.value) [] := by
      unfold reach
      split
      · rename_i phase hsome
        obtain ⟨session, hsession, hholds⟩ := hreach
        simp_all
      · rfl
    rw [hvalue]
    obtain ⟨rfl, rfl⟩ | ⟨value, rfl, rfl⟩ := hcall
    · exact .read hidle hreach
    · exact .write hidle hreach
  · cases access with
    | guard => exact absurd (hguard rfl) hreach
    | session =>
      obtain ⟨⟨phase, holds⟩, hsome⟩ := Option.isSome_iff_exists.mp (hsession rfl)
      have hholds : holds = false := by
        cases holds with
        | false => rfl
        | true => exact absurd ⟨_, hsome, rfl⟩ hreach
      subst hholds
      unfold reach
      rw [hsome]
      exact .outOfReach hidle (by grind) hsome rfl

/-- The first step of a call follows a rule that carries the call. -/
theorem rule_of_invoke? {call : Call σ}
    (h : self.invoke? build now me lock call = some effect) :
    Rule build now me lock self (some call) effect := by
  unfold invoke? at h
  split at h
  · cases h
  rename_i hpermits
  simp only [permits, Bool.not_eq_true', Bool.not_eq_false] at hpermits
  rw [Bool.and_eq_true] at hpermits
  obtain ⟨hidle, hpermits⟩ := hpermits
  replace hidle : self.activity = .idle := by
    cases hactivity : self.activity <;> simp_all [Activity.isIdle]
  cases call with
  | acquire =>
    simp only at h
    split at h <;> cases h
    · exact .reenter hidle ‹_›
    · exact .enter hidle (Bool.not_eq_true _ ▸ ‹_›)
  | tryAcquire =>
    simp only at h
    split at h <;> cases h
    · exact .tryTake hidle ‹_›
    · exact .tryRefused hidle (Bool.not_eq_true _ ▸ ‹_›)
  | release =>
    cases h
    exact .release hidle (by simpa using hpermits)
  | read access =>
    cases h
    exact rule_reach hidle (.inl ⟨rfl, rfl⟩) (by rintro rfl; simpa using hpermits)
      (by rintro rfl; exact hpermits)
  | write access value =>
    cases h
    exact rule_reach hidle (.inr ⟨value, rfl, rfl⟩) (by rintro rfl; simpa using hpermits)
      (by rintro rfl; exact hpermits)
  | requestShutdown =>
    cases h
    exact .request hidle
  | adopt =>
    simp only at h
    split at h <;> rename_i hworker <;> cases h
    · exact .adoptLate hidle hworker
    · exact .adopt hidle (by simpa using hworker)
  | yieldNow =>
    obtain ⟨session, hsession, rfl⟩ := Option.map_eq_some_iff.mp h
    exact rule_beginYield hidle hsession
  | openWindow =>
    obtain ⟨session, hsession, rfl⟩ := Option.map_eq_some_iff.mp h
    exact rule_openWindow hidle hsession
  | closeWindow =>
    obtain ⟨session, hsession, rfl⟩ := Option.map_eq_some_iff.mp h
    exact rule_beginClose hidle hsession
  | endSession =>
    obtain ⟨session, hsession, rfl⟩ := Option.map_eq_some_iff.mp h
    exact rule_beginEnd hidle hsession
  | dropSession =>
    cases h
    exact rule_drop (.inl rfl) hidle (by simp_all) (by simp_all)
  | unwindSession panic =>
    cases h
    exact rule_drop (.inr ⟨panic, rfl⟩) hidle (by simp_all) (by simp_all)
  | join child =>
    cases h
    exact .joinBegin hidle (by simpa using hpermits)
  | finish outcome =>
    cases h
    exact rule_finish hidle hpermits
  | spawn child => cases h
  | start => cases h

theorem rule_of_withLock? {call : Call σ} {point : Point} {next : Lock σ → Effect σ}
    (hbusy : self.activity = .busy call point) (hwants : point.wantsLock = true)
    (h : withLock? me lock self next = some effect)
    (hnext : lock.mutex.canTake me = true →
      Rule build now me lock self none (next { lock with mutex := lock.mutex.take me })) :
    Rule build now me lock self none effect := by
  unfold withLock? park? at h
  split at h
  · cases h
    exact hnext ‹_›
  · rename_i hheld
    split at h <;> rename_i hqueue <;> cases h
    exact .park hbusy hwants (Bool.not_eq_true _ ▸ hheld)
      (by simpa [Mutex.isWaiting] using hqueue)

theorem rule_obtain {call : Call σ} {watch : Stopwatch}
    (hbusy : self.activity = .busy call (.waiting watch)) (hfree : lock.mutex.canTake me = true) :
    Rule build now me lock self none
      (ThreadState.obtain build now watch me self call
        { lock with mutex := lock.mutex.take me }) := by
  unfold ThreadState.obtain
  simp only
  split
  · rename_i hunmatched
    rw [Bool.and_eq_true, Build.isChecked_eq_true, Bool.not_eq_true'] at hunmatched
    exact .obtainUnmatched hbusy hfree hunmatched.1 hunmatched.2
  · rename_i hmatched
    apply Rule.obtain hbusy hfree
    intro hchecked
    simpa [hchecked, Build.isChecked] using hmatched

theorem rule_claim {call : Call σ} (hbusy : self.activity = .busy call .adopting)
    (hfree : lock.mutex.canTake me = true) :
    Rule build now me lock self none
      (claim me self call { lock with mutex := lock.mutex.take me }) := by
  unfold claim
  split
  · exact .adoptLost hbusy hfree ‹_›
  · rename_i hworker
    exact .adoptWon hbusy hfree (by simpa using hworker)

theorem rule_poll {call : Call σ} (hbusy : self.activity = .busy call .polling) :
    Rule build now me lock self none (poll build me lock self call) := by
  unfold poll
  split
  · exact .pollNone hbusy (by simpa using ‹(!_) = true›)
  · rename_i hwaiters
    replace hwaiters : lock.waiters.isSet = true := by simpa using hwaiters
    split
    · rename_i phase hsession
      simp only
      split
      · rename_i hnested
        rw [Bool.and_eq_true, Build.isChecked_eq_true] at hnested
        exact .pollNested hbusy hwaiters hsession rfl hnested.1 hnested.2
      · rename_i hfree
        apply Rule.pollSleep hbusy hwaiters hsession rfl
        intro hchecked
        simpa [hchecked, Build.isChecked] using hfree
    · rename_i hsession
      apply Rule.pollFree hbusy hwaiters
      intro session hsome
      obtain ⟨phase, holds⟩ := session
      cases holds with
      | false => rfl
      | true => exact absurd hsome (hsession phase)

theorem rule_giveUp {call : Call σ} {session : Session}
    (hbusy : self.activity = .busy call .lowering) (hsession : self.session = some session) :
    Rule build now me lock self none (ThreadState.giveUp build me lock self call session) := by
  unfold ThreadState.giveUp
  simp only
  split
  · rename_i hnested
    simp only [Bool.and_eq_true, Build.isChecked_eq_true, Bool.not_eq_true'] at hnested
    exact .giveUpNested hbusy hsession hnested.1.1 hnested.1.2 hnested.2
  · rename_i hfree
    apply Rule.giveUp hbusy hsession
    intro hchecked hcall
    simpa [hchecked, hcall, Build.isChecked] using hfree

theorem rule_dispose {call : Call σ} (hbusy : self.activity = .busy call .disposing) :
    Rule build now me lock self none (ThreadState.dispose lock self call) := by
  unfold ThreadState.dispose
  cases hteardown : lock.teardown with
  | some teardown => exact .dispose hbusy hteardown
  | none => exact .disposeNone hbusy hteardown

theorem rule_of_tearDown? {call : Call σ} {teardown : Teardown}
    (hbusy : self.activity = .busy call (.tearingDown teardown))
    (h : tearDown? me lock self call teardown = some effect) :
    Rule build now me lock self none effect := by
  unfold tearDown? at h
  simp only at h
  split at h
  · rename_i hpanic
    cases h
    exact .tearDown hbusy hpanic
  · rename_i panic hpanic
    split at h <;> cases h
    exact .tearDownFailed hbusy hpanic (Bool.not_eq_true _ ▸ ‹_›)

/-- Every further step of a call follows a rule that carries no call. -/
theorem rule_of_step? (h : self.step? build now me lock = some effect) :
    Rule build now me lock self none effect := by
  unfold step? at h
  split at h
  · cases h
  · cases h
  rename_i call point hbusy
  cases point with
  | waiting watch => exact rule_of_withLock? hbusy rfl h (rule_obtain hbusy)
  | reentering => exact rule_of_withLock? hbusy rfl h (.reentered hbusy)
  | starting =>
    simp only at h
    split at h <;> rename_i hworker <;> cases h
    · exact .startLate hbusy hworker
    · exact .start hbusy (by simpa using hworker)
  | adopting => exact rule_of_withLock? hbusy rfl h (rule_claim hbusy)
  | polling =>
    cases h
    exact rule_poll hbusy
  | sleeping =>
    cases h
    exact .wake hbusy
  | retaking => exact rule_of_withLock? hbusy rfl h (.retake hbusy)
  | rechecking =>
    cases h
    exact .recheck hbusy
  | closing => exact rule_of_withLock? hbusy rfl h (.close hbusy)
  | lowering =>
    obtain ⟨session, hsession, rfl⟩ := Option.map_eq_some_iff.mp h
    exact rule_giveUp hbusy hsession
  | disposing =>
    cases h
    exact rule_dispose hbusy
  | tearingDown teardown => exact rule_of_tearDown? hbusy h
  | marking =>
    cases h
    exact .mark hbusy
  | joining child => cases h

/-- A thread makes a further step only inside a call. -/
theorem Rule.ne_idle (rule : Rule build now me lock self none effect) :
    self.activity ≠ .idle := by
  intro hidle
  cases rule with
  | _ hbusy => cases hidle.symm.trans hbusy

/-- A thread makes a call when it is idle. -/
theorem Rule.idle_of_call {call : Call σ} (rule : Rule build now me lock self (some call) effect) :
    self.activity = .idle := by
  cases rule with
  | _ hidle => exact hidle

theorem withLock?_of_canTake (hfree : lock.mutex.canTake me = true) (next : Lock σ → Effect σ) :
    withLock? me lock self next = some (next { lock with mutex := lock.mutex.take me }) := by
  unfold withLock?
  rw [if_pos hfree]

theorem wantsLock_fail (lock : Lock σ) (self : ThreadState σ) (call : Call σ) (panic : Panic)
    (entries : List Entry) :
    (fail lock self call panic entries).self.activity.wantsLock = false := by
  unfold fail
  split <;> rfl

theorem wantsLock_conclude (lock : Lock σ) (self : ThreadState σ) (call : Call σ) :
    (conclude lock self call).self.activity.wantsLock = false := by
  unfold conclude
  split <;> rfl

theorem wantsLock_check (me : Thread) (lock : Lock σ) (self : ThreadState σ) (call : Call σ)
    (entries : List Entry) :
    (check me lock self call entries).self.activity.wantsLock = false := by
  unfold check
  split <;> rfl

/-- A thread that needs the lock and can take it goes on. -/
theorem step?_of_canTake (build : Build) (now : Nat) {call : Call σ} {point : Point}
    (hbusy : self.activity = .busy call point) (hwants : point.wantsLock = true)
    (hfree : lock.mutex.canTake me = true) :
    ∃ effect, self.step? build now me lock = some effect ∧
      effect.self.activity.wantsLock = false := by
  unfold step?
  rw [hbusy]
  cases point with
  | waiting watch =>
    refine ⟨_, withLock?_of_canTake hfree _, ?_⟩
    unfold ThreadState.obtain
    simp only
    split
    · exact wantsLock_fail ..
    · rfl
  | reentering => exact ⟨_, withLock?_of_canTake hfree _, rfl⟩
  | adopting =>
    refine ⟨_, withLock?_of_canTake hfree _, ?_⟩
    unfold claim
    split
    · exact wantsLock_fail ..
    · rfl
  | retaking => exact ⟨_, withLock?_of_canTake hfree _, wantsLock_check ..⟩
  | closing => exact ⟨_, withLock?_of_canTake hfree _, wantsLock_check ..⟩
  | starting | polling | sleeping | rechecking | lowering | disposing | tearingDown | marking
  | joining => cases hwants

end

end ThreadState

end YieldLock
