import YieldLock.Proofs.Advance
import YieldLock.Proofs.Soundness

/-!
# Who owns the lock

A thread fits its lock if it is sound, if a session of it makes it the recorded
worker, and if its depth in the mutex is the number of levels that its guards and
its session account for. Main statements: `Reachable.fits`, every thread of a
reachable world fits the lock, and `ownership_accounts_for_levels`.
-/

namespace YieldLock

variable {σ : Type}

namespace ThreadState

structure Fits (lock : Lock σ) (me : Thread) (state : ThreadState σ) : Prop where
  sound : state.IsSound
  worker : state.session.isSome = true → lock.worker = some me
  depth : lock.mutex.depth me = state.levels

section

variable {build : Build} {now : Nat} {me other : Thread} {lock : Lock σ} {self : ThreadState σ}
  {call? : Option (Call σ)} {effect : Effect σ}

theorem Fits.session_eq_none (h : self.Fits lock me) (hworker : lock.worker = none) :
    self.session = none := by
  cases hsession : self.session with
  | none => rfl
  | some session =>
    have hsome := h.worker (by rw [hsession]; rfl)
    rw [hworker] at hsome
    cases hsome

theorem Rule.mutex_depth_other (rule : Rule build now me lock self call? effect)
    (hne : other ≠ me) : effect.lock.mutex.depth other = lock.mutex.depth other := by
  cases rule with
  | tryTake _ hfree | obtain _ hfree | reentered _ hfree | adoptWon _ hfree =>
    exact Mutex.depth_take_other hfree hne
  | retake _ hfree | close _ hfree =>
    rw [lock_check]
    exact Mutex.depth_take_other hfree hne
  | release | pollSleep => exact Mutex.depth_giveBack_other _ hne
  | openNested | openWindow | giveUp => exact Mutex.depth_giveBackIf_other _ _ hne
  | giveUpNested =>
    rw [lock_fail]
    exact Mutex.depth_giveBackIf_other _ _ hne
  | finishBegin => exact Mutex.depth_giveBackMany_other _ _ hne
  | finishEnded =>
    rw [lock_conclude]
    exact Mutex.depth_giveBackMany_other _ _ hne
  | obtainUnmatched _ hfree | adoptLost _ hfree =>
    rw [lock_fail]
    exact (Mutex.depth_giveBack_other _ hne).trans (Mutex.depth_take_other hfree hne)
  | pollNested _ _ _ _ _ hheld =>
    have hfree : (lock.mutex.giveBack me).canTake me = true := by
      rw [Mutex.canTake, hheld, Bool.or_true]
    exact (Mutex.depth_take_other hfree hne).trans (Mutex.depth_giveBack_other _ hne)
  | request => rw [lock_answer, Lock.lock_requestShutdown]
  | closeRunning | recheck => rw [lock_check]
  | dropEnded | mark => rw [lock_conclude]
  | startLate | tearDownFailed => rw [lock_fail]
  | park => rfl
  | _ => rfl

theorem Rule.worker_of_session (rule : Rule build now me lock self call? effect)
    (h : self.Fits lock me) (hsession : effect.self.session.isSome = true) :
    effect.lock.worker = some me := by
  have hworker : self.session.isSome = true → effect.lock.worker = some me :=
    fun hsome ↦ rule.advances.worker _ (h.worker hsome)
  cases rule with
  | adoptWon => rfl
  | close hbusy =>
    obtain ⟨_, hplace⟩ := h.sound.place _ _ hbusy
    exact hworker (by rw [hplace]; rfl)
  | openNested _ hsome | openWindow _ hsome | giveUp _ hsome =>
    exact hworker (by rw [hsome]; rfl)
  | giveUpNested _ hsome => exact hworker (by rw [hsome]; rfl)
  | dropEnded | mark | finishEnded =>
    obtain hkept | hnone := session_conclude _ _ _
    · rw [hkept] at hsession
      exact hworker hsession
    · rw [hnone] at hsession
      cases hsession
  | obtainUnmatched | startLate | adoptLost | tearDownFailed =>
    obtain hkept | hnone := session_fail _ _ _ _ _
    · rw [hkept] at hsession
      exact hworker hsession
    · rw [hnone] at hsession
      cases hsession
  | closeRunning | retake | recheck =>
    rw [session_check] at hsession
    exact hworker hsession
  | _ => exact hworker hsession

theorem Fits.depth_take (h : self.Fits lock me) (hfree : lock.mutex.canTake me = true) :
    (lock.mutex.take me).depth me = self.levels + 1 := by
  rw [Mutex.depth_take_self hfree, h.depth]

theorem Fits.depth_giveBack (h : self.Fits lock me) :
    (lock.mutex.giveBack me).depth me = self.levels - 1 := by
  rw [Mutex.depth_giveBack_self, h.depth]

theorem Fits.depth_giveBack_take (h : self.Fits lock me) (hfree : lock.mutex.canTake me = true) :
    ((lock.mutex.take me).giveBack me).depth me = self.levels := by
  rw [Mutex.depth_giveBack_self, h.depth_take hfree, Nat.add_sub_cancel]

/-- Giving back what the session holds leaves the levels of the guards. -/
theorem Fits.depth_giveBackIf {session : Session} (h : self.Fits lock me)
    (hsession : self.session = some session) (hreleased : self.activity.isReleased = false) :
    (lock.mutex.giveBackIf me session.holds).depth me = self.guards := by
  rw [Mutex.depth_giveBackIf_self, h.depth]
  cases hholds : session.holds with
  | true =>
    rw [levels_of_holds hsession hholds hreleased]
    rfl
  | false => exact levels_of_holdsNoLevel (holdsNoLevel_of_some hsession hholds)

theorem levels_conclude (lock : Lock σ) (call : Call σ) (h : self.HoldsNoLevel) :
    (conclude lock self call).self.levels = self.guards := by
  rw [levels_of_holdsNoLevel, guards_conclude]
  intro session hsession
  obtain hkept | hnone := session_conclude lock self call
  · exact h session (hkept ▸ hsession)
  · rw [hnone] at hsession
    cases hsession

theorem levels_fail (lock : Lock σ) (call : Call σ) (panic : Panic) (entries : List Entry)
    (h : self.HoldsNoLevel) : (fail lock self call panic entries).self.levels = self.guards := by
  rw [levels_of_holdsNoLevel, guards_fail]
  intro session hsession
  obtain hkept | hnone := session_fail lock self call entries panic
  · exact h session (hkept ▸ hsession)
  · rw [hnone] at hsession
    cases hsession

theorem levels_check (lock : Lock σ) (call : Call σ) (entries : List Entry)
    (hreleased : self.activity.isReleased = false) :
    (check me lock self call entries).self.levels = self.levels :=
  levels_add 0 (guards_check ..) (session_check ..) ((isReleased_check ..).trans hreleased.symm)

/-- A step changes the depth of its thread and the levels that it accounts for alike. -/
theorem Rule.mutex_depth_self (rule : Rule build now me lock self call? effect)
    (h : self.Fits lock me) : effect.lock.mutex.depth me = effect.self.levels := by
  have hdepth := h.depth
  cases rule with
  | tryTake hstands hfree | obtain hstands hfree | reentered hstands hfree =>
    exact (h.depth_take hfree).trans (Eq.symm (levels_add 1 rfl rfl (by rw [hstands]; rfl)))
  | release hidle hguard =>
    apply h.depth_giveBack.trans
    apply Nat.sub_eq_of_eq_add
    exact levels_add 1 (Nat.sub_add_cancel hguard).symm rfl (by rw [hidle]; rfl)
  | openNested hidle hsession | openWindow hidle hsession =>
    have hlevels := h.depth_giveBackIf hsession (by rw [hidle]; rfl)
    exact hlevels.trans (Eq.symm (levels_of_holdsNoLevel (holdsNoLevel_of_some rfl rfl)))
  | finishBegin hidle =>
    apply (Mutex.depth_giveBackMany_self _ _ _).trans
    rw [hdepth]
    refine Nat.sub_eq_of_eq_add (levels_add self.guards ?_ rfl (by rw [hidle]; rfl))
    exact (Nat.zero_add _).symm
  | finishEnded hidle _ hended =>
    have hnone : self.HoldsNoLevel := h.sound.holdsNoLevel_of_ended hended
    rw [lock_conclude]
    refine Eq.trans ?_ (Eq.symm (levels_conclude _ _ hnone))
    calc
      _ = lock.mutex.depth me - self.guards := Mutex.depth_giveBackMany_self ..
      _ = 0 := by rw [hdepth, levels_of_holdsNoLevel hnone, Nat.sub_self]
  | dropEnded hidle _ _ hsession hphase =>
    have hnone : self.HoldsNoLevel :=
      holdsNoLevel_of_some hsession (h.sound.holds _ hsession (by rw [hphase]; nofun))
    rw [lock_conclude, levels_conclude _ _ hnone, hdepth, levels_of_holdsNoLevel hnone]
  | mark hbusy =>
    have hnone : self.HoldsNoLevel := holdsNoLevel_of_some (h.sound.place _ _ hbusy).2 rfl
    rw [lock_conclude, levels_conclude _ _ hnone]
    exact hdepth.trans (levels_of_holdsNoLevel hnone)
  | @obtainUnmatched call _ hbusy hfree =>
    obtain rfl : call = .acquire := h.sound.place _ _ hbusy
    apply (h.depth_giveBack_take hfree).trans
    exact Eq.symm (levels_add 0 rfl rfl (by rw [hbusy]; rfl))
  | adoptLost hbusy hfree =>
    have hnone : self.HoldsNoLevel := holdsNoLevel_of_none (h.sound.place _ _ hbusy).2
    rw [lock_fail, levels_fail _ _ _ _ hnone]
    exact (h.depth_giveBack_take hfree).trans (levels_of_holdsNoLevel hnone)
  | startLate hbusy =>
    have hnone : self.HoldsNoLevel := holdsNoLevel_of_none (h.sound.place _ _ hbusy).2
    rw [lock_fail, levels_fail _ _ _ _ hnone, hdepth, levels_of_holdsNoLevel hnone]
  | tearDownFailed hbusy =>
    have hnone : self.HoldsNoLevel := holdsNoLevel_of_some (h.sound.place _ _ hbusy).2 rfl
    rw [lock_fail, levels_fail _ _ _ _ hnone]
    exact hdepth.trans (levels_of_holdsNoLevel hnone)
  | giveUpNested hbusy hsession =>
    rw [lock_fail, levels_fail _ _ _ _ (holdsNoLevel_of_some rfl rfl)]
    exact h.depth_giveBackIf hsession (by rw [hbusy]; rfl)
  | adoptWon hbusy hfree =>
    have hnone : self.HoldsNoLevel := holdsNoLevel_of_none (h.sound.place _ _ hbusy).2
    refine Eq.trans ?_ (Eq.symm (levels_of_holds rfl rfl rfl))
    calc
      _ = self.levels + 1 := h.depth_take hfree
      _ = self.guards + 1 := by rw [levels_of_holdsNoLevel hnone]
  | pollNested hbusy _ _ _ _ hheld =>
    have hfree : (lock.mutex.giveBack me).canTake me = true := by
      rw [Mutex.canTake, hheld, Bool.or_true]
    have hpos : 0 < (lock.mutex.giveBack me).depth me := of_decide_eq_true hheld
    rw [h.depth_giveBack] at hpos
    refine Eq.trans ?_ (Eq.symm (levels_add 0 rfl rfl (by rw [hbusy]; rfl)))
    calc
      _ = (lock.mutex.giveBack me).depth me + 1 := Mutex.depth_take_self hfree
      _ = self.levels - 1 + 1 := by rw [h.depth_giveBack]
      _ = self.levels := by omega
  | pollSleep hbusy _ hsession hholds =>
    have hlevels := levels_of_holds hsession hholds (by rw [hbusy]; rfl)
    refine Eq.trans ?_ (Eq.symm (levels_of_released rfl))
    calc
      _ = self.levels - 1 := h.depth_giveBack
      _ = self.guards := by omega
  | retake hbusy hfree =>
    obtain ⟨rfl, hsession⟩ := h.sound.place _ _ hbusy
    have hkept : (check me { lock with mutex := lock.mutex.take me } self .yieldNow
        [.logged .handedOver]).self.session = some { phase := .running, holds := true } :=
      (session_check ..).trans hsession
    rw [lock_check, levels_of_holds hkept rfl (isReleased_check ..), guards_check]
    have hlevels : self.levels = self.guards := levels_of_released (by rw [hbusy]; rfl)
    exact hlevels ▸ h.depth_take hfree
  | close hbusy hfree =>
    have hnone : self.HoldsNoLevel := holdsNoLevel_of_some (h.sound.place _ _ hbusy).2 rfl
    rw [lock_check, levels_check _ _ _ (by rw [hbusy]; rfl)]
    refine Eq.trans ?_ (Eq.symm (levels_of_holds rfl rfl (by rw [hbusy]; rfl)))
    calc
      _ = self.levels + 1 := h.depth_take hfree
      _ = self.guards + 1 := by rw [levels_of_holdsNoLevel hnone]
  | giveUp hbusy hsession =>
    have hlevels := h.depth_giveBackIf hsession (by rw [hbusy]; rfl)
    exact hlevels.trans (Eq.symm (levels_of_holdsNoLevel (holdsNoLevel_of_some rfl rfl)))
  | closeRunning hidle =>
    rw [lock_check, levels_check _ _ _ (by rw [hidle]; rfl)]
    exact hdepth
  | recheck hbusy =>
    rw [lock_check, levels_check _ _ _ (by rw [hbusy]; rfl)]
    exact hdepth
  | tearDown hbusy =>
    exact hdepth.trans (Eq.symm (levels_add 0 rfl rfl (by rw [hbusy]; rfl)))
  | request hidle =>
    rw [lock_answer, Lock.lock_requestShutdown]
    exact hdepth.trans (Eq.symm (levels_add 0 rfl rfl (by rw [hidle]; rfl)))
  | park => exact hdepth
  | start hbusy | pollNone hbusy | pollFree hbusy | joined hbusy | wake hbusy | dispose hbusy
  | disposeNone hbusy =>
    exact hdepth.trans (Eq.symm (levels_add 0 rfl rfl (by rw [hbusy]; rfl)))
  | reenter hidle | enter hidle | tryRefused hidle | read hidle | write hidle | outOfReach hidle
  | adoptLate hidle | adopt hidle | yieldAfterExit hidle | yieldInWindow hidle | yieldToExit hidle
  | yieldToPoll hidle | openAfterExit hidle | openTwice hidle | closeAfterExit hidle
  | closeBegin hidle | closeUnopened hidle | endAfterExit hidle | endBegin hidle | dropBegin hidle
  | joinBegin hidle =>
    exact hdepth.trans (Eq.symm (levels_add 0 rfl rfl (by rw [hidle]; rfl)))

theorem Rule.fits (rule : Rule build now me lock self call? effect) (h : self.Fits lock me) :
    effect.self.Fits effect.lock me where
  sound := rule.isSound h.sound h.session_eq_none
  worker := rule.worker_of_session h
  depth := rule.mutex_depth_self h

theorem Rule.fits_other {state : ThreadState σ} (rule : Rule build now me lock self call? effect)
    (hne : other ≠ me) (h : state.Fits lock other) : state.Fits effect.lock other where
  sound := h.sound
  worker hsession := rule.advances.worker _ (h.worker hsession)
  depth := (rule.mutex_depth_other hne).trans h.depth

end

end ThreadState

/-- Every thread of the world fits the lock. -/
def World.AllFit (world : World σ) : Prop := ∀ name, (world.thread name).Fits world.lock name

section

open ThreadState

variable {build : Build} {world next : World σ}

theorem World.allFit_of_new (hnew : world.IsNew) : world.AllFit := by
  intro name
  obtain ⟨value, config, teardown, hlock⟩ := hnew.lock.exists_eq
  rw [World.thread_of_new hnew, hlock]
  exact ⟨isSound_of_idle rfl fun _ h ↦ (nomatch h), fun h ↦ (nomatch h), rfl⟩

theorem World.AllFit.enlist (h : world.AllFit) {name : Thread}
    (hunknown : world.threads.contains name = false) (title : Option String) :
    (world.enlist name title).AllFit := by
  intro other
  rw [World.thread_enlist]
  split
  · subst other
    have hfits := h name
    rw [World.thread, Roster.get_of_not_contains hunknown] at hfits
    exact ⟨isSound_of_idle rfl hfits.sound.holds, hfits.worker, hfits.depth⟩
  · exact h other

theorem World.Change.allFit {move : Move σ} {events : List (Event σ)}
    (change : World.Change build world move next events) (h : world.AllFit) : next.AllFit := by
  refine change.forall_threads (P := fun lock name self ↦ self.Fits lock name) h ?_ ?_ ?_ ?_ ?_
  · intro name title ih
    exact ⟨isSound_of_idle rfl ih.sound.holds, ih.worker, ih.depth⟩
  · intro name title ih
    exact ⟨isSound_newborn title, fun h ↦ (nomatch h), ih.depth⟩
  · intro name self handles hidle ih
    exact ⟨isSound_of_idle hidle ih.sound.holds, ih.worker, ih.depth⟩
  · intro name call? effect _ rule ih
    exact rule.fits ih
  · intro name call? effect other rule hne ih
    exact rule.fits_other hne ih

/-- Every thread of a reachable world fits the lock. -/
theorem Reachable.fits (h : Reachable build world) : world.AllFit :=
  h.induct (fun _ ↦ World.allFit_of_new) fun _ _ _ _ _ ih change ↦ change.allFit ih

end

section

variable {build : Build} {world next : World σ} {move : Move σ} {events : List (Event σ)}

/-- Only a move of its own changes the depth to which a thread holds the lock. -/
theorem World.Change.depth_of_ne {name : Thread}
    (change : World.Change build world move next events) (hne : move.thread? ≠ some name) :
    next.lock.mutex.depth name = world.lock.mutex.depth name := by
  cases change with
  | own other call? effect _ rule =>
    have hother : name ≠ other := by
      rintro rfl
      exact hne (Move.thread?_ofThread name call?)
    exact rule.mutex_depth_other hother
  | enter | pass | spawn | spawnRefused => rfl

/-- The lock is free if and only if no thread accounts for a level of it. -/
theorem Reachable.isLocked_eq_false_iff (h : Reachable build world) :
    world.lock.mutex.isLocked = false ↔ ∀ name, (world.thread name).levels = 0 := by
  rw [Mutex.isLocked_eq_false_iff]
  exact forall_congr' fun name ↦ by rw [(h.fits name).depth]

/-- In every reachable world at most one thread owns the lock, as deep as it has guards and a
session that holds. So the lock is free when nobody has any, the owner is never held up at it, and
it leaves its owner by a move of the owner that gives up the last level. -/
theorem ownership_accounts_for_levels (h : Reachable build world) :
    (∀ left right, world.lock.mutex.isHeldBy left = true →
      world.lock.mutex.isHeldBy right = true → left = right) ∧
    (∀ name, world.lock.mutex.depth name =
      (world.thread name).guards + (world.thread name).sessionLevel) ∧
    (world.lock.mutex.isLocked = false ↔
      ∀ name, (world.thread name).guards = 0 ∧ (world.thread name).sessionLevel = 0) ∧
    (∀ name, world.lock.mutex.isHeldBy name = true →
      (world.thread name).activity.wantsLock = true →
      ∃ next events, world.step? build name = some (next, events) ∧
        (next.thread name).activity.wantsLock = false) ∧
    (∀ move next events name, world.move? build move = some (next, events) →
      world.lock.mutex.isHeldBy name = true → next.lock.mutex.isHeldBy name = false →
      move.thread? = some name ∧
        (next.thread name).guards + (next.thread name).sessionLevel = 0) := by
  refine ⟨?_, fun name ↦ (h.fits name).depth, ?_, ?_, ?_⟩
  · intro left right hleft hright
    exact Mutex.depth_pos_unique (of_decide_eq_true hleft) (of_decide_eq_true hright)
  · rw [h.isLocked_eq_false_iff]
    exact forall_congr' fun name ↦ Nat.add_eq_zero_iff
  · intro name hheld hwants
    exact World.step?_of_canTake hwants (Mutex.canTake_of_isHeldBy hheld)
  · intro move next events name hmove hheld hfree
    have hzero : next.lock.mutex.depth name = 0 := Mutex.isHeldBy_eq_false_iff.mp hfree
    have hpos : 0 < world.lock.mutex.depth name := of_decide_eq_true hheld
    constructor
    · apply Classical.byContradiction
      intro hne
      -- A move of another thread leaves the depth as it was, which is not zero.
      rw [(World.change_of_move? hmove).depth_of_ne hne] at hzero
      omega
    · exact ((h.move hmove).fits name).depth.symm.trans hzero

/-- A worker takes the lock a second time while another thread waits for it. -/
theorem worker_owns_two_levels :
    ∃ world : World Unit, Reachable .checked world ∧
      (world.thread "worker").guards = 1 ∧ (world.thread "worker").sessionLevel = 1 ∧
      world.lock.mutex.queue = ["other"] ∧
      world.lock.mutex.depth "worker" =
        (world.thread "worker").guards + (world.thread "worker").sessionLevel := by
  let start : World Unit := { lock := .standard .checked () }
  let moves : List (Move Unit) :=
    [.call "worker" .adopt, .step "worker", .call "worker" .acquire, .step "worker",
      .call "other" .acquire, .step "other"]
  have hplay : ∃ turns world, start.play? .checked moves = some (turns, world) ∧
      (world.thread "worker").guards = 1 ∧ (world.thread "worker").sessionLevel = 1 ∧
      world.lock.mutex.queue = ["other"] := ⟨_, _, rfl, rfl, rfl, rfl⟩
  obtain ⟨turns, world, hturns, hguards, hlevel, hqueue⟩ := hplay
  have hreach : Reachable .checked world :=
    (run_of_play? hturns).reachable ⟨.standard .checked (), rfl⟩
  exact ⟨world, hreach, hguards, hlevel, hqueue,
    (ownership_accounts_for_levels hreach).2.1 "worker"⟩

end

end YieldLock
