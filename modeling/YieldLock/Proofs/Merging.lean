import YieldLock.Proofs.Acquiring
import YieldLock.Proofs.Announcement
import YieldLock.Proofs.Handover
import YieldLock.Proofs.Phase
import YieldLock.Proofs.Remainder

/-!
# Accesses that are made in one step

A step that takes the lock or gives it back may make further accesses, although other threads can
move between them. Nothing is lost by that: what others do in between they can do after the step
that takes the lock, or before the step that gives it back. Main statements:
`World.exists_run_of_taken` and from it `World.exists_run_of_acquisition`,
`World.exists_run_of_adoption` and `World.exists_run_of_window`, and in the other direction
`World.exists_run_of_handoff`.
-/

namespace YieldLock

variable {σ : Type}

/-- What can be seen of a move from outside. -/
def Turn.shown (turn : Turn σ) : Move σ × List (Event σ) := (turn.move, turn.events)

namespace World

variable {me : Thread} {build : Build} {world next : World σ} {move : Move σ}
  {events : List (Event σ)}

/-- A thread that holds the lock goes on holding it while others move. -/
theorem Change.holds (change : Change build world move next events) (h : world.Holds me)
    (hother : move.thread? ≠ some me) : next.Holds me ∧ next.thread me = world.thread me := by
  have hself : next.thread me = world.thread me := by
    obtain hkept | ⟨hunknown, _⟩ := change.thread_of_others hother
    · exact hkept
    · rw [h.known] at hunknown
      cases hunknown
  refine ⟨⟨change.contains_kept h.known, ?_, ?_⟩, hself⟩
  · rw [Mutex.isHeldBy, change.depth_of_ne hother]
    exact h.held
  · rw [hself]
    exact h.lives

end World

section

variable {me : Thread} {build : Build} {world later : World σ} {turns : List (Turn σ)}

theorem Run.holds (run : Run build world turns later) (h : world.Holds me)
    (hothers : ∀ turn ∈ turns, turn.move.thread? ≠ some me) :
    later.Holds me ∧ later.thread me = world.thread me := by
  induction run with
  | nil => exact ⟨h, rfl⟩
  | @snoc turns turn run hmove ih =>
    obtain ⟨hearlier, hother⟩ := List.forall_mem_append.mp hothers
    rw [List.forall_mem_singleton] at hother
    obtain ⟨hbefore, hsame⟩ := ih hearlier
    obtain ⟨hafter, hkept⟩ := (World.change_of_move? hmove).holds hbefore hother
    exact ⟨hafter, hkept.trans hsame⟩

namespace Remainder

variable (rest : Remainder me) {self : ThreadState σ}

/-- A move as it is made when the rest is done before it. -/
def settleTurn (self : ThreadState σ) (turn : Turn σ) : Turn σ where
  before := rest.settle self turn.before
  move := turn.move
  after := rest.settle self turn.after
  events := turn.events

/-- The moves of other threads are the same before the rest is done and after it. -/
theorem run_settle (h : Reachable build (rest.settle self world))
    (run : Run build world turns later) (hholds : world.Holds me)
    (hself : self.activity.isFinished = false)
    (hothers : ∀ turn ∈ turns, turn.move.thread? ≠ some me)
    (hunseen : ∀ turn ∈ turns, turn.before.Holds me →
      Reachable build (rest.settle self turn.before) → rest.IsUnseen turn.before turn.move) :
    Run build (rest.settle self world) (turns.map (rest.settleTurn self))
      (rest.settle self later) := by
  induction run with
  | nil => exact .nil
  | @snoc turns turn run hmove ih =>
    obtain ⟨hearlier, hother⟩ := List.forall_mem_append.mp hothers
    obtain ⟨hbefore, hlast⟩ := List.forall_mem_append.mp hunseen
    rw [List.forall_mem_singleton] at hother hlast
    have hrun : Run build (rest.settle self world) (turns.map (rest.settleTurn self))
        (rest.settleTurn self turn).before := ih hearlier hbefore
    have hholding : turn.before.Holds me := (run.holds hholds hearlier).1
    have hsettled : (rest.settleTurn self turn).IsMove build := by
      unfold Turn.IsMove
      refine (rest.move?_settle hholding hself hother (hlast hholding (h.run hrun))).trans ?_
      rw [hmove]
      rfl
    rw [List.map_append]
    exact .snoc hrun hsettled

/-- What others do after the rest is done they can do before it, if they look at nothing that it
changes. -/
theorem exists_run_of_settle (hunseen : ∀ world : World σ, ∀ move, rest.IsUnseen world move)
    (run : Run build (rest.settle self world) turns later) (hholds : world.Holds me)
    (hself : self.activity.isFinished = false)
    (hothers : ∀ turn ∈ turns, turn.move.thread? ≠ some me) :
    ∃ earlier before, Run build world earlier before ∧ later = rest.settle self before ∧
      earlier.map Turn.shown = turns.map Turn.shown ∧
      ∀ turn ∈ earlier, turn.move.thread? ≠ some me := by
  generalize hstart : rest.settle self world = start at run
  induction run with
  | nil => exact ⟨[], world, .nil, hstart.symm, rfl, by simp⟩
  | @snoc turns turn run hmove ih =>
    obtain ⟨hearlier, hother⟩ := List.forall_mem_append.mp hothers
    rw [List.forall_mem_singleton] at hother
    obtain ⟨earlier, before, hrun, hbefore, hshown, hkept⟩ := ih hearlier
    have hsettled :
        (before.move? build turn.move).map (Prod.map (rest.settle self) id) =
          some (turn.after, turn.events) := by
      rw [← rest.move?_settle (hrun.holds hholds hkept).1 hself hother (hunseen _ _), ← hbefore]
      exact hmove
    obtain ⟨⟨after, _⟩, hafter, heq⟩ := Option.map_eq_some_iff.mp hsettled
    obtain ⟨hnext, rfl⟩ := Prod.ext_iff.mp heq
    let last : Turn σ := ⟨before, turn.move, after, turn.events⟩
    have hlast : last.IsMove build := hafter
    refine ⟨earlier ++ [last], after, .snoc hrun hlast, hnext.symm, ?_, ?_⟩
    · rw [List.map_append, List.map_append, hshown]
      rfl
    · exact List.forall_mem_append.mpr ⟨hkept, List.forall_mem_singleton.mpr hother⟩

end Remainder

end

namespace World

/-- The world in which a thread has just taken the lock, before it does anything else. -/
def taken (world : World σ) (me : Thread) : World σ :=
  { world with lock := { world.lock with mutex := world.lock.mutex.take me } }

variable {me : Thread} {build : Build} {world later : World σ} {turns : List (Turn σ)}
  {events : List (Event σ)} {self : ThreadState σ}

theorem holds_taken (hwants : (world.thread me).activity.wantsLock = true)
    (hfree : world.lock.mutex.canTake me = true) : (world.taken me).Holds me := by
  obtain ⟨call, point, hbusy, _⟩ := Activity.exists_of_wantsLock hwants
  have hsame : ((world.taken me).thread me).activity = .busy call point := hbusy
  apply holds_of_busy hsame
  rw [Mutex.isHeldBy, taken, Mutex.depth_take_self hfree, decide_eq_true_eq]
  exact Nat.succ_pos _

/-- If a step takes the lock and does the rest at once, it makes up for every run in which others
move after the lock is taken and before the rest is done. -/
theorem exists_run_of_taken (h : Reachable build world) (rest : Remainder me)
    (hstep : world.step? build me = some (rest.settle self (world.taken me), events))
    (hwants : (world.thread me).activity.wantsLock = true)
    (hfree : world.lock.mutex.canTake me = true) (hself : self.activity.isFinished = false)
    (run : Run build (world.taken me) turns later)
    (hothers : ∀ turn ∈ turns, turn.move.thread? ≠ some me)
    (hunseen : ∀ turn ∈ turns, turn.before.Holds me →
      Reachable build (rest.settle self turn.before) → rest.IsUnseen turn.before turn.move) :
    ∃ merged, Run build world merged (rest.settle self later) ∧
      merged.map Turn.shown = (.step me, events) :: turns.map Turn.shown := by
  let first : Turn σ := ⟨world, .step me, rest.settle self (world.taken me), events⟩
  have hfirst : first.IsMove build := hstep
  have hsettled : Run build first.after (turns.map (rest.settleTurn self))
      (rest.settle self later) :=
    rest.run_settle (h.move hfirst) run (holds_taken hwants hfree) hself hothers hunseen
  refine ⟨first :: turns.map (rest.settleTurn self), .cons hfirst hsettled, ?_⟩
  rw [List.map_cons, List.map_map]
  rfl

/-- That a waiter which has the lock leaves the others goes unnoticed: a thread that looks for
waiters has the lock itself, and one that tears down has been asked for the lock already. -/
theorem acquisition_isUnseen {waited : UInt64} {move : Move σ}
    (h : Reachable build ((Remainder.acquisition me waited).settle self world))
    (hholds : world.Holds me) (hother : move.thread? ≠ some me)
    (hlevels : ∀ name, (world.thread name).HoldsWhileRunning) :
    (Remainder.acquisition me waited).IsUnseen world move := by
  have hsame (name : Thread) (hsteps : move = .step name) :
      ((Remainder.acquisition me waited).settle self world).thread name = world.thread name := by
    refine ((Remainder.acquisition me waited).sameOthers_settle hholds.known).thread name ?_
    rintro rfl
    exact hother (congrArg Move.thread? hsteps)
  refine ⟨?_, ?_, fun _ _ _ _ ↦ rfl, fun _ _ ↦ rfl⟩
  · intro name call hsteps hpolls
    have hfits := h.fits name
    rw [hsame name hsteps] at hfits
    obtain ⟨_, session, hsession, hphase⟩ := hfits.sound.place _ _ hpolls
    have hdepth : world.lock.mutex.depth name = (world.thread name).guards + 1 :=
      hfits.depth.trans (ThreadState.levels_of_holds hsession
        (hlevels name session hsession hphase) (by rw [hpolls]; rfl))
    obtain rfl : name = me :=
      Mutex.depth_pos_unique (hdepth ▸ Nat.succ_pos _) (of_decide_eq_true hholds.held)
    exact absurd (congrArg Move.thread? hsteps) hother
  · intro name call teardown hsteps htears
    have hlowered := (h.isPrepared ((congrArg ThreadState.activity (hsame name hsteps)).trans
      htears)).lowered
    have hkeepAlive : world.lock.keepAlive.isSet = false := hlowered
    unfold Lock.isControllerWaiting
    rw [Remainder.keepAlive_apply, hkeepAlive, Bool.not_false, Bool.or_true, Bool.or_true]

/-- A waiter leaves the others and counts its acquisition in the step that takes the lock. -/
theorem exists_run_of_acquisition (h : Reachable build world) {watch : Stopwatch}
    (hbusy : (world.thread me).activity = .busy .acquire (.waiting watch))
    (hfree : world.lock.mutex.canTake me = true) (run : Run build (world.taken me) turns later)
    (hothers : ∀ turn ∈ turns, turn.move.thread? ≠ some me)
    (hlevels : ∀ turn ∈ turns, ∀ name, (turn.before.thread name).HoldsWhileRunning) :
    ∃ merged,
      Run build world merged
        ((Remainder.acquisition me (watch.elapsedMicros world.clock)).settle
          { world.thread me with guards := (world.thread me).guards + 1, activity := .idle }
          later) ∧
      merged.map Turn.shown =
        (.step me, [.answered .acquire .acquired]) :: turns.map Turn.shown := by
  have hcounted : (world.thread me).activity.isCounted = true := by rw [hbusy]; rfl
  have hmatched : world.lock.waiters.isMatched = true := h.waiters_isSet hcounted
  refine exists_run_of_taken h _ ?_ (by rw [hbusy]; rfl) hfree rfl run hothers
    fun turn hturn hholds hreach ↦
      acquisition_isUnseen hreach hholds (hothers turn hturn) (hlevels turn hturn)
  rw [step?_of_busy hbusy rfl]
  simp only [ThreadState.step?, hbusy, ThreadState.withLock?, hfree, if_true, ThreadState.obtain,
    hmatched, Bool.not_true, Bool.and_false, Bool.false_eq_true, if_false]
  rfl

/-- A thread becomes the worker in the step that takes the lock, if there is none. Another thread
that looks for a worker in between would find none, and come too late once it has the lock. -/
theorem exists_run_of_adoption (h : Reachable build world) {call : Call σ}
    (hbusy : (world.thread me).activity = .busy call .adopting)
    (hfree : world.lock.mutex.canTake me = true) (hnone : world.lock.worker = none)
    (run : Run build (world.taken me) turns later)
    (hothers : ∀ turn ∈ turns, turn.move.thread? ≠ some me)
    (hadopts : ∀ turn ∈ turns, ∀ name, turn.move ≠ .call name .adopt)
    (hstarts : ∀ turn ∈ turns, ∀ name call, turn.move = .step name →
      (turn.before.thread name).activity ≠ .busy call .starting) :
    ∃ merged,
      Run build world merged
        ((Remainder.adoption me).settle
          { world.thread me with session := some {}, activity := .idle } later) ∧
      merged.map Turn.shown =
        (.step me, [.entry (.logged (.adopted (world.thread me).title)),
          .answered call (ThreadState.adoptedAnswer call)]) :: turns.map Turn.shown := by
  refine exists_run_of_taken h _ ?_ (by rw [hbusy]; rfl) hfree rfl run hothers
    fun turn hturn _ _ ↦ ⟨fun _ _ _ _ ↦ rfl, fun _ _ _ _ _ ↦ rfl,
      fun name call hsteps hbusy ↦ absurd hbusy (hstarts turn hturn name call hsteps),
      fun name hmove ↦ absurd hmove (hadopts turn hturn name)⟩
  rw [step?_of_busy hbusy rfl]
  have hlock : (Remainder.adoption me).apply (world.taken me).lock =
      { (world.taken me).lock with worker := some me } := by
    simp only [Remainder.apply, Remainder.adoption, taken, hnone]
    rfl
  simp only [ThreadState.step?, hbusy, ThreadState.withLock?, hfree, if_true, ThreadState.claim,
    hnone, Option.isSome_none, Bool.false_eq_true, if_false, Option.map_some, Remainder.settle,
    hlock]
  rfl

/-- A worker counts its window in the step that takes the lock. It looks for shutdown in that step
too, so a request that comes later is obeyed at its next check point. -/
theorem exists_run_of_window (h : Reachable build world) {call : Call σ} {effect : Effect σ}
    (hbusy : (world.thread me).activity = .busy call .closing)
    (hfree : world.lock.mutex.canTake me = true)
    (heffect : effect = ThreadState.check me (world.taken me).lock
      { world.thread me with session := some { phase := .running, holds := true } } call [])
    (run : Run build (world.taken me) turns later)
    (hothers : ∀ turn ∈ turns, turn.move.thread? ≠ some me) :
    ∃ merged, Run build world merged ((Remainder.window me).settle effect.self later) ∧
      merged.map Turn.shown = (.step me, effect.events) :: turns.map Turn.shown := by
  have hclose : ThreadState.close me (world.thread me) call (world.taken me).lock =
      (Remainder.window me).after effect := by
    rw [heffect]
    exact (Remainder.window me).check_apply rfl
  have hself : effect.self.activity.isFinished = false := by
    rw [heffect, ThreadState.check]
    split <;> rfl
  have hlock : effect.lock = (world.taken me).lock := by
    rw [heffect, ThreadState.lock_check]
  refine exists_run_of_taken h _ ?_ (by rw [hbusy]; rfl) hfree hself run hothers
    fun _ _ _ _ ↦ (Remainder.window me).isUnseen_of_counting rfl rfl _ _
  rw [step?_of_busy hbusy rfl]
  simp only [ThreadState.step?, hbusy, ThreadState.withLock?, hfree, if_true]
  refine congrArg some (Prod.ext ?_ ?_)
  · refine (congrArg (world.after me) hclose).trans ?_
    unfold Remainder.settle Remainder.after after
    rw [hlock]
    rfl
  · have hevents := congrArg Effect.events hclose
    exact hevents

end World

section

variable {me name : Thread} {build : Build} {world later : World σ} {turns : List (Turn σ)}

/-- A worker that someone waits for gives up its level, if it is the only one. -/
theorem ThreadState.step?_of_polling (now : Nat) {lock : Lock σ} {self : ThreadState σ}
    {call : Call σ} {session : Session} (hbusy : self.activity = .busy call .polling)
    (hsession : self.session = some session) (hholds : session.holds = true)
    (hset : lock.waiters.isSet = true)
    (hbare : (build.isChecked && (lock.mutex.giveBack me).isHeldBy me) = false) :
    self.step? build now me lock = some
      (goOn
        { lock with mutex := lock.mutex.giveBack me, stats := lock.stats.countHandoff }
        self call .sleeping [.slept lock.config.yieldSleep]) := by
  obtain ⟨phase, holds⟩ := session
  obtain rfl : holds = true := hholds
  simp only [step?, hbusy, poll, hset, hsession, hbare, Bool.not_true, Bool.false_eq_true, if_false]

/-- If the signal of the waiters is up, a thread is counted. -/
theorem Reachable.exists_counted (h : Reachable build world)
    (hset : world.lock.waiters.isSet = true) :
    ∃ name, (world.thread name).activity.isCounted = true := by
  have hpos : 0 < world.lock.waiters.count.toNat :=
    UInt64.lt_iff_toNat_lt.mp (of_decide_eq_true hset)
  have hsome : {name | world.IsAcquiring name}.Nonempty := by
    rw [← Set.encard_pos, ← h.waiters_eq_encard]
    exact_mod_cast hpos
  obtain ⟨name, hname⟩ := hsome
  exact ⟨name, h.isCounted_iff.mpr hname⟩

/-- As long as a thread holds the lock, no other thread that waits for it is served. -/
theorem Run.counted_kept (run : Run build world turns later) (hholds : world.Holds me)
    (hothers : ∀ turn ∈ turns, turn.move.thread? ≠ some me) (hname : name ≠ me)
    (hcounted : (world.thread name).activity.isCounted = true) :
    (later.thread name).activity.isCounted = true := by
  induction run with
  | nil => exact hcounted
  | @snoc turns turn run hmove ih =>
    have hearlier := (List.forall_mem_append.mp hothers).1
    exact (World.change_of_move? hmove).counted_kept (ih hearlier)
      (Mutex.canTake_of_owner (run.holds hholds hearlier).1.held hname)

namespace World

/-- A worker that someone waits for counts the handover in the step that gives up the lock. If
others move after it is counted, they can do so before, and the worker is still waited for. -/
theorem exists_run_of_handoff (h : Reachable build world) {call : Call σ} {session : Session}
    (hbusy : (world.thread me).activity = .busy call .polling)
    (hsession : (world.thread me).session = some session) (hholds : session.holds = true)
    (hset : world.lock.waiters.isSet = true)
    (hfree : build = .checked → (world.lock.mutex.giveBack me).isHeldBy me = false)
    (run : Run build ((Remainder.handoff me).settle (world.thread me) world) turns later)
    (hothers : ∀ turn ∈ turns, turn.move.thread? ≠ some me) :
    ∃ merged before next, Run build world merged before ∧
      merged.map Turn.shown = turns.map Turn.shown ∧
      before.step? build me = some (next, [.entry (.slept before.lock.config.yieldSleep)]) ∧
      next.lock = { later.lock with mutex := later.lock.mutex.giveBack me } ∧
      next.thread me = { world.thread me with activity := .busy call .sleeping } ∧
      ∀ name, name ≠ me → next.thread name = later.thread name := by
  have hlives : (world.thread me).activity.isFinished = false := by rw [hbusy]; rfl
  have hstart : world.Holds me := by
    apply holds_of_busy hbusy
    rw [Mutex.isHeldBy, (h.fits me).depth, decide_eq_true_eq,
      ThreadState.levels_of_holds hsession hholds (by rw [hbusy]; rfl)]
    exact Nat.succ_pos _
  obtain ⟨merged, before, hrun, rfl, hshown, hkept⟩ := (Remainder.handoff me).exists_run_of_settle
    ((Remainder.handoff me).isUnseen_of_counting rfl rfl) run hstart hlives hothers
  have hsame : before.thread me = world.thread me := (hrun.holds hstart hkept).2
  have hreach : Reachable build before := h.run hrun
  have hstill : before.lock.waiters.isSet = true := by
    obtain ⟨name, hcounted⟩ := h.exists_counted hset
    have hname : name ≠ me := by
      rintro rfl
      rw [hbusy] at hcounted
      cases hcounted
    exact hreach.waiters_isSet (hrun.counted_kept hstart hkept hname hcounted)
  have hdepth : before.lock.mutex.depth me = world.lock.mutex.depth me := by
    rw [(hreach.fits me).depth, (h.fits me).depth, hsame]
  have hbare : (build.isChecked && (before.lock.mutex.giveBack me).isHeldBy me) = false := by
    rw [Mutex.isHeldBy, Mutex.depth_giveBack_self, hdepth, ← Mutex.depth_giveBack_self,
      ← Mutex.isHeldBy]
    cases build with
    | checked => exact hfree rfl
    | unchecked => rfl
  have hstands : (before.thread me).activity = .busy call .polling := by rw [hsame, hbusy]
  let effect : Effect σ := ThreadState.goOn
    { before.lock with
      mutex := before.lock.mutex.giveBack me
      stats := before.lock.stats.countHandoff }
    (before.thread me) call .sleeping [.slept before.lock.config.yieldSleep]
  have hstep : (before.thread me).step? build before.clock me before.lock = some effect :=
    ThreadState.step?_of_polling before.clock hstands
      ((congrArg ThreadState.session hsame).trans hsession) hholds hstill hbare
  refine ⟨merged, before, before.after me effect, hrun, hshown, ?_, rfl, ?_, ?_⟩
  · rw [step?_of_busy hstands rfl, hstep]
    rfl
  · rw [thread_after_self, ThreadState.self_goOn, hsame]
  · intro name hname
    rw [thread_after_of_ne _ _ hname, Remainder.settle, thread_after_of_ne _ _ hname]

end World

end

end YieldLock
