import Mathlib.Data.Set.Card
import YieldLock.Proofs.Answering
import YieldLock.Proofs.Waiting

/-!
# Threads inside an acquisition

A thread that acquires the lock without being the worker is counted from its call
until it has the lock, and no other thread is. Main statements:
`Reachable.isCounted_iff`, which threads are counted, and
`waiters_are_acquiring_threads`, how many there are and what can be read off the
lock once no thread can go on.
-/

namespace YieldLock

variable {σ : Type}

namespace Roster

variable {α : Type}

/-- A thread without an entry comes last. -/
theorem threads_set (roster : Roster α) (thread : Thread) (entry : α) :
    (roster.set thread entry).threads = roster.threads ∨
      thread ∉ roster.threads ∧ (roster.set thread entry).threads = roster.threads ++ [thread] := by
  obtain ⟨entries⟩ := roster
  simp only [set, threads]
  induction entries with
  | nil => exact .inr ⟨List.not_mem_nil, rfl⟩
  | cons head rest ih =>
    obtain ⟨name, old⟩ := head
    by_cases hname : name = thread
    · subst hname
      simp [setIn]
    · have hother : thread ≠ name := Ne.symm hname
      simp only [setIn, if_neg hname, List.map_cons, List.mem_cons, hother, false_or]
      obtain hkept | ⟨hnew, hmore⟩ := ih
      · exact .inl (congrArg (name :: ·) hkept)
      · exact .inr ⟨hnew, congrArg (name :: ·) hmore⟩

theorem nodup_threads_set {roster : Roster α} (h : roster.threads.Nodup) (thread : Thread)
    (entry : α) : (roster.set thread entry).threads.Nodup := by
  obtain hkept | ⟨hnew, hmore⟩ := roster.threads_set thread entry
  · rwa [hkept]
  · rw [hmore, List.nodup_append]
    refine ⟨h, List.pairwise_singleton _ thread, fun name hname other hother ↦ ?_⟩
    rw [List.mem_singleton.mp hother]
    rintro rfl
    exact hnew hname

theorem lookup_eq_none_of_not_mem {entries : List (Thread × α)} {thread : Thread}
    (h : thread ∉ entries.map Prod.fst) : entries.lookup thread = none := by
  rw [List.lookup_eq_none_iff]
  intro entry hentry
  rw [bne_iff_ne]
  rintro rfl
  exact h (List.mem_map_of_mem hentry)

theorem contains_eq_false_of_not_mem {roster : Roster α} {thread : Thread}
    (h : thread ∉ roster.threads) : roster.contains thread = false := by
  rw [contains, find?, lookup_eq_none_of_not_mem h]
  rfl

/-- With one entry for each thread the count is the number of threads whose entry counts. -/
theorem count_eq_encard [Inhabited α] {roster : Roster α} (h : roster.threads.Nodup)
    {p : α → Bool} (hp : p default = false) :
    (roster.count p : ℕ∞) = {name | p (roster.get name) = true}.encard := by
  obtain ⟨entries⟩ := roster
  simp only [count, get, find?, threads] at h ⊢
  induction entries with
  | nil => simp [hp]
  | cons head rest ih =>
    obtain ⟨name, entry⟩ := head
    rw [List.map_cons, List.nodup_cons] at h
    obtain ⟨hname, hrest⟩ := h
    have hnot : name ∉ {name | p ((rest.lookup name).getD default) = true} := by
      rw [Set.mem_ofPred_eq, lookup_eq_none_of_not_mem hname, Option.getD_none, hp]
      exact Bool.false_ne_true
    have hset : {other | p ((((name, entry) :: rest).lookup other).getD default) = true} =
        if p entry then insert name {other | p ((rest.lookup other).getD default) = true}
        else {other | p ((rest.lookup other).getD default) = true} := by
      ext other
      by_cases hother : other = name
      · subst hother
        split <;> simp_all
      · have hbeq : (other == name) = false := beq_false_of_ne hother
        split <;> simp [List.lookup_cons, hbeq, hother]
    rw [hset, List.countP_cons]
    split
    · rw [Set.encard_insert_of_notMem hnot, ← ih hrest, Nat.cast_add, Nat.cast_one]
    · rw [Nat.add_zero, ih hrest]

end Roster

namespace ThreadState

/-- A thread that waits for a guard is not the worker, and one that takes a further guard is. -/
structure KnowsWorker (lock : Lock σ) (me : Thread) (state : ThreadState σ) : Prop where
  waiting : state.activity.isCounted = true → lock.worker ≠ some me
  reentering : ∀ call, state.activity = .busy call .reentering → lock.worker = some me

theorem knowsWorker_of_away {self : ThreadState σ} (lock : Lock σ) (me : Thread)
    (h : self.activity.wantsLock = false) : self.KnowsWorker lock me where
  waiting hcounted := by
    rw [Activity.isCounted_of_away h] at hcounted
    cases hcounted
  reentering call hbusy := by
    rw [hbusy] at h
    cases h

section

variable {build : Build} {now : Nat} {me other : Thread} {lock : Lock σ} {self : ThreadState σ}
  {call? : Option (Call σ)} {effect : Effect σ}

/-- A step makes no thread but its own the worker. -/
theorem Rule.worker_eq_or (rule : Rule build now me lock self call? effect) :
    effect.lock.worker = lock.worker ∨ effect.lock.worker = some me := by
  cases rule with
  | adoptWon => exact .inr rfl
  | request => exact .inl (by rw [lock_answer, Lock.lock_requestShutdown])
  | obtainUnmatched | startLate | adoptLost | giveUpNested | tearDownFailed =>
    exact .inl (by rw [lock_fail])
  | closeRunning | retake | recheck | close => exact .inl (by rw [lock_check])
  | dropEnded | finishEnded | mark => exact .inl (by rw [lock_conclude])
  | _ => exact .inl rfl

theorem Rule.knowsWorker (rule : Rule build now me lock self call? effect)
    (h : self.KnowsWorker lock me) : effect.self.KnowsWorker effect.lock me := by
  cases rule with
  | reenter _ hworker => exact ⟨nofun, fun _ _ ↦ eq_of_beq hworker⟩
  | enter _ hworker => exact ⟨fun _ ↦ ne_of_beq_false hworker, nofun⟩
  | park => exact ⟨h.waiting, h.reentering⟩
  | obtainUnmatched | startLate | adoptLost | giveUpNested | tearDownFailed =>
    exact knowsWorker_of_away _ _ (wantsLock_fail ..)
  | closeRunning | retake | recheck | close => exact knowsWorker_of_away _ _ (wantsLock_check ..)
  | dropEnded | finishEnded | mark => exact knowsWorker_of_away _ _ (wantsLock_conclude ..)
  | adopt | start | wake | closeBegin => exact ⟨nofun, nofun⟩
  | _ => exact knowsWorker_of_away _ _ rfl

/-- A thread that waits for a guard joins the queue or gets the guard, unless it is not counted. -/
theorem Rule.acquires (rule : Rule build now me lock self call? effect) {watch : Stopwatch}
    (hwaiting : self.activity = .busy .acquire (.waiting watch)) :
    effect.lock.waiters = lock.waiters ∧ effect.events = [] ∨
      effect.self.activity = .idle ∧ effect.events = [.answered .acquire .acquired] ∨
      lock.waiters.isMatched = false := by
  cases rule with
  | park => exact .inl ⟨rfl, rfl⟩
  | obtain hbusy =>
    rw [hwaiting] at hbusy
    cases hbusy
    exact .inr (.inl ⟨rfl, rfl⟩)
  | obtainUnmatched _ _ _ hmatched => exact .inr (.inr hmatched)
  | _ hstands =>
    rw [hwaiting] at hstands
    cases hstands

theorem Rule.knowsWorker_other {state : ThreadState σ}
    (rule : Rule build now me lock self call? effect) (hne : other ≠ me)
    (h : state.KnowsWorker lock other) : state.KnowsWorker effect.lock other where
  waiting hcounted := by
    obtain hkept | hmine := rule.worker_eq_or
    · rw [hkept]
      exact h.waiting hcounted
    · rw [hmine]
      exact fun hother ↦ hne (Option.some_inj.mp hother).symm
  reentering call hbusy := rule.advances.worker _ (h.reentering call hbusy)

end

end ThreadState

open ThreadState in
theorem Reachable.knowsWorker {build : Build} {world : World σ} (h : Reachable build world)
    (name : Thread) : (world.thread name).KnowsWorker world.lock name := by
  refine h.forall_threads (P := fun lock name self ↦ self.KnowsWorker lock name) ?_ ?_ ?_ ?_ ?_ ?_
    name
  · exact fun lock name _ ↦ knowsWorker_of_away lock name rfl
  · exact fun lock name title _ ↦ knowsWorker_of_away lock name rfl
  · exact fun lock name title _ ↦ knowsWorker_of_away lock name rfl
  · intro lock name self handles hidle _
    apply knowsWorker_of_away lock name
    rw [hidle]
    rfl
  · exact fun now lock name self call? effect rule ih ↦ rule.knowsWorker ih
  · exact fun now lock name self call? effect other state rule hne ih ↦
      rule.knowsWorker_other hne ih

namespace World

/-- A move of another thread does not make a thread the worker. -/
theorem Change.worker_of_others {build : Build} {world next : World σ} {me : Thread}
    {move : Move σ} {events : List (Event σ)} (change : Change build world move next events)
    (hne : move.thread? ≠ some me) (hworker : world.lock.worker ≠ some me) :
    next.lock.worker ≠ some me := by
  cases change with
  | enter | pass | spawn | spawnRefused => exact hworker
  | own name call? effect _ rule =>
    rw [Move.thread?_ofThread] at hne
    obtain hkept | hother := rule.worker_eq_or
    · exact (congrArg (· ≠ some me) hkept).mpr hworker
    · exact (congrArg (· ≠ some me) hother).mpr hne

/-- The thread is inside an acquisition and not the worker. -/
def IsAcquiring (world : World σ) (name : Thread) : Prop :=
  (∃ point, (world.thread name).activity = .busy .acquire point) ∧ world.lock.worker ≠ some name

/-- The thread sleeps or has no step that it can make. -/
def isAtRest (build : Build) (world : World σ) (name : Thread) : Bool :=
  (world.thread name).activity.isSleeping || (world.step? build name).isNone

/-- No thread can go on. -/
def IsSettled (build : Build) (world : World σ) : Prop :=
  ∀ name, world.isAtRest build name = true

/-- A thread that the world does not know is at rest. -/
theorem isAtRest_of_not_mem {build : Build} {world : World σ} {name : Thread}
    (h : name ∉ world.threads.threads) : world.isAtRest build name = true := by
  have hdefault : world.thread name = {} :=
    Roster.get_of_not_contains (Roster.contains_eq_false_of_not_mem h)
  rw [isAtRest, step?, hdefault]
  rfl

theorem isSettled_iff {build : Build} {world : World σ} :
    world.IsSettled build ↔ ∀ name ∈ world.threads.threads, world.isAtRest build name = true := by
  refine ⟨fun hsettled name _ ↦ hsettled name, fun hknown name ↦ ?_⟩
  by_cases hmem : name ∈ world.threads.threads
  · exact hknown name hmem
  · exact isAtRest_of_not_mem hmem

instance (build : Build) (world : World σ) : Decidable (world.IsSettled build) :=
  decidable_of_iff _ isSettled_iff.symm

end World

section

variable {build : Build} {world next : World σ} {events : List (Event σ)} {name : Thread}

theorem Reachable.nodup_threads (h : Reachable build world) : world.threads.threads.Nodup := by
  refine h.induct (P := fun world ↦ world.threads.threads.Nodup) ?_ ?_
  · intro start hnew
    rw [hnew.threads]
    exact List.nodup_nil
  · intro world move next events _ ih change
    cases change with
    | enter | own => exact Roster.nodup_threads_set ih _ _
    | spawn => exact Roster.nodup_threads_set (Roster.nodup_threads_set ih _ _) _ _
    | pass | spawnRefused => exact ih

/-- The threads that are counted are those inside an acquisition, the worker apart. -/
theorem Reachable.isCounted_iff (h : Reachable build world) :
    (world.thread name).activity.isCounted = true ↔ world.IsAcquiring name := by
  have hplace := (h.fits name).sound.place
  constructor
  · intro hcounted
    refine ⟨?_, (h.knowsWorker name).waiting hcounted⟩
    cases hactivity : (world.thread name).activity with
    | idle | finished =>
      rw [hactivity] at hcounted
      cases hcounted
    | busy call point =>
      rw [hactivity] at hcounted
      cases point with
      | waiting watch => exact ⟨_, by rw [show call = .acquire from hplace _ _ hactivity]⟩
      | _ => cases hcounted
  · rintro ⟨⟨point, hbusy⟩, hworker⟩
    have hstands := hplace _ _ hbusy
    cases point with
    | waiting watch =>
      rw [hbusy]
      rfl
    | reentering => exact absurd ((h.knowsWorker name).reentering _ hbusy) hworker
    | starting | polling | rechecking | sleeping | retaking | closing => cases hstands.1
    | lowering | disposing | tearingDown | marking => cases hstands.1
    | adopting => exact absurd hstands.1 (by simp)
    | joining => cases hstands

theorem Reachable.waiters_eq_encard (h : Reachable build world) :
    (world.lock.waiters.count.toNat : ℕ∞) = {name | world.IsAcquiring name}.encard := by
  rw [h.waiters_toNat, World.counted, Roster.count_eq_encard h.nodup_threads rfl]
  congr
  ext name
  exact h.isCounted_iff

/-- A thread inside an acquisition joins the queue, or it has the lock and is counted no more. -/
theorem Reachable.step_of_acquiring (h : Reachable build world) (hname : world.IsAcquiring name)
    (hstep : world.step? build name = some (next, events)) :
    next.lock.waiters = world.lock.waiters ∧ events = [] ∨
      next.lock.waiters.count.toNat + 1 = world.lock.waiters.count.toNat ∧
        events = [.answered .acquire .acquired] := by
  have hcounted := h.isCounted_iff.mpr hname
  have hmove : world.move? build (.step name) = some (next, events) := hstep
  obtain ⟨⟨point, hbusy⟩, _⟩ := hname
  obtain ⟨watch, rfl⟩ : ∃ watch, point = .waiting watch := by
    rw [hbusy] at hcounted
    cases point with
    | waiting watch => exact ⟨watch, rfl⟩
    | _ => cases hcounted
  obtain ⟨effect, rule, rfl, rfl⟩ := World.exists_rule_of_step? hstep
  obtain hparks | ⟨hidle, hevents⟩ | hunmatched := rule.acquires hbusy
  · exact .inl hparks
  · right
    refine ⟨?_, hevents⟩
    have hcount := world.counted_after name effect
    rw [if_pos hcounted, hidle] at hcount
    rw [(h.move hmove).waiters_toNat, h.waiters_toNat]
    exact hcount
  · have hmatched := h.waiters_isSet hcounted
    rw [show world.lock.waiters.isSet = world.lock.waiters.isMatched from rfl, hunmatched]
      at hmatched
    cases hmatched

/-- A thread inside an acquisition that cannot go on is held up at the lock. -/
theorem World.IsSettled.isHeldUp (hsettled : world.IsSettled build) (h : Reachable build world)
    (hname : world.IsAcquiring name) : world.isHeldUp name = true := by
  have hcounted := h.isCounted_iff.mpr hname
  have hwants : (world.thread name).activity.wantsLock = true := by
    apply Bool.of_not_eq_false
    intro haway
    rw [Activity.isCounted_of_away haway] at hcounted
    cases hcounted
  rw [World.isHeldUp, hwants, Bool.true_and, Bool.not_eq_true']
  apply Bool.eq_false_iff.mpr
  intro hfree
  have hgoes : ∃ next events, world.step? build name = some (next, events) ∧ _ :=
    World.step?_of_canTake hwants hfree
  obtain ⟨next, events, hstep, _⟩ := hgoes
  have hrest := hsettled name
  rw [World.isAtRest, hstep, Option.isNone_some, Bool.or_false] at hrest
  obtain ⟨⟨point, hbusy⟩, _⟩ := hname
  rw [hbusy] at hcounted hrest
  cases point with
  | waiting => cases hrest
  | _ => cases hcounted

/-- The number of waiters is the number of threads inside an acquisition, the worker apart. A thread
leaves them by an acquisition that succeeds, which takes exactly one from the number. Once no thread
can go on, they are all blocked, and the lock asks its worker to yield if and only if there is one
or shutdown was requested. -/
theorem waiters_are_acquiring_threads (h : Reachable build world) :
    (world.lock.waiters.count.toNat : ℕ∞) = {name | world.IsAcquiring name}.encard ∧
    (∀ name, (world.thread name).activity.isCounted = true ↔ world.IsAcquiring name) ∧
    (∀ name next events, world.IsAcquiring name →
      world.step? build name = some (next, events) →
      next.lock.waiters = world.lock.waiters ∧ events = [] ∨
        next.lock.waiters.count.toNat + 1 = world.lock.waiters.count.toNat ∧
          events = [.answered .acquire .acquired]) ∧
    (world.IsSettled build →
      (world.lock.waiters.count.toNat : ℕ∞) =
          {name | world.IsAcquiring name ∧ world.isHeldUp name = true}.encard ∧
        ((∀ name, ¬(world.IsAcquiring name ∧ world.isHeldUp name = true)) →
          world.lock.waiters.count = 0) ∧
        (world.lock.isControllerWaiting = true ↔
          (∃ name, world.IsAcquiring name ∧ world.isHeldUp name = true) ∨
            world.lock.keepAlive.isSet = false)) := by
  refine ⟨h.waiters_eq_encard, fun name ↦ h.isCounted_iff,
    fun name next events ↦ h.step_of_acquiring, fun hsettled ↦ ?_⟩
  have hblocked : {name | world.IsAcquiring name} =
      {name | world.IsAcquiring name ∧ world.isHeldUp name = true} := by
    ext name
    exact ⟨fun hname ↦ ⟨hname, hsettled.isHeldUp h hname⟩, And.left⟩
  have hcount := h.waiters_eq_encard
  rw [hblocked] at hcount
  have hzero : (∀ name, ¬(world.IsAcquiring name ∧ world.isHeldUp name = true)) →
      world.lock.waiters.count = 0 := by
    intro hnone
    have hempty : {name | world.IsAcquiring name ∧ world.isHeldUp name = true} = ∅ :=
      Set.eq_empty_iff_forall_notMem.mpr hnone
    rw [hempty, Set.encard_empty, Nat.cast_eq_zero] at hcount
    exact UInt64.toNat_inj.mp hcount
  refine ⟨hcount, hzero, ?_⟩
  rw [Lock.isControllerWaiting, Bool.or_eq_true, Bool.not_eq_true']
  refine or_congr ⟨fun hset ↦ ?_, ?_⟩ Iff.rfl
  · apply Classical.byContradiction
    intro hnone
    rw [Waiters.isSet, hzero fun name hname ↦ hnone ⟨name, hname⟩] at hset
    cases hset
  · rintro ⟨name, hname, _⟩
    exact h.waiters_isSet (h.isCounted_iff.mpr hname)

/-- Of three threads that are blocked, one to become the worker, one for a guard and one, which is
the worker, to close its window, the second alone is counted. -/
theorem one_waiter_among_three_blocked :
    ∃ world : World Unit, world.IsSettled .checked ∧
      world.lock.mutex.queue = ["third", "other", "worker"] ∧ world.lock.waiters.count = 1 ∧
      {name | world.IsAcquiring name ∧ world.isHeldUp name = true}.encard = 1 := by
  let start : World Unit := { lock := .standard .checked () }
  let moves : List (Move Unit) :=
    [.call "third" .adopt, .call "worker" .adopt, .step "worker", .step "third",
      .call "worker" .openWindow, .call "holder" .tryAcquire, .call "other" .acquire,
      .step "other", .call "worker" .closeWindow, .step "worker"]
  have hplay : ∃ ready ∈ start.play? .checked moves, ready.2.IsSettled .checked ∧
      ready.2.lock.mutex.queue = ["third", "other", "worker"] ∧
      ready.2.lock.waiters.count = 1 := by
    decide +kernel
  obtain ⟨⟨turns, world⟩, hturns, hsettled, hqueue, hcount⟩ := hplay
  have hreach : Reachable .checked world :=
    (run_of_play? hturns).reachable ⟨.standard .checked (), rfl⟩
  have hblocked := ((waiters_are_acquiring_threads hreach).2.2.2 hsettled).1
  rw [hcount] at hblocked
  exact ⟨world, hsettled, hqueue, hcount, hblocked.symm⟩

end

end YieldLock
