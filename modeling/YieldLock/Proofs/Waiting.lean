import YieldLock.Proofs.Ownership

/-!
# Who waits

The queue of the mutex holds threads that need the lock and do not have it, each
once, and the number of waiters is the number of threads that are inside an
acquisition. Main statements: `Reachable.inLine` for the queue, and
`Reachable.waiters_isSet`, the signal is up as long as such a thread is counted.
-/

namespace YieldLock

variable {σ : Type}

namespace Mutex

@[simp] theorem queue_giveBackMany (mutex : Mutex) (thread : Thread) (count : Nat) :
    (mutex.giveBackMany thread count).queue = mutex.queue := by
  induction count generalizing mutex with
  | zero => rfl
  | succ count ih => rw [giveBackMany, ih, queue_giveBack]

@[simp] theorem queue_take (mutex : Mutex) (thread : Thread) :
    (mutex.take thread).queue = mutex.queue.erase thread := rfl

/-- Levels of a thread may have been given back, and nobody came or went. -/
structure Lowers (before after : Mutex) (thread : Thread) : Prop where
  queue : after.queue = before.queue
  depth : after.depth thread ≤ before.depth thread

section

variable (mutex : Mutex) (thread : Thread)

theorem lowers_refl : mutex.Lowers mutex thread := ⟨rfl, Nat.le_refl _⟩

theorem lowers_giveBack : mutex.Lowers (mutex.giveBack thread) thread where
  queue := queue_giveBack mutex thread
  depth := by
    rw [depth_giveBack_self]
    exact Nat.sub_le ..

theorem lowers_giveBackIf (holds : Bool) :
    mutex.Lowers (mutex.giveBackIf thread holds) thread := by
  cases holds with
  | false => exact mutex.lowers_refl thread
  | true => exact mutex.lowers_giveBack thread

theorem lowers_giveBackMany (count : Nat) :
    mutex.Lowers (mutex.giveBackMany thread count) thread where
  queue := queue_giveBackMany mutex thread count
  depth := by
    rw [depth_giveBackMany_self]
    exact Nat.sub_le ..

end

end Mutex

namespace Roster

variable {α : Type} [Inhabited α]

/-- Setting an entry that counts as much as the old one leaves the count as it was. -/
theorem count_set_of_eq (roster : Roster α) {p : α → Bool} (hp : p default = false)
    {thread : Thread} {entry : α} (h : p entry = p (roster.get thread)) :
    (roster.set thread entry).count p = roster.count p := by
  have hcount := roster.count_set p hp thread entry
  rw [h] at hcount
  omega

/-- A thread whose entry counts makes the count positive. -/
theorem count_pos (roster : Roster α) {p : α → Bool} (hp : p default = false) {thread : Thread}
    (h : p (roster.get thread) = true) : 0 < roster.count p := by
  have hcount := roster.count_set p hp thread default
  rw [if_pos h, if_neg (by rw [hp]; exact Bool.false_ne_true)] at hcount
  omega

omit [Inhabited α] in
theorem count_lt_of_length_lt {roster : Roster α} {bound : Nat} (p : α → Bool)
    (h : roster.entries.length < bound) : roster.count p < bound :=
  Nat.lt_of_le_of_lt List.countP_le_length h

end Roster

namespace ThreadState

variable {build : Build} {now : Nat} {me other : Thread} {lock : Lock σ} {self : ThreadState σ}
  {call? : Option (Call σ)} {effect : Effect σ}

/-- What a step of a thread does to the queue: nothing, or the thread joins its end because it
needs the lock and cannot take it, or the thread takes the lock and leaves the queue. -/
inductive QueueStep (me : Thread) (lock : Lock σ) (self : ThreadState σ) (effect : Effect σ) :
    Prop where
  | keeps (hlowers : lock.mutex.Lowers effect.lock.mutex me)
      (haway : self.activity.wantsLock = false)
  | joins (hlock : effect.lock = { lock with mutex := lock.mutex.wait me })
      (hself : effect.self = self) (hwants : self.activity.wantsLock = true)
      (hheld : lock.mutex.canTake me = false) (hnew : me ∉ lock.mutex.queue)
  | takes (hqueue : effect.lock.mutex.queue = lock.mutex.queue.erase me)
      (hfree : lock.mutex.canTake me = true)
      (hgone : effect.self.activity.wantsLock = false)

theorem Rule.queueStep (rule : Rule build now me lock self call? effect) :
    QueueStep me lock self effect := by
  have hkeeps := lock.mutex.lowers_refl me
  cases rule with
  | park hbusy hwants hheld hnew =>
    exact .joins rfl rfl (by rw [hbusy]; exact hwants) hheld hnew
  | tryTake _ hfree | obtain _ hfree | reentered _ hfree | adoptWon _ hfree =>
    exact .takes rfl hfree rfl
  | retake _ hfree | close _ hfree =>
    exact .takes (by rw [lock_check]; rfl) hfree (wantsLock_check ..)
  | obtainUnmatched _ hfree | adoptLost _ hfree =>
    exact .takes (by rw [lock_fail, Mutex.queue_giveBack, Mutex.queue_take]) hfree
      (wantsLock_fail ..)
  | pollNested hbusy _ _ _ _ hheld =>
    have hdepth : 0 < (lock.mutex.giveBack me).depth me := of_decide_eq_true hheld
    rw [Mutex.depth_giveBack_self] at hdepth
    have hfree : lock.mutex.canTake me = true :=
      Mutex.canTake_of_isHeldBy (decide_eq_true (by omega))
    exact .takes (by rw [lock_answer, Mutex.queue_take, Mutex.queue_giveBack]) hfree rfl
  | release hstands | pollSleep hstands =>
    exact .keeps (lock.mutex.lowers_giveBack me) (by rw [hstands]; rfl)
  | openNested hstands | openWindow hstands | giveUp hstands =>
    exact .keeps (lock.mutex.lowers_giveBackIf me _) (by rw [hstands]; rfl)
  | giveUpNested hbusy =>
    exact .keeps (by rw [lock_fail]; exact lock.mutex.lowers_giveBackIf me _) (by rw [hbusy]; rfl)
  | finishBegin hidle =>
    exact .keeps (lock.mutex.lowers_giveBackMany me _) (by rw [hidle]; rfl)
  | finishEnded hidle =>
    exact .keeps (by rw [lock_conclude]; exact lock.mutex.lowers_giveBackMany me _)
      (by rw [hidle]; rfl)
  | dropEnded hstands | mark hstands =>
    exact .keeps (by rw [lock_conclude]; exact hkeeps) (by rw [hstands]; rfl)
  | startLate hbusy => exact .keeps (by rw [lock_fail]; exact hkeeps) (by rw [hbusy]; rfl)
  | recheck hstands | closeRunning hstands =>
    exact .keeps (by rw [lock_check]; exact hkeeps) (by rw [hstands]; rfl)
  | request hidle =>
    exact .keeps (by rw [lock_answer, Lock.lock_requestShutdown]; exact hkeeps)
      (by rw [hidle]; rfl)
  | tearDownFailed hbusy =>
    exact .keeps (by rw [lock_fail]; exact hkeeps) (by rw [hbusy]; rfl)
  | _ hstands => exact .keeps hkeeps (by rw [hstands]; rfl)

end ThreadState

section

variable {build : Build} {world next : World σ} {move : Move σ} {events : List (Event σ)}

/-- The queue of a world holds threads that need the lock and hold no level of it, each once. -/
structure World.InLine (world : World σ) : Prop where
  nodup : world.lock.mutex.queue.Nodup
  waits : ∀ name ∈ world.lock.mutex.queue,
    (world.thread name).activity.wantsLock = true ∧ world.lock.mutex.depth name = 0

/-- A thread that does not need the lock is not in the queue. -/
theorem World.InLine.not_mem_of_away (h : world.InLine) {name : Thread}
    (haway : (world.thread name).activity.wantsLock = false) : name ∉ world.lock.mutex.queue := by
  intro hmem
  rw [(h.waits name hmem).1] at haway
  cases haway

/-- The owner is not in the queue. -/
theorem World.InLine.not_mem_of_owner (h : world.InLine) {name : Thread}
    (hheld : world.lock.mutex.isHeldBy name = true) : name ∉ world.lock.mutex.queue := by
  intro hmem
  rw [Mutex.isHeldBy, (h.waits name hmem).2] at hheld
  cases hheld

theorem World.InLine.step {name : Thread} {call? : Option (Call σ)} {effect : Effect σ}
    (h : world.InLine)
    (rule : ThreadState.Rule build world.clock name world.lock (world.thread name) call? effect) :
    (world.after name effect).InLine := by
  have hothers (other : Thread) (hne : other ≠ name) (hmem : other ∈ world.lock.mutex.queue) :
      ((world.after name effect).thread other).activity.wantsLock = true ∧
        effect.lock.mutex.depth other = 0 := by
    rw [thread_after_of_ne world effect hne, rule.mutex_depth_other hne]
    exact h.waits other hmem
  obtain ⟨hlowers, haway⟩ | ⟨hlock, hself, hwants, hheld, hnew⟩ | ⟨hqueue, hfree, hgone⟩ :=
    rule.queueStep
  · refine ⟨?_, fun other hmem ↦ ?_⟩
    · rw [lock_after, hlowers.queue]
      exact h.nodup
    · rw [lock_after, hlowers.queue] at hmem
      refine hothers other ?_ hmem
      rintro rfl
      exact h.not_mem_of_away haway hmem
  · refine ⟨?_, fun other hmem ↦ ?_⟩
    · rw [lock_after, hlock, Mutex.wait, List.nodup_append]
      refine ⟨h.nodup, List.pairwise_singleton _ name, fun other hmem last hlast ↦ ?_⟩
      rw [List.mem_singleton.mp hlast]
      rintro rfl
      exact hnew hmem
    · rw [lock_after, hlock, Mutex.wait, List.mem_append, List.mem_singleton] at hmem
      by_cases hname : other = name
      · subst other
        rw [Mutex.canTake, Bool.or_eq_false_iff] at hheld
        rw [thread_after_self, hself, lock_after, hlock, Mutex.depth_wait]
        exact ⟨hwants, Mutex.isHeldBy_eq_false_iff.mp hheld.2⟩
      · exact hothers other hname (hmem.resolve_right hname)
  · refine ⟨?_, fun other hmem ↦ ?_⟩
    · rw [lock_after, hqueue]
      exact h.nodup.erase name
    · rw [lock_after, hqueue, h.nodup.mem_erase_iff] at hmem
      exact hothers other hmem.1 hmem.2

/-- In every reachable world the queue is in order. -/
theorem Reachable.inLine (h : Reachable build world) : world.InLine := by
  refine h.induct (P := World.InLine) ?_ ?_
  · intro start hnew
    obtain ⟨value, config, teardown, hlock⟩ := hnew.lock.exists_eq
    have hempty : start.lock.mutex.queue = [] := by rw [hlock]
    refine ⟨?_, fun name hmem ↦ ?_⟩
    · rw [hempty]
      exact List.nodup_nil
    · rw [hempty] at hmem
      cases hmem
  · intro world move next events hreach ih change
    have hunknown {name : Thread} (hname : world.threads.contains name = false) :
        name ∉ world.lock.mutex.queue := by
      apply ih.not_mem_of_away
      rw [World.thread, Roster.get_of_not_contains hname]
      rfl
    cases change with
    | enter name title hname =>
      refine ⟨ih.nodup, fun other hmem ↦ ?_⟩
      rw [World.thread_enlist, if_neg]
      · exact ih.waits other hmem
      · rintro rfl
        exact hunknown hname hmem
    | pass => exact ⟨ih.nodup, ih.waits⟩
    | spawnRefused => exact ih
    | own name call? effect _ rule => exact ih.step rule
    | spawn name child hidle _ hchild =>
      refine ⟨ih.nodup, fun other hmem ↦ ?_⟩
      have hother : other ≠ name := by
        rintro rfl
        exact ih.not_mem_of_away (by rw [hidle]; rfl) hmem
      have hborn : other ≠ child := by
        rintro rfl
        exact hunknown hchild hmem
      simp only [World.thread, Roster.get_set, if_neg hother, if_neg hborn]
      exact ih.waits other hmem

/-- A thread that is counted needs the lock. -/
theorem Activity.isCounted_of_away {activity : Activity σ} (h : activity.wantsLock = false) :
    activity.isCounted = false := by
  cases activity with
  | idle | finished => rfl
  | busy call point =>
    cases point with
    | waiting => cases h
    | _ => rfl

namespace ThreadState

variable (lock : Lock σ) (self : ThreadState σ) (call : Call σ) (entries : List Entry)

theorem isCounted_fail (panic : Panic) :
    (fail lock self call panic entries).self.activity.isCounted = false :=
  Activity.isCounted_of_away (wantsLock_fail ..)

theorem isCounted_check (me : Thread) :
    (check me lock self call entries).self.activity.isCounted = false :=
  Activity.isCounted_of_away (wantsLock_check ..)

theorem isCounted_conclude : (conclude lock self call).self.activity.isCounted = false :=
  Activity.isCounted_of_away (wantsLock_conclude ..)

end ThreadState

open ThreadState in
/-- How a step of a thread changes the number of waiters: as it changes its own being counted. -/
theorem ThreadState.Rule.waiters_change {now : Nat} {me : Thread} {lock : Lock σ}
    {self : ThreadState σ} {call? : Option (Call σ)} {effect : Effect σ}
    (rule : Rule build now me lock self call? effect) :
    effect.lock.waiters = lock.waiters ∧
        effect.self.activity.isCounted = self.activity.isCounted ∨
      effect.lock.waiters = lock.waiters.enter ∧
        self.activity.isCounted = false ∧ effect.self.activity.isCounted = true ∨
      effect.lock.waiters = lock.waiters.leave ∧
        self.activity.isCounted = true ∧ effect.self.activity.isCounted = false := by
  cases rule with
  | enter hidle => exact .inr (.inl ⟨rfl, by rw [hidle]; rfl, rfl⟩)
  | obtain hbusy => exact .inr (.inr ⟨rfl, by rw [hbusy]; rfl, rfl⟩)
  | obtainUnmatched hbusy =>
    exact .inr (.inr ⟨by rw [lock_fail], by rw [hbusy]; rfl, isCounted_fail ..⟩)
  | startLate hbusy | adoptLost hbusy | giveUpNested hbusy =>
    exact .inl ⟨by rw [lock_fail], by rw [isCounted_fail, hbusy]; rfl⟩
  | closeRunning hstands | recheck hstands | retake hstands | close hstands =>
    exact .inl ⟨by rw [lock_check], by rw [isCounted_check, hstands]; rfl⟩
  | dropEnded hstands | finishEnded hstands | mark hstands =>
    exact .inl ⟨by rw [lock_conclude], by rw [isCounted_conclude, hstands]; rfl⟩
  | request hidle => exact .inl ⟨by rw [lock_answer, Lock.lock_requestShutdown], by rw [hidle]; rfl⟩
  | tearDownFailed hbusy =>
    exact .inl ⟨by rw [lock_fail], by rw [isCounted_fail, hbusy]; rfl⟩
  | park => exact .inl ⟨rfl, rfl⟩
  | _ hstands => exact .inl ⟨rfl, by rw [hstands]; rfl⟩

/-- A count that is not the largest word goes on without wrapping. -/
theorem toNat_add_one {count : UInt64} (h : count.toNat + 1 < UInt64.size) :
    (count + 1).toNat = count.toNat + 1 := by
  rw [UInt64.toNat_add, UInt64.toNat_one, Nat.mod_eq_of_lt h]

/-- How many threads are inside an acquisition that is counted. -/
def World.counted (world : World σ) : Nat :=
  world.threads.count fun self ↦ self.activity.isCounted

theorem World.counted_after (world : World σ) (name : Thread) (effect : Effect σ) :
    (world.after name effect).counted +
        (if (world.thread name).activity.isCounted then 1 else 0) =
      world.counted + (if effect.self.activity.isCounted then 1 else 0) :=
  world.threads.count_set (fun self ↦ self.activity.isCounted) rfl name effect.self

/-- The number of waiters is the number of threads that are counted. -/
theorem Reachable.waiters_count (h : Reachable build world) :
    world.lock.waiters.count = UInt64.ofNat world.counted := by
  refine h.induct (P := fun world ↦ world.lock.waiters.count = UInt64.ofNat world.counted) ?_ ?_
  · intro start hnew
    obtain ⟨value, config, teardown, hlock⟩ := hnew.lock.exists_eq
    rw [World.counted, hlock, hnew.threads]
    rfl
  · intro world move next events _ ih change
    cases change with
    | enter name title hname =>
      have hdefault : world.threads.get name = default := Roster.get_of_not_contains hname
      rw [World.counted, World.enlist, Roster.count_set_of_eq _ rfl (by rw [hdefault]; rfl)]
      exact ih
    | pass => exact ih
    | spawnRefused => exact ih
    | own name call? effect _ rule =>
      have hcount := world.counted_after name effect
      rw [World.lock_after]
      obtain ⟨hwaiters, hsame⟩ | ⟨hwaiters, hbefore, hafter⟩ | ⟨hwaiters, hbefore, hafter⟩ :=
        rule.waiters_change
      · rw [hsame] at hcount
        rw [hwaiters, ih, Nat.add_right_cancel hcount]
      -- The count is a word that may wrap, so both sides are changed by the same word.
      · rw [if_pos hafter, hbefore] at hcount
        have hmore : (world.after name effect).counted = world.counted + 1 := hcount
        rw [hwaiters, hmore, UInt64.ofNat_add, Waiters.enter, ih]
        rfl
      · rw [if_pos hbefore, hafter] at hcount
        have hfewer : world.counted = (world.after name effect).counted + 1 := hcount.symm
        rw [hwaiters, Waiters.leave, ih, hfewer, UInt64.ofNat_add]
        exact UInt64.add_sub_cancel _ _
    | spawn name child hidle hne hchild =>
      have hdefault : world.threads.get child = default := Roster.get_of_not_contains hchild
      have hparent : (world.threads.get name).activity = .idle := hidle
      simp only [World.counted]
      rw [Roster.count_set_of_eq _ rfl, Roster.count_set_of_eq _ rfl]
      · exact ih
      · rw [hdefault]
        rfl
      · rw [Roster.get_set_of_ne _ _ (Ne.symm hne)]
        rfl

/-- The word is not too short for the number of threads that are counted. -/
theorem Reachable.waiters_toNat (h : Reachable build world) :
    world.lock.waiters.count.toNat = world.counted := by
  have hlt : world.counted < UInt64.size := Roster.count_lt_of_length_lt _ h.length_lt
  rw [h.waiters_count, UInt64.toNat_ofNat_of_lt' hlt]

/-- The signal of the waiters is up as long as a thread is counted. -/
theorem Reachable.waiters_isSet (h : Reachable build world) {name : Thread}
    (hcounted : (world.thread name).activity.isCounted = true) :
    world.lock.waiters.isSet = true := by
  have hpos : 0 < world.counted :=
    world.threads.count_pos (p := fun self ↦ self.activity.isCounted) rfl hcounted
  rw [Waiters.isSet, decide_eq_true_eq, UInt64.lt_iff_toNat_lt, h.waiters_toNat]
  exact hpos

end

end YieldLock
