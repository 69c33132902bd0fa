import YieldLock.Proofs.Uncontended

/-!
# What the other threads do not notice

A thread without a session neither acts on the signal that shutdown lowers nor on
the number of yields. So two locks that are the same but for these two are alike
to it, and two worlds that are alike to all threads but one allow these threads
the same moves. Main statements: `ThreadState.invoke?_alike` and
`ThreadState.step?_alike` for one thread, and `World.Alike.move` for a world.
-/

namespace YieldLock

variable {σ : Type}

/-- The locks are the same but for the signal that shutdown lowers and the number of yields. -/
def Lock.Alike (left right : Lock σ) : Prop :=
  ∃ (keepAlive : Signal) (yieldCalls : UInt64),
    right = { left with keepAlive, stats := { left.stats with yieldCalls } }

/-- The steps do the same to their thread, and leave locks that are alike. -/
structure Effect.Alike (left right : Effect σ) : Prop where
  self : right.self = left.self
  lock : left.lock.Alike right.lock

namespace Lock.Alike

variable {left middle right : Lock σ}

theorem refl (lock : Lock σ) : lock.Alike lock := ⟨lock.keepAlive, lock.stats.yieldCalls, rfl⟩

theorem symm (h : left.Alike right) : right.Alike left := by
  obtain ⟨keepAlive, yieldCalls, rfl⟩ := h
  exact ⟨left.keepAlive, left.stats.yieldCalls, rfl⟩

theorem trans (h : left.Alike middle) (hmore : middle.Alike right) : left.Alike right := by
  obtain ⟨_, _, rfl⟩ := h
  obtain ⟨keepAlive, yieldCalls, rfl⟩ := hmore
  exact ⟨keepAlive, yieldCalls, rfl⟩

/-- The signal may be lowered on either side. -/
theorem of_lowered (lock : Lock σ) (keepAlive : Signal) : lock.Alike { lock with keepAlive } :=
  ⟨keepAlive, lock.stats.yieldCalls, rfl⟩

theorem requestShutdown (h : left.Alike right) (name : Thread) :
    (left.requestShutdown name).2.2.Alike (right.requestShutdown name).2.2 := by
  obtain ⟨_, yieldCalls, rfl⟩ := h
  rw [lock_requestShutdown, lock_requestShutdown]
  exact ⟨left.keepAlive.clear, yieldCalls, rfl⟩

/-- Locks that are alike, both with the signal lowered, differ in the number of yields at most. -/
theorem eq_of_lowered (h : left.Alike right) (hleft : left.keepAlive.isSet = false)
    (hright : right.keepAlive.isSet = false) :
    right = { left with stats := { left.stats with yieldCalls := right.stats.yieldCalls } } := by
  obtain ⟨⟨_⟩, _, rfl⟩ := h
  obtain ⟨_, _, _, _, ⟨_⟩, _⟩ := left
  cases hleft
  cases hright
  rfl

end Lock.Alike

namespace ThreadState

variable {build : Build} {name : Thread} {left right : Lock σ} {self : ThreadState σ}

/-- A thread that needs the lock takes it or waits for it in the same way. -/
theorem withLock?_alike (h : left.Alike right) {next other : Lock σ → Effect σ}
    (hnext : ∀ taken after, taken.Alike after → (next taken).Alike (other after)) :
    Option.Rel Effect.Alike (withLock? name left self next) (withLock? name right self other) := by
  obtain ⟨keepAlive, yieldCalls, rfl⟩ := h
  unfold withLock? park?
  cases left.mutex.canTake name with
  | true => exact .some (hnext _ _ ⟨keepAlive, yieldCalls, rfl⟩)
  | false =>
    cases left.mutex.isWaiting name with
    | true => exact .none
    | false => exact .some ⟨rfl, keepAlive, yieldCalls, rfl⟩

theorem fail_alike (h : left.Alike right) (call : Call σ) (panic : Panic)
    (entries : List Entry) :
    (fail left self call panic entries).Alike (fail right self call panic entries) := by
  refine ⟨?_, ?_⟩
  · cases call <;> rfl
  · rwa [lock_fail, lock_fail]

theorem conclude_alike (h : left.Alike right) (call : Call σ) :
    (conclude left self call).Alike (conclude right self call) := by
  refine ⟨?_, ?_⟩
  · cases call <;> rfl
  · rwa [lock_conclude, lock_conclude]

/-- A waiter gets the lock in the same way. -/
theorem obtain_alike (now : Nat) (watch : Stopwatch) (h : left.Alike right) (call : Call σ) :
    (obtain build now watch name self call left).Alike
      (obtain build now watch name self call right) := by
  obtain ⟨keepAlive, yieldCalls, rfl⟩ := h
  unfold obtain
  cases hmatched : build.isChecked && !left.waiters.isMatched with
  | true =>
    simp only [if_true]
    exact fail_alike ⟨keepAlive, yieldCalls, rfl⟩ _ _ _
  | false =>
    exact ⟨rfl, keepAlive, yieldCalls, rfl⟩

/-- A thread becomes the worker, or comes too late, in the same way. -/
theorem claim_alike (h : left.Alike right) (call : Call σ) :
    (claim name self call left).Alike (claim name self call right) := by
  obtain ⟨keepAlive, yieldCalls, rfl⟩ := h
  unfold claim
  cases hworker : left.worker.isSome with
  | true =>
    simp only [if_true]
    exact fail_alike ⟨keepAlive, yieldCalls, rfl⟩ _ _ _
  | false =>
    exact ⟨rfl, keepAlive, yieldCalls, rfl⟩

/-- A thread without a session makes the same first step at locks that are alike. -/
theorem invoke?_alike (now : Nat) (h : left.Alike right) (hsession : self.session = none)
    (call : Call σ) :
    Option.Rel Effect.Alike (self.invoke? build now name left call)
      (self.invoke? build now name right call) := by
  obtain ⟨keepAlive, yieldCalls, rfl⟩ := h
  unfold invoke?
  cases self.permits call with
  | false => exact .none
  | true =>
    cases call with
    | acquire =>
      change Option.Rel _ (if left.isWorker name then _ else _)
        (if left.isWorker name then _ else _)
      cases left.isWorker name with
      | true | false => exact .some ⟨rfl, keepAlive, yieldCalls, rfl⟩
    | tryAcquire =>
      change Option.Rel _ (if left.mutex.canTake name then _ else _)
        (if left.mutex.canTake name then _ else _)
      cases left.mutex.canTake name with
      | true | false => exact .some ⟨rfl, keepAlive, yieldCalls, rfl⟩
    | adopt =>
      change Option.Rel _ (if left.worker.isSome then _ else _)
        (if left.worker.isSome then _ else _)
      cases left.worker.isSome with
      | true | false => exact .some ⟨rfl, keepAlive, yieldCalls, rfl⟩
    | read access | write access =>
      simp only [Bool.not_true, Bool.false_eq_true, if_false]
      unfold reach
      rw [hsession]
      cases access with
      | guard | session => exact .some ⟨rfl, keepAlive, yieldCalls, rfl⟩
    | requestShutdown =>
      exact .some ⟨rfl, Lock.Alike.requestShutdown ⟨keepAlive, yieldCalls, rfl⟩ name⟩
    | release | join => exact .some ⟨rfl, keepAlive, yieldCalls, rfl⟩
    | yieldNow | openWindow | closeWindow | endSession =>
      simp only [Bool.not_true, Bool.false_eq_true, if_false, hsession]
      exact .none
    | dropSession | unwindSession | finish =>
      simp only [Bool.not_true, Bool.false_eq_true, if_false, leave, hsession]
      exact .some (conclude_alike ⟨keepAlive, yieldCalls, rfl⟩ _)
    | spawn | start => exact .none

/-- A thread without a session goes on in the same way at locks that are alike. -/
theorem step?_alike (now : Nat) (h : left.Alike right) (hsound : self.IsSound)
    (hsession : self.session = none) :
    Option.Rel Effect.Alike (self.step? build now name left)
      (self.step? build now name right) := by
  unfold step?
  cases hactivity : self.activity with
  | idle | finished => exact .none
  | busy call point =>
    cases point with
    | waiting watch =>
      exact withLock?_alike h fun taken after htaken ↦ obtain_alike now watch htaken call
    | reentering => exact withLock?_alike h fun taken after htaken ↦ ⟨rfl, htaken⟩
    | adopting => exact withLock?_alike h fun taken after htaken ↦ claim_alike htaken call
    | starting =>
      have hworker : right.worker = left.worker := by
        obtain ⟨_, _, rfl⟩ := h
        rfl
      simp only [hworker]
      cases left.worker.isSome with
      | true => exact .some (fail_alike h _ _ _)
      | false => exact .some ⟨rfl, h⟩
    | joining => exact .none
    | _ =>
      obtain hcall | hpoint | hpoint | ⟨_, hpoint⟩ := hsound.point_of_none hsession hactivity
      · have hplace := hsound.place _ _ hactivity
        rw [hcall] at hplace
        cases hplace.1
      · cases hpoint
      · cases hpoint
      · cases hpoint

end ThreadState

namespace World

/-- The worlds are the same for all threads but one, and they have room for the same threads. -/
structure SameOthers (me : Thread) (left right : World σ) : Prop where
  thread : ∀ name, name ≠ me → right.thread name = left.thread name
  contains : ∀ name, right.threads.contains name = left.threads.contains name
  length : right.threads.entries.length = left.threads.entries.length
  clock : right.clock = left.clock

/-- The worlds are the same for all threads but one, and to these their locks are alike. -/
structure Alike (me : Thread) (left right : World σ) : Prop extends SameOthers me left right where
  lock : left.lock.Alike right.lock

variable {build : Build} {me name : Thread} {left middle right next other : World σ}

namespace SameOthers

theorem refl (me : Thread) (world : World σ) : SameOthers me world world :=
  ⟨fun _ _ ↦ rfl, fun _ ↦ rfl, rfl, rfl⟩

theorem symm (h : SameOthers me left right) : SameOthers me right left :=
  ⟨fun name hname ↦ (h.thread name hname).symm, fun name ↦ (h.contains name).symm,
    h.length.symm, h.clock.symm⟩

theorem trans (h : SameOthers me left middle) (hmore : SameOthers me middle right) :
    SameOthers me left right :=
  ⟨fun name hname ↦ (hmore.thread name hname).trans (h.thread name hname),
    fun name ↦ (hmore.contains name).trans (h.contains name), hmore.length.trans h.length,
    hmore.clock.trans h.clock⟩

theorem hasRoomFor (h : SameOthers me left right) (names : List Thread) :
    right.hasRoomFor names = left.hasRoomFor names := by
  unfold World.hasRoomFor
  simp only [h.contains, h.length]

/-- What a thread does to its own entry no other thread notices. -/
theorem after_self (world : World σ) (hknown : world.threads.contains me = true)
    (effect : Effect σ) : SameOthers me world (world.after me effect) where
  thread _ hname := thread_after_of_ne world effect hname
  contains name := by
    rw [after, Roster.contains_set]
    by_cases hname : name = me
    · rw [hname, hknown, Bool.or_true]
    · rw [beq_eq_false_iff_ne.mpr hname, Bool.false_or]
  length := by
    rw [after, Roster.length_set, List.countP_singleton, hknown]
    rfl
  clock := rfl

/-- The same entry on both sides keeps the worlds the same. -/
theorem set (h : SameOthers me left right) (entry : ThreadState σ)
    (hnext : next.threads = left.threads.set name entry) (hclock : next.clock = left.clock)
    (hother : other.threads = right.threads.set name entry) (hclock' : other.clock = right.clock) :
    SameOthers me next other where
  thread third hthird := by
    rw [World.thread, World.thread, hnext, hother, Roster.get_set, Roster.get_set]
    split
    · rfl
    · exact h.thread third hthird
  contains third := by rw [hnext, hother, Roster.contains_set, Roster.contains_set, h.contains]
  length := by
    rw [hnext, hother, Roster.length_set, Roster.length_set, h.length]
    simp only [h.contains]
  clock := by rw [hclock, hclock', h.clock]

end SameOthers

namespace Alike

theorem refl (me : Thread) (world : World σ) : Alike me world world :=
  ⟨.refl me world, .refl world.lock⟩

theorem symm (h : Alike me left right) : Alike me right left :=
  ⟨h.toSameOthers.symm, h.lock.symm⟩

theorem trans (h : Alike me left middle) (hmore : Alike me middle right) : Alike me left right :=
  ⟨h.toSameOthers.trans hmore.toSameOthers, h.lock.trans hmore.lock⟩

theorem after_self (world : World σ) (hknown : world.threads.contains me = true)
    {effect : Effect σ} (hlock : world.lock.Alike effect.lock) :
    Alike me world (world.after me effect) :=
  ⟨.after_self world hknown effect, hlock⟩

/-- Steps of another thread that are alike lead to worlds that are alike. -/
theorem after (h : Alike me left right) {effect effect' : Effect σ}
    (heffect : effect.Alike effect') :
    Alike me (left.after name effect) (right.after name effect') :=
  ⟨h.toSameOthers.set effect.self rfl rfl
    (congrArg (right.threads.set name) heffect.self) rfl, heffect.lock⟩

/-- An effect that is offered on one side is offered on the other. -/
theorem exists_after (h : Alike me left right) {effect? effect'? : Option (Effect σ)}
    (hrel : Option.Rel Effect.Alike effect? effect'?)
    {events : List (Event σ)}
    (hmove : effect?.map (fun effect ↦ (left.after name effect, effect.events)) =
      some (next, events)) :
    ∃ other events', effect'?.map (fun effect ↦ (right.after name effect, effect.events)) =
      some (other, events') ∧ Alike me next other := by
  cases hrel with
  | none => cases hmove
  | some heffect =>
    cases hmove
    exact ⟨_, _, rfl, h.after heffect⟩

end Alike

/-- A call of another thread can be made on both sides. -/
theorem Alike.call? (h : Alike me left right) (hname : name ≠ me)
    (hsession : (left.thread name).session = none) {call : Call σ}
    {events : List (Event σ)} (hcall : left.call? build name call = some (next, events)) :
    ∃ other events', right.call? build name call = some (other, events') ∧
      Alike me next other := by
  cases hspawn : call.isSpawn with
  | false =>
    rw [call?_of_not_spawn _ _ hspawn] at hcall ⊢
    rw [h.hasRoomFor]
    split at hcall
    · rw [if_pos ‹_›, h.thread name hname, h.clock]
      exact h.exists_after (ThreadState.invoke?_alike left.clock h.lock hsession call) hcall
    · cases hcall
  | true =>
    cases call with
    | spawn child =>
      unfold World.call? at hcall ⊢
      simp only [h.thread name hname, h.contains, h.hasRoomFor] at hcall ⊢
      split at hcall
      · rename_i hspawns
        rw [if_pos hspawns]
        have hconfig : right.lock.config = left.lock.config := by
          obtain ⟨_, _, hlock⟩ := h.lock
          rw [hlock]
        rw [Option.some_inj] at hcall
        unfold spawn at hcall ⊢
        simp only [h.thread name hname, hconfig] at hcall ⊢
        by_cases htitle : left.lock.config.workerName.toList.contains '\x00' = true
        · rw [if_pos htitle] at hcall ⊢
          cases hcall
          exact ⟨_, _, rfl, h⟩
        · rw [if_neg htitle] at hcall ⊢
          cases hcall
          refine ⟨_, _, rfl, ?_, h.lock⟩
          have hborn : SameOthers me
              { left with threads := left.threads.set child (newborn left.lock.config.workerName) }
              { right with
                threads := right.threads.set child (newborn left.lock.config.workerName) } :=
            h.toSameOthers.set _ rfl rfl rfl rfl
          exact hborn.set _ rfl rfl rfl rfl
      · cases hcall
    | _ => cases hspawn

/-- A thread that waits for another has no step as long as the other is not at its end. -/
theorem join?_of_lives {child : Thread}
    (h : (left.thread child).activity.isFinished = false) : left.join? name child = none := by
  unfold join?
  cases hactivity : (left.thread child).activity with
  | idle | busy => rfl
  | finished =>
    rw [hactivity] at h
    cases h

/-- A thread that waits for another than the one is answered on both sides. -/
theorem Alike.join? (h : Alike me left right) (hname : name ≠ me) (child : Thread)
    (hlives : (left.thread me).activity.isFinished = false) :
    left.join? name child = none ∨
      Option.Rel Effect.Alike (left.join? name child) (right.join? name child) := by
  by_cases hchild : child = me
  · subst hchild
    exact .inl (join?_of_lives hlives)
  · right
    unfold World.join?
    rw [h.thread child hchild, h.thread name hname]
    split
    · exact .some ⟨rfl, h.lock⟩
    · exact .none

/-- A step of another thread can be made on both sides, unless it waits for the one thread. -/
theorem Alike.step? (h : Alike me left right) (hname : name ≠ me)
    (hsound : (left.thread name).IsSound) (hsession : (left.thread name).session = none)
    (hlives : (left.thread me).activity.isFinished = false) {events : List (Event σ)}
    (hstep : left.step? build name = some (next, events)) :
    ∃ other events', right.step? build name = some (other, events') ∧ Alike me next other := by
  unfold World.step? at hstep ⊢
  simp only [h.thread name hname, h.clock] at hstep ⊢
  split at hstep
  · rename_i call child hjoins
    obtain hnone | hrel := h.join? hname child hlives
    · rw [hnone] at hstep
      cases hstep
    · exact h.exists_after hrel hstep
  · exact h.exists_after (ThreadState.step?_alike left.clock h.lock hsound hsession) hstep

/-- A move of another thread can be made on both sides, as long as the one thread lives. -/
theorem Alike.move? (h : Alike me left right) (hreach : Reachable build left)
    (hworker : left.lock.worker = some me)
    (hlives : (left.thread me).activity.isFinished = false) {move : Move σ}
    (hother : move.thread? ≠ some me) {events : List (Event σ)}
    (hmove : left.move? build move = some (next, events)) :
    ∃ other events', right.move? build move = some (other, events') ∧ Alike me next other := by
  cases move with
  | enter name title =>
    have hname : name ≠ me := fun heq ↦ hother (congrArg some heq)
    unfold World.move? at hmove ⊢
    simp only [h.contains, h.hasRoomFor] at hmove ⊢
    split at hmove
    · rw [if_pos ‹_›]
      cases hmove
      exact ⟨_, _, rfl, h.toSameOthers.set _ rfl rfl rfl rfl, h.lock⟩
    · cases hmove
  | call name call =>
    have hname : name ≠ me := fun heq ↦ hother (congrArg some heq)
    exact h.call? hname (hreach.session_eq_none hworker hname) hmove
  | step name =>
    have hname : name ≠ me := fun heq ↦ hother (congrArg some heq)
    exact h.step? hname (hreach.fits name).sound (hreach.session_eq_none hworker hname) hlives hmove
  | pass nanos =>
    cases hmove
    refine ⟨_, _, rfl, ⟨h.thread, h.contains, h.length, ?_⟩, h.lock⟩
    exact congrArg (· + nanos) h.clock

end World

end YieldLock
