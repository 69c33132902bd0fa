import YieldLock.Proofs.Likeness

/-!
# What is left to do with the lock in hand

A thread that has just taken the lock still has to count, to leave the waiters, or to enter itself
as the worker, and one that is about to give it up has to count before. What others can do without
the lock commutes with all of that. Main statement: `Remainder.move?_settle`, a move of another
thread is the same before the rest is done and after it, unless it looks at what the rest changes.
-/

namespace YieldLock

variable {σ : Type}

/-- What is left for a thread that has the lock to do to the count of waiters, the counters and the
worker. What a thread without the lock may do to these meanwhile, enter as a waiter or count a
yield, comes to the same before it and after it, and it makes no other thread the worker. -/
structure Remainder (me : Thread) where
  waiters : Waiters → Waiters := id
  stats : Stats → Stats := id
  worker : Option Thread → Option Thread := id
  enter : ∀ before : Waiters, waiters before.enter = (waiters before).enter := by
    intro before
    rfl
  countYield : ∀ before : Stats, stats before.countYield = (stats before).countYield := by
    intro before
    rfl
  countHandoff : ∀ before : Stats, stats before.countHandoff = (stats before).countHandoff := by
    intro before
    rfl
  isOther : ∀ other : Thread, other ≠ me → ∀ before : Option Thread,
      (worker before == some other) = (before == some other) := by
    intro other hne before
    rfl

namespace Remainder

variable {me : Thread}

/-- A waiter that has the lock leaves the others and counts its acquisition. -/
def acquisition (me : Thread) (waited : UInt64) : Remainder me where
  waiters := Waiters.leave
  stats before := before.countAcquisition waited
  enter before := by rw [Waiters.leave_enter, Waiters.enter_leave]

/-- A thread that has the lock becomes the worker, unless there is one. -/
def adoption (me : Thread) : Remainder me where
  worker before := before.or (some me)
  isOther other hne before := by
    cases before with
    | some worker => rfl
    | none => simpa using hne.symm

/-- A worker that has the lock again counts its window. -/
def window (me : Thread) : Remainder me where
  stats := Stats.countWindow

/-- A worker that is about to give up the lock counts that it hands it over. -/
def handoff (me : Thread) : Remainder me where
  stats := Stats.countHandoff

variable (rest : Remainder me)

/-- The lock when the rest is done. -/
def apply (lock : Lock σ) : Lock σ :=
  { lock with
    waiters := rest.waiters lock.waiters
    stats := rest.stats lock.stats
    worker := rest.worker lock.worker }

/-- The step of another thread as it is when the rest is done before it. -/
def after (effect : Effect σ) : Effect σ := { effect with lock := rest.apply effect.lock }

section

open ThreadState

variable {build : Build} {now : Nat} {name : Thread} {lock : Lock σ} {self : ThreadState σ}
  {call : Call σ} {entries : List Entry}

@[simp] theorem mutex_apply : (rest.apply lock).mutex = lock.mutex := rfl

@[simp] theorem teardown_apply : (rest.apply lock).teardown = lock.teardown := rfl

@[simp] theorem keepAlive_apply : (rest.apply lock).keepAlive = lock.keepAlive := rfl

theorem isWorker_apply (hname : name ≠ me) :
    (rest.apply lock).isWorker name = lock.isWorker name := rest.isOther name hname lock.worker

theorem shouldExit_apply (hname : name ≠ me) :
    (rest.apply lock).shouldExit name = lock.shouldExit name := by
  rw [Lock.shouldExit, Lock.shouldExit, rest.isWorker_apply hname]
  rfl

theorem requestShutdown_apply (hname : name ≠ me) :
    (rest.apply lock).requestShutdown name =
      ((lock.requestShutdown name).1, (lock.requestShutdown name).2.1,
        rest.apply (lock.requestShutdown name).2.2) := by
  unfold Lock.requestShutdown
  simp only [rest.isWorker_apply hname, keepAlive_apply]
  cases hset : lock.keepAlive.take.1 with
  | false => rfl
  | true =>
    cases hworker : lock.isWorker name with
    | true | false => rfl

theorem conclude_apply : conclude (rest.apply lock) self call =
    rest.after (conclude lock self call) := by
  cases call <;> rfl

theorem fail_apply (panic : Panic) : fail (rest.apply lock) self call panic entries =
    rest.after (fail lock self call panic entries) := by
  cases call <;> rfl

theorem check_apply (hexit : (rest.apply lock).shouldExit name = lock.shouldExit name) :
    check name (rest.apply lock) self call entries =
      rest.after (check name lock self call entries) := by
  rw [check, check, hexit]
  split <;> rfl

theorem leave_apply : leave (rest.apply lock) self call = rest.after (leave lock self call) := by
  unfold leave
  split
  · rfl
  · rfl
  · exact rest.conclude_apply

theorem reach_apply (access : Access) (value : σ → σ) :
    reach (rest.apply lock) self call access
        { rest.apply lock with value := value lock.value } =
      rest.after (reach lock self call access { lock with value := value lock.value }) := by
  unfold reach
  split <;> rfl

theorem beginYield_apply (hname : name ≠ me) (session : Session) :
    beginYield build name (rest.apply lock) self session =
      rest.after (beginYield build name lock self session) := by
  unfold beginYield
  rw [rest.shouldExit_apply hname]
  cases session.phase with
  | terminated => rfl
  | yielding =>
    cases build with
    | checked | unchecked => rfl
  | running =>
    have hcount : { rest.apply lock with stats := (rest.apply lock).stats.countYield } =
        rest.apply { lock with stats := lock.stats.countYield } := by
      simp only [apply, rest.countYield]
    simp only [hcount]
    split <;> rfl

theorem openWindow_apply (session : Session) :
    openWindow build name (rest.apply lock) self session =
      rest.after (openWindow build name lock self session) := by
  unfold openWindow
  cases session.phase with
  | terminated => rfl
  | yielding =>
    cases build with
    | checked | unchecked => rfl
  | running =>
    cases hnested : build.isChecked && (lock.mutex.giveBackIf name session.holds).isHeldBy name with
    | true | false =>
      simp only [mutex_apply, hnested]
      rfl

theorem beginClose_apply (hname : name ≠ me) (session : Session) :
    beginClose build name (rest.apply lock) self session =
      rest.after (beginClose build name lock self session) := by
  unfold beginClose
  cases session.phase with
  | terminated | yielding => rfl
  | running =>
    cases build with
    | checked => rfl
    | unchecked => exact rest.check_apply (rest.shouldExit_apply hname)

theorem beginEnd_apply (session : Session) :
    beginEnd (rest.apply lock) self session = rest.after (beginEnd lock self session) := by
  unfold beginEnd
  split <;> rfl

/-- A thread makes the same first step before the rest is done and after it. -/
theorem invoke?_apply (hname : name ≠ me)
    (hworker : call = .adopt → (rest.worker lock.worker).isSome = lock.worker.isSome) :
    self.invoke? build now name (rest.apply lock) call =
      (self.invoke? build now name lock call).map rest.after := by
  unfold invoke?
  cases self.permits call with
  | false => rfl
  | true =>
    simp only [Bool.not_true, Bool.false_eq_true, if_false]
    cases call with
    | acquire =>
      simp only [rest.isWorker_apply hname]
      cases lock.isWorker name with
      | true => rfl
      | false =>
        refine congrArg some ?_
        simp only [after, apply, goOn, rest.enter]
    | tryAcquire =>
      cases hfree : lock.mutex.canTake name with
      | true | false =>
        simp only [mutex_apply, hfree]
        rfl
    | read access => exact congrArg some (rest.reach_apply access id)
    | write access value => exact congrArg some (rest.reach_apply access fun _ ↦ value)
    | requestShutdown =>
      simp only [rest.requestShutdown_apply hname]
      rfl
    | adopt =>
      have hsame : (rest.apply lock).worker.isSome = lock.worker.isSome := hworker rfl
      simp only [hsame]
      cases lock.worker with
      | some | none => rfl
    | yieldNow =>
      cases self.session with
      | none => rfl
      | some session => exact congrArg some (rest.beginYield_apply hname session)
    | openWindow =>
      cases self.session with
      | none => rfl
      | some session => exact congrArg some (rest.openWindow_apply session)
    | closeWindow =>
      cases self.session with
      | none => rfl
      | some session => exact congrArg some (rest.beginClose_apply hname session)
    | endSession =>
      cases self.session with
      | none => rfl
      | some session => exact congrArg some (rest.beginEnd_apply session)
    | dropSession | unwindSession => exact congrArg some rest.leave_apply
    | finish =>
      refine congrArg some ?_
      rw [← rest.leave_apply]
      rfl
    | release | join | spawn | start => rfl

/-- A thread that finds the lock held joins the queue, whatever is left to do for the holder. -/
theorem withLock?_apply (hheld : lock.mutex.isHeldBy me = true) (hname : name ≠ me)
    (next other : Lock σ → Effect σ) :
    withLock? name (rest.apply lock) self other =
      (withLock? name lock self next).map rest.after := by
  have hfree : lock.mutex.canTake name = false := Mutex.canTake_of_owner hheld hname
  unfold withLock? park?
  cases hwaiting : lock.mutex.isWaiting name with
  | true | false =>
    simp only [mutex_apply, hfree, hwaiting]
    rfl

theorem poll_apply (hwaiters : (rest.waiters lock.waiters).isSet = lock.waiters.isSet) :
    poll build name (rest.apply lock) self call = rest.after (poll build name lock self call) := by
  have hsame : (rest.apply lock).waiters.isSet = lock.waiters.isSet := hwaiters
  have hcount : (rest.apply lock).stats.countHandoff = rest.stats lock.stats.countHandoff :=
    (rest.countHandoff lock.stats).symm
  unfold poll
  cases hset : lock.waiters.isSet with
  | false =>
    rw [hset] at hsame
    simp only [hsame]
    rfl
  | true =>
    rw [hset] at hsame
    simp only [hsame, hcount, mutex_apply]
    cases self.session with
    | none => rfl
    | some session =>
      obtain ⟨phase, holds⟩ := session
      cases holds with
      | false => rfl
      | true =>
        cases hnested : build.isChecked && (lock.mutex.giveBack name).isHeldBy name with
        | true | false => rfl

theorem giveUp_apply (session : Session) :
    giveUp build name (rest.apply lock) self call session =
      rest.after (giveUp build name lock self call session) := by
  unfold giveUp
  cases hnested : build.isChecked && !call.isUnwinding &&
      (lock.mutex.giveBackIf name session.holds).isHeldBy name with
  | true =>
    simp only [mutex_apply, hnested, if_true]
    rw [← rest.fail_apply]
    rfl
  | false =>
    simp only [mutex_apply, hnested]
    rfl

theorem dispose_apply :
    dispose (rest.apply lock) self call = rest.after (dispose lock self call) := by
  unfold dispose
  rw [teardown_apply]
  cases lock.teardown with
  | none | some => rfl

theorem run_apply (hname : name ≠ me)
    (hasked : (rest.apply lock).isControllerWaiting = lock.isControllerWaiting)
    (teardown : Teardown) : teardown.run name (rest.apply lock) = teardown.run name lock := by
  cases teardown with
  | note | fail => rfl
  | probe =>
    unfold Teardown.run Teardown.probeText
    simp only [rest.requestShutdown_apply hname, rest.isWorker_apply hname, hasked]
    rfl

theorem tearDown?_apply (hname : name ≠ me)
    (hasked : (rest.apply lock).isControllerWaiting = lock.isControllerWaiting)
    (teardown : Teardown) :
    tearDown? name (rest.apply lock) self call teardown =
      (tearDown? name lock self call teardown).map rest.after := by
  unfold tearDown?
  rw [rest.run_apply hname hasked]
  obtain ⟨entries, panic?, keepAlive⟩ := teardown.run name lock
  cases panic? with
  | none => rfl
  | some panic =>
    cases call with
    | finish outcome =>
      cases outcome with
      | none | some => rfl
    | _ => rfl

/-- A thread goes on in the same way before the rest is done and after it. -/
theorem step?_apply (hheld : lock.mutex.isHeldBy me = true) (hname : name ≠ me)
    (hwaiters : ∀ call, self.activity = .busy call .polling →
      (rest.waiters lock.waiters).isSet = lock.waiters.isSet)
    (hasked : ∀ call teardown, self.activity = .busy call (.tearingDown teardown) →
      (rest.apply lock).isControllerWaiting = lock.isControllerWaiting)
    (hworker : ∀ call, self.activity = .busy call .starting →
      (rest.worker lock.worker).isSome = lock.worker.isSome) :
    self.step? build now name (rest.apply lock) =
      (self.step? build now name lock).map rest.after := by
  unfold step?
  cases hactivity : self.activity with
  | idle | finished => rfl
  | busy call point =>
    cases point with
    | waiting | reentering | adopting | retaking | closing =>
      exact rest.withLock?_apply hheld hname _ _
    | starting =>
      have hsame : (rest.apply lock).worker.isSome = lock.worker.isSome :=
        hworker call hactivity
      cases hsome : lock.worker.isSome with
      | true =>
        simp only [hsame, hsome, if_true]
        exact congrArg some (rest.fail_apply .alreadyAdopted)
      | false =>
        simp only [hsame, hsome]
        rfl
    | polling => exact congrArg some (rest.poll_apply (hwaiters call hactivity))
    | sleeping | joining => rfl
    | rechecking => exact congrArg some (rest.check_apply (rest.shouldExit_apply hname))
    | lowering =>
      cases self.session with
      | none => rfl
      | some session => exact congrArg some (rest.giveUp_apply session)
    | disposing => exact congrArg some rest.dispose_apply
    | tearingDown teardown =>
      exact rest.tearDown?_apply hname (hasked call teardown hactivity) teardown
    | marking =>
      refine congrArg some ?_
      rw [← rest.conclude_apply]
      rfl

end

/-- The world when the rest is done and its thread is in another state. -/
def settle (self : ThreadState σ) (world : World σ) : World σ :=
  world.after me ⟨rest.apply world.lock, self, []⟩

/-- The move finds what it looks at the same before the rest is done and after it. -/
structure IsUnseen (world : World σ) (move : Move σ) : Prop where
  waiters : ∀ name call, move = .step name → (world.thread name).activity = .busy call .polling →
    (rest.waiters world.lock.waiters).isSet = world.lock.waiters.isSet
  asked : ∀ name call teardown, move = .step name →
    (world.thread name).activity = .busy call (.tearingDown teardown) →
    (rest.apply world.lock).isControllerWaiting = world.lock.isControllerWaiting
  starts : ∀ name call, move = .step name → (world.thread name).activity = .busy call .starting →
    (rest.worker world.lock.worker).isSome = world.lock.worker.isSome
  adopts : ∀ name, move = .call name .adopt →
    (rest.worker world.lock.worker).isSome = world.lock.worker.isSome

/-- Counting alone goes unnoticed. -/
theorem isUnseen_of_counting (hwaiters : rest.waiters = id) (hworker : rest.worker = id)
    (world : World σ) (move : Move σ) : rest.IsUnseen world move where
  waiters _ _ _ _ := by rw [hwaiters]; rfl
  asked _ _ _ _ _ := by
    unfold apply Lock.isControllerWaiting
    rw [hwaiters]
    rfl
  starts _ _ _ _ := by rw [hworker]; rfl
  adopts _ _ := by rw [hworker]; rfl

end Remainder

/-- Two entries may be set in either order if one of them only replaces another. -/
theorem Roster.set_comm {α : Type} {roster : Roster α} {left right : Thread} (hne : left ≠ right)
    (hknown : roster.contains left = true) (entry other : α) :
    (roster.set left entry).set right other = (roster.set right other).set left entry := by
  obtain ⟨entries⟩ := roster
  simp only [contains, find?, set, Roster.mk.injEq] at hknown ⊢
  induction entries with
  | nil => cases hknown
  | cons head rest ih =>
    obtain ⟨name, old⟩ := head
    by_cases hleft : name = left
    · subst hleft
      simp [setIn, hne]
    · by_cases hright : name = right
      · subst hright
        simp [setIn, hleft]
      · have hother : (left == name) = false := by simpa using fun heq ↦ hleft heq.symm
        rw [List.lookup_cons, hother] at hknown
        simp only [setIn, if_neg hleft, if_neg hright, ih hknown]

namespace World

/-- The thread holds the lock and is not at its end. -/
structure Holds (world : World σ) (me : Thread) : Prop where
  known : world.threads.contains me = true
  held : world.lock.mutex.isHeldBy me = true
  lives : (world.thread me).activity.isFinished = false

/-- A thread inside a call that holds the lock is known and not at its end. -/
theorem holds_of_busy {world : World σ} {me : Thread} {call : Call σ} {point : Point}
    (hbusy : (world.thread me).activity = .busy call point)
    (hheld : world.lock.mutex.isHeldBy me = true) : world.Holds me where
  known := by
    apply Roster.contains_of_get_ne
    intro hdefault
    have hnone : world.thread me = {} := hdefault
    rw [hnone] at hbusy
    cases hbusy
  held := hheld
  lives := by
    rw [hbusy]
    rfl

end World

namespace Remainder

variable {me : Thread} (rest : Remainder me) {build : Build} {world : World σ} {move : Move σ}
  {self : ThreadState σ}

theorem sameOthers_settle (hknown : world.threads.contains me = true) :
    World.SameOthers me world (rest.settle self world) := .after_self world hknown _

/-- What another thread does to its own entry can be done before the rest or after it. -/
theorem after_settle {name : Thread} (hknown : world.threads.contains me = true)
    (hname : name ≠ me) (effect : Effect σ) :
    (rest.settle self world).after name (rest.after effect) =
      rest.settle self (world.after name effect) := by
  unfold settle World.after
  simp only [Roster.set_comm (Ne.symm hname) hknown]
  rfl

theorem map_after_settle {name : Thread} (hknown : world.threads.contains me = true)
    (hname : name ≠ me) (effect? : Option (Effect σ)) :
    ((effect?.map rest.after).map fun effect ↦
        ((rest.settle self world).after name effect, effect.events)) =
      (effect?.map fun effect ↦ (world.after name effect, effect.events)).map
        (Prod.map (rest.settle self) id) := by
  cases effect? with
  | none => rfl
  | some effect => exact congrArg some (Prod.ext (rest.after_settle hknown hname effect) rfl)

theorem spawn_settle {name child : Thread} (hknown : world.threads.contains me = true)
    (hname : name ≠ me) (hchild : child ≠ me) :
    (rest.settle self world).spawn name child =
      Prod.map (rest.settle self) id (world.spawn name child) := by
  have hself : (rest.settle self world).thread name = world.thread name :=
    (rest.sameOthers_settle hknown).thread name hname
  have hconfig : (rest.settle self world).lock.config = world.lock.config := rfl
  unfold World.spawn
  simp only [hself, hconfig]
  by_cases htitle : world.lock.config.workerName.toList.contains '\x00' = true
  · rw [if_pos htitle, if_pos htitle, Prod.map_apply, id_eq]
  · rw [if_neg htitle, if_neg htitle]
    have hborn (born : ThreadState σ) : (world.threads.set child born).contains me = true := by
      rw [Roster.contains_set, hknown, Bool.or_true]
    refine Prod.ext ?_ rfl
    simp only [settle, World.after, Roster.set_comm (Ne.symm hchild) hknown,
      Roster.set_comm (Ne.symm hname) (hborn _)]
    rfl

theorem call?_settle {name : Thread} {call : Call σ} (hknown : world.threads.contains me = true)
    (hname : name ≠ me)
    (hworker : call = .adopt →
      (rest.worker world.lock.worker).isSome = world.lock.worker.isSome) :
    (rest.settle self world).call? build name call =
      (world.call? build name call).map (Prod.map (rest.settle self) id) := by
  have hsame : World.SameOthers me world (rest.settle self world) := rest.sameOthers_settle hknown
  cases hspawn : call.isSpawn with
  | false =>
    rw [World.call?_of_not_spawn _ _ hspawn, World.call?_of_not_spawn _ _ hspawn,
      hsame.hasRoomFor, hsame.thread name hname, hsame.clock]
    split
    · rw [← rest.map_after_settle hknown hname, ← rest.invoke?_apply hname hworker]
      rfl
    · rfl
  | true =>
    cases call with
    | spawn child =>
      unfold World.call?
      simp only [hsame.contains, hsame.hasRoomFor, hsame.thread name hname]
      split
      · rename_i hspawns
        have hchild : child ≠ me := by
          rintro rfl
          simp [hknown] at hspawns
        exact congrArg some (rest.spawn_settle hknown hname hchild)
      · rfl
    | _ => cases hspawn

theorem join?_settle {name child : Thread} (hholds : world.Holds me)
    (hself : self.activity.isFinished = false) (hname : name ≠ me) :
    (rest.settle self world).join? name child = (world.join? name child).map rest.after := by
  have hsame : World.SameOthers me world (rest.settle self world) :=
    rest.sameOthers_settle hholds.known
  by_cases hchild : child = me
  · subst hchild
    have hafter : ((rest.settle self world).thread child).activity.isFinished = false := by
      rw [settle, World.thread_after_self]
      exact hself
    rw [World.join?_of_lives hafter, World.join?_of_lives hholds.lives, Option.map_none]
  · unfold World.join?
    rw [hsame.thread child hchild, hsame.thread name hname]
    split <;> rfl

theorem step?_settle {name : Thread} (hholds : world.Holds me)
    (hself : self.activity.isFinished = false) (hname : name ≠ me)
    (hunseen : rest.IsUnseen world (.step name)) :
    (rest.settle self world).step? build name =
      (world.step? build name).map (Prod.map (rest.settle self) id) := by
  have hsame : World.SameOthers me world (rest.settle self world) :=
    rest.sameOthers_settle hholds.known
  unfold World.step?
  simp only [hsame.thread name hname, hsame.clock]
  rw [← rest.map_after_settle hholds.known hname]
  split
  · rw [rest.join?_settle hholds hself hname]
  · rw [← rest.step?_apply hholds.held hname (fun call ↦ hunseen.waiters name call rfl)
      (fun call teardown ↦ hunseen.asked name call teardown rfl)
      fun call ↦ hunseen.starts name call rfl]
    rfl

/-- A move of another thread is the same before the rest is done and after it. -/
theorem move?_settle (hholds : world.Holds me) (hself : self.activity.isFinished = false)
    (hother : move.thread? ≠ some me) (hunseen : rest.IsUnseen world move) :
    (rest.settle self world).move? build move =
      (world.move? build move).map (Prod.map (rest.settle self) id) := by
  cases move with
  | enter name title =>
    have hname : name ≠ me := fun heq ↦ hother (congrArg some heq)
    have hsame : World.SameOthers me world (rest.settle self world) :=
      rest.sameOthers_settle hholds.known
    unfold World.move?
    simp only [hsame.contains, hsame.hasRoomFor]
    split
    · exact congrArg some (Prod.ext (rest.after_settle hholds.known hname ⟨_, { title }, []⟩) rfl)
    · rfl
  | call name call =>
    have hname : name ≠ me := fun heq ↦ hother (congrArg some heq)
    exact rest.call?_settle hholds.known hname fun hadopt ↦
      hunseen.adopts name (congrArg _ hadopt)
  | step name =>
    have hname : name ≠ me := fun heq ↦ hother (congrArg some heq)
    exact rest.step?_settle hholds hself hname hunseen
  | pass nanos => rfl

end Remainder

end YieldLock
