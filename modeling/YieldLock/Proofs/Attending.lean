import YieldLock.Proofs.Fold

/-!
# A controller on any thread

Whoever runs the controller's loop, the worker included, has a guard of its own where
a stage needs one. What the events come to is then the same, whatever others do with
the machine in between, and the loop goes on unless it waits for the lock or for an
event. Main statements: `Controller.Desk.step_cases`, all that a step of the
controller comes to, and `Controller.Desk.exists_step?`.
-/

namespace YieldLock

variable {σ : Type}

namespace ThreadState

section

variable {build : Build} {now : Nat} {me : Thread} {lock : Lock σ} {self : ThreadState σ}
  {effect : Effect σ}

/-- A thread that is to acquire the lock asks for it first. -/
theorem Rule.asks_of_acquire (rule : Rule build now me lock self (some .acquire) effect) :
    ∃ after point entries, effect = goOn after self .acquire point entries ∧
      after.value = lock.value ∧ after.mutex = lock.mutex := by
  cases rule with
  | reenter => exact ⟨_, _, _, rfl, rfl, rfl⟩
  | enter => exact ⟨_, _, _, rfl, rfl, rfl⟩
  | outOfReach _ hcall | dropBegin _ hcall | dropEnded _ hcall =>
    obtain h | ⟨_, h⟩ := hcall <;> cases h

/-- A thread that has asked for the lock joins the queue, or it has the lock. -/
theorem Rule.joins_or_acquires (rule : Rule build now me lock self none effect) {point : Point}
    (hbusy : self.activity = .busy .acquire point) (hsound : self.IsSound)
    (hmatched : self.activity.isCounted = true → lock.waiters.isMatched = true) :
    (me ∉ lock.mutex.queue ∧ effect = ⟨{ lock with mutex := lock.mutex.wait me }, self, []⟩) ∨
      ∃ after, effect =
          answer after { self with guards := self.guards + 1 } .acquire .acquired [] ∧
        after.value = lock.value := by
  cases rule with
  | park _ _ _ hqueue => exact .inl ⟨hqueue, rfl⟩
  | obtain hstands | reentered hstands =>
    cases hbusy.symm.trans hstands
    exact .inr ⟨_, rfl, rfl⟩
  | obtainUnmatched hstands _ _ hunmatched =>
    rw [hstands] at hmatched
    cases (hmatched rfl).symm.trans hunmatched
  | _ hstands =>
    -- No acquisition stands at any other point.
    cases hbusy.symm.trans hstands
    have hplace := hsound.place _ _ hbusy
    simp [StandsAt, Call.endsSession] at hplace

end

end ThreadState

/-- A thread that is in line for the lock stays there when others move. -/
theorem World.Change.mem_queue_of_others {build : Build} {world next : World σ} {me : Thread}
    {move : Move σ} {events : List (Event σ)} (change : Change build world move next events)
    (hother : move.thread? ≠ some me) (hmem : me ∈ world.lock.mutex.queue) :
    me ∈ next.lock.mutex.queue := by
  cases change with
  | enter | pass | spawn | spawnRefused => exact hmem
  | own other call? effect _ rule =>
    rw [Move.thread?_ofThread] at hother
    rw [lock_after]
    cases rule.queueStep with
    | keeps hlowers => rwa [hlowers.queue]
    | joins hlock =>
      rw [hlock]
      exact List.mem_append_left [other] hmem
    | takes hqueue =>
      rw [hqueue]
      exact (List.mem_erase_of_ne fun hme ↦ hother (congrArg some hme.symm)).mpr hmem

namespace Demo

namespace Controller

/-- What is left to do at a stage before the next event is received, or before the end, when so much
is left of an acquisition. -/
def Stage.effort (asking : Nat) : Stage → Nat
  | acquiring .. => 8 + asking
  | loading .. => 7
  | painting .. => 6
  | reporting .. => 5
  | releasing _ => 4
  | awaiting _ => 3
  | requesting _ => 2
  | announcing _ => 1
  | done _ => 0

namespace Desk

/-- The controller's thread has a guard where the stage needs one, and it is inside a call only when
it acquires the lock. -/
structure Attends (me : Thread) (desk : Desk) : Prop where
  guards : desk.stage.guards ≤ (desk.world.thread me).guards
  activity : (desk.world.thread me).activity = .idle ∨
    (∃ event handled, desk.stage = .acquiring event handled) ∧
      ∃ point, (desk.world.thread me).activity = .busy .acquire point

/-- An acquisition is asked for, then the thread joins the queue, and then it has the lock. -/
def asking (me : Thread) (desk : Desk) : Nat :=
  if (desk.world.thread me).activity = .idle then 2
  else if me ∈ desk.world.lock.mutex.queue then 0 else 1

/-- How many steps the controller can make before it receives the next event, or before its end. -/
def effort (me : Thread) (desk : Desk) : Nat := desk.stage.effort (desk.asking me)

/-- A step by which no event is received: nothing changes of what the events have come to. -/
structure Works (me : Thread) (desk next : Desk) : Prop where
  channel : next.channel = desk.channel
  closing : next.stage.isClosing = desk.stage.isClosing
  handled : next.stage.handled + next.stage.uncounted =
    desk.stage.handled + desk.stage.uncounted
  border : borderAfter next.world.lock.value.border next.stage.unpainted =
    borderAfter desk.world.lock.value.border desk.stage.unpainted
  effort : next.effort me < desk.effort me

/-- A step by which an event is received, or the end, or by which the controller begins to wait. -/
structure Receives (desk next : Desk) : Prop where
  awaits : ∃ handled delivery, desk.stage = .awaiting handled ∧
    desk.channel.receive? = some (delivery, next.channel) ∧
    next.stage = .delivered handled delivery
  world : next.world = desk.world

section

variable {build : Build} {me : Thread} {desk next : Desk} {call? : Option (Call Machine)}
  {effect : Effect Machine}

theorem Attends.idle (h : desk.Attends me)
    (hstage : ∀ event handled, desk.stage ≠ .acquiring event handled) :
    (desk.world.thread me).activity = .idle := by
  obtain hidle | ⟨⟨event, handled, hacquiring⟩, _⟩ := h.activity
  · exact hidle
  · exact absurd hacquiring (hstage event handled)

theorem Attends.congr (h : desk.Attends me) (hstage : next.stage = desk.stage)
    (hself : next.world.thread me = desk.world.thread me) : next.Attends me where
  guards := by
    rw [hstage, hself]
    exact h.guards
  activity := by
    rw [hstage, hself]
    exact h.activity

theorem asking_of_idle (hidle : (desk.world.thread me).activity = .idle) : desk.asking me = 2 :=
  if_pos hidle

theorem asking_of_busy {call : Call Machine} {point : Point}
    (hbusy : (desk.world.thread me).activity = .busy call point) :
    desk.asking me = if me ∈ desk.world.lock.mutex.queue then 0 else 1 := by
  rw [asking, hbusy, if_neg nofun]

theorem effort_le (me : Thread) (desk : Desk) : desk.effort me ≤ 10 := by
  have hasking : desk.asking me ≤ 2 := by
    unfold asking
    split
    · exact Nat.le_refl 2
    · split <;> decide
  unfold effort
  cases desk.stage with
  | acquiring => exact Nat.add_le_add_left hasking 8
  | _ => simp [Stage.effort]

/-- A thread that is idle after a step attends to the next stage. -/
theorem Steps.attends (h : Steps build me desk next call? effect)
    (hidle : effect.self.activity = .idle) (hguards : next.stage.guards ≤ effect.self.guards) :
    next.Attends me := by
  have hself : next.world.thread me = effect.self := by rw [h.world, World.thread_after_self]
  rw [← hself] at hidle hguards
  exact ⟨hguards, .inl hidle⟩

theorem cases_of_awaiting (h : desk.step? build me = some next) (hattends : desk.Attends me)
    {handled : UInt64} (hstage : desk.stage = .awaiting handled) :
    desk.Receives next ∧ next.Attends me := by
  have hidle := hattends.idle (by rw [hstage]; nofun)
  obtain ⟨deed, hdeed, hworld, hchannel, hnext⟩ := exists_deed_of_step? h
  rw [hstage, action] at hdeed
  simp only [perform?, hidle] at hdeed
  obtain ⟨⟨delivery, channel⟩, hreceive, rfl⟩ := Option.map_eq_some_iff.mp hdeed
  rw [hstage] at hnext
  have hlater : next.stage = .delivered handled delivery ∧ next.stage.guards = 0 := by
    rw [hnext]
    cases delivery with
    | event event => cases event <;> exact ⟨rfl, rfl⟩
    | ended | pending => exact ⟨rfl, rfl⟩
  have hbeside : next.world = desk.world ∧ next.channel = channel := by
    rw [hworld, hchannel]
    cases delivery <;> exact ⟨rfl, rfl⟩
  refine ⟨⟨⟨handled, delivery, hstage, by rw [hreceive, hbeside.2], hlater.1⟩, hbeside.1⟩, ?_, ?_⟩
  · rw [hlater.2]
    exact Nat.zero_le _
  · rw [hbeside.1]
    exact .inl hidle

theorem cases_of_acquiring (h : desk.step? build me = some next)
    (hreach : YieldLock.Reachable build desk.world) (hattends : desk.Attends me)
    {event : UiEvent} {handled : UInt64} (hstage : desk.stage = .acquiring event handled) :
    desk.Works me next ∧ next.Attends me := by
  have hchannel := channel_of_step? h (by rw [hstage]; nofun)
  -- Before the lock is acquired the stage stays, and less is left of the acquisition.
  have hstays (hnext : next.stage = desk.stage)
      (hvalue : next.world.lock.value = desk.world.lock.value)
      (hless : next.asking me < desk.asking me) : desk.Works me next := by
    refine ⟨hchannel, by rw [hnext], by rw [hnext], by rw [hnext, hvalue], ?_⟩
    rw [effort, effort, hnext, hstage]
    exact Nat.add_lt_add_left hless 8
  obtain hidle | ⟨_, point, hbusy⟩ := hattends.activity
  · obtain ⟨effect, hsteps⟩ := steps_of_call h hidle (by rw [hstage]; rfl) rfl
    obtain ⟨after, point, entries, rfl, hvalue, hmutex⟩ := hsteps.rule.asks_of_acquire
    have hnext := hsteps.stage_of_none (ThreadState.answers_goOn ..)
    have hbusy : (next.world.thread me).activity = .busy .acquire point := by
      rw [hsteps.world, World.thread_after_self]
      rfl
    refine ⟨hstays hnext (by rw [hsteps.lock_eq]; exact hvalue) ?_, ?_, .inr ⟨?_, point, hbusy⟩⟩
    · rw [asking_of_busy hbusy, asking_of_idle hidle]
      split <;> decide
    · rw [hnext, hstage]
      exact Nat.zero_le _
    · exact ⟨event, handled, hnext.trans hstage⟩
  · obtain ⟨effect, hsteps⟩ := steps_of_busy h hbusy
    obtain ⟨hqueue, rfl⟩ | ⟨after, rfl, hvalue⟩ :=
      hsteps.rule.joins_or_acquires hbusy (hreach.fits me).sound (hreach.waiters_isSet ·)
    · have hnext := hsteps.stage_of_none rfl
      have hself : next.world.thread me = desk.world.thread me := by
        rw [hsteps.world, World.thread_after_self]
      have hjoined : me ∈ next.world.lock.mutex.queue := by
        rw [hsteps.lock_eq]
        exact List.mem_concat_self
      refine ⟨hstays hnext (by rw [hsteps.lock_eq]) ?_, hattends.congr hnext hself⟩
      rw [asking_of_busy (hself ▸ hbusy), asking_of_busy hbusy, if_pos hjoined, if_neg hqueue]
      exact Nat.one_pos
    · have hnext : next.stage = .loading event handled := by
        rw [hsteps.stage_of_answer rfl, hstage]
        rfl
      refine ⟨⟨hchannel, ?_, ?_, ?_, ?_⟩, hsteps.attends rfl ?_⟩
      · rw [hnext, hstage]
        rfl
      · rw [hnext, hstage]
        rfl
      · rw [hnext, hstage, hsteps.lock_eq]
        exact congrArg (fun machine ↦ borderAfter machine.border [event]) hvalue
      · rw [effort, effort, hnext, hstage]
        exact Nat.lt_add_right _ (Nat.lt_succ_self 7)
      · rw [hnext]
        exact Nat.le_add_left 1 _

/-- A step of the controller by which it comes to a later stage. -/
theorem works_of_stages (hchannel : next.channel = desk.channel) {stage later : Stage}
    (hstage : desk.stage = stage) (hnext : next.stage = later)
    (hclosing : later.isClosing = stage.isClosing)
    (hhandled : later.handled + later.uncounted = stage.handled + stage.uncounted)
    (hborder : borderAfter next.world.lock.value.border later.unpainted =
      borderAfter desk.world.lock.value.border stage.unpainted)
    (hless : ∀ before after, later.effort after < stage.effort before) :
    desk.Works me next where
  channel := hchannel
  closing := by rw [hnext, hstage, hclosing]
  handled := by rw [hnext, hstage, hhandled]
  border := by rw [hnext, hstage, hborder]
  effort := by
    rw [Desk.effort, Desk.effort, hnext, hstage]
    exact hless _ _

theorem cases_of_loading (h : desk.step? build me = some next) (hattends : desk.Attends me)
    {event : UiEvent} {handled : UInt64} (hstage : desk.stage = .loading event handled) :
    desk.Works me next ∧ next.Attends me := by
  have hidle := hattends.idle (by rw [hstage]; nofun)
  have hguards := hattends.guards
  rw [hstage] at hguards
  obtain ⟨effect, hsteps⟩ := steps_of_call h hidle (by rw [hstage]; rfl) rfl
  obtain rfl := hsteps.rule.of_guard_read
  have hnext : next.stage = .loaded desk.world.lock.value handled event := by
    rw [hsteps.stage_of_answer rfl, hstage]
    cases event <;> rfl
  refine ⟨works_of_stages (channel_of_step? h (by rw [hstage]; nofun)) hstage hnext ?_ ?_ ?_ ?_,
    hsteps.attends rfl ?_⟩
  · cases event <;> rfl
  · cases event <;> rfl
  · rw [hsteps.lock_eq]
    cases event <;> rfl
  · cases event <;> exact fun _ _ ↦ by simp [Stage.loaded, Stage.effort]
  · rw [hnext]
    cases event <;> exact hguards

theorem cases_of_painting (h : desk.step? build me = some next) (hattends : desk.Attends me)
    {machine : Machine} {color : UInt8} {handled : UInt64}
    (hstage : desk.stage = .painting machine color handled) :
    desk.Works me next ∧ next.Attends me := by
  have hidle := hattends.idle (by rw [hstage]; nofun)
  have hguards := hattends.guards
  rw [hstage] at hguards
  obtain ⟨effect, hsteps⟩ := steps_of_call h hidle (by rw [hstage]; rfl) rfl
  obtain rfl := hsteps.rule.of_guard_write
  have hnext : next.stage = .reporting (.borderSet color) handled := by
    rw [hsteps.stage_of_answer rfl, hstage]
    rfl
  refine ⟨works_of_stages (channel_of_step? h (by rw [hstage]; nofun)) hstage hnext rfl rfl ?_ ?_,
    hsteps.attends rfl ?_⟩
  · rw [hsteps.lock_eq]
    rfl
  · exact fun _ _ ↦ Nat.lt_succ_self 5
  · rw [hnext]
    exact hguards

theorem cases_of_releasing (h : desk.step? build me = some next) (hattends : desk.Attends me)
    {handled : UInt64} (hstage : desk.stage = .releasing handled) :
    desk.Works me next ∧ next.Attends me := by
  have hidle := hattends.idle (by rw [hstage]; nofun)
  obtain ⟨effect, hsteps⟩ := steps_of_call h hidle (by rw [hstage]; rfl) rfl
  obtain rfl := hsteps.rule.of_release
  have hnext : next.stage = .awaiting handled := by
    rw [hsteps.stage_of_answer rfl, hstage]
    rfl
  refine ⟨works_of_stages (channel_of_step? h (by rw [hstage]; nofun)) hstage hnext rfl rfl ?_ ?_,
    hsteps.attends rfl ?_⟩
  · rw [hsteps.lock_eq]
    rfl
  · exact fun _ _ ↦ Nat.lt_succ_self 3
  · rw [hnext]
    exact Nat.zero_le _

theorem cases_of_requesting (h : desk.step? build me = some next) (hattends : desk.Attends me)
    {handled : UInt64} (hstage : desk.stage = .requesting handled) :
    desk.Works me next ∧ next.Attends me := by
  have hidle := hattends.idle (by rw [hstage]; nofun)
  have hchannel := channel_of_step? h (by rw [hstage]; nofun)
  obtain ⟨effect, hsteps⟩ := steps_of_call h hidle (by rw [hstage]; rfl) rfl
  obtain rfl := hsteps.rule.of_request
  have hvalue : next.world.lock.value = desk.world.lock.value := by
    rw [hsteps.lock_eq, ThreadState.lock_answer, Lock.lock_requestShutdown]
  have hnext : next.stage = .announcing handled ∨ next.stage = .done handled := by
    rw [hsteps.stage_of_answer (ThreadState.answers_answer ..), hstage]
    cases (desk.world.lock.requestShutdown me).1 with
    | signalled => exact .inl rfl
    | workerMustExit | alreadyRequested => exact .inr rfl
  obtain hnext | hnext := hnext
  all_goals
    refine ⟨works_of_stages hchannel hstage hnext rfl rfl ?_ ?_,
      hsteps.attends (by rw [ThreadState.self_answer]) ?_⟩
    · rw [hvalue]
      rfl
    · exact fun _ _ ↦ by simp [Stage.effort]
    · rw [hnext]
      exact Nat.zero_le _

theorem cases_of_log (h : desk.step? build me = some next) (hattends : desk.Attends me)
    {notice : Notice} (haction : action desk.stage = .log notice) :
    desk.Works me next ∧ next.Attends me := by
  have hidle := hattends.idle fun event handled hstage ↦ by
    rw [hstage] at haction
    cases haction
  have hguards := hattends.guards
  obtain ⟨hworld, hnext⟩ := of_step?_log h hidle haction
  have hself (hless : next.stage.guards ≤ desk.stage.guards) : next.Attends me := by
    refine ⟨?_, ?_⟩
    · rw [hworld]
      exact hless.trans hguards
    · rw [hworld]
      exact .inl hidle
  cases hstage : desk.stage with
  | reporting notice handled =>
    rw [hstage] at hnext
    refine ⟨works_of_stages (channel_of_step? h (by rw [hstage]; nofun)) hstage hnext rfl ?_ ?_ ?_,
      hself ?_⟩
    · exact UInt64.add_zero _
    · rw [hworld]
      rfl
    · exact fun _ _ ↦ Nat.lt_succ_self 4
    · rw [hnext, hstage]
      exact Nat.le_refl 1
  | announcing handled =>
    rw [hstage] at hnext
    refine ⟨works_of_stages (channel_of_step? h (by rw [hstage]; nofun)) hstage hnext rfl rfl ?_ ?_,
      hself ?_⟩
    · rw [hworld]
      rfl
    · exact fun _ _ ↦ Nat.lt_succ_self 0
    · rw [hnext, hstage]
      exact Nat.le_refl 0
  | _ =>
    rw [hstage] at haction
    cases haction

/-- All that a step of the controller comes to. -/
theorem step_cases (h : desk.step? build me = some next)
    (hreach : YieldLock.Reachable build desk.world) (hattends : desk.Attends me) :
    (desk.Receives next ∨ desk.Works me next) ∧ next.Attends me := by
  cases hstage : desk.stage with
  | awaiting handled => exact (cases_of_awaiting h hattends hstage).imp .inl id
  | acquiring event handled => exact (cases_of_acquiring h hreach hattends hstage).imp .inr id
  | loading event handled => exact (cases_of_loading h hattends hstage).imp .inr id
  | painting machine color handled => exact (cases_of_painting h hattends hstage).imp .inr id
  | releasing handled => exact (cases_of_releasing h hattends hstage).imp .inr id
  | requesting handled => exact (cases_of_requesting h hattends hstage).imp .inr id
  | reporting notice handled | announcing handled =>
    exact (cases_of_log h hattends (by rw [hstage]; rfl)).imp .inr id
  | done handled =>
    have hidle := hattends.idle (by rw [hstage]; nofun)
    obtain ⟨deed, hdeed, _⟩ := exists_deed_of_step? h
    rw [hstage, action] at hdeed
    simp only [perform?, hidle] at hdeed
    cases hdeed

/-- What others do leaves the controller's thread as it was, and in its place in the queue. -/
theorem Attends.of_others (h : desk.Attends me) {move : YieldLock.Move Machine}
    {world : World Machine} {events : List (Event Machine)}
    (hmove : desk.world.move? build move = some (world, events)) (hother : move.thread? ≠ some me)
    (hstarts : starts me move = false) :
    Attends me { desk with world } ∧ effort me { desk with world } ≤ desk.effort me := by
  have change := World.change_of_move? hmove
  have hself : world.thread me = desk.world.thread me := by
    apply change.thread_of_unspawned hother
    rintro parent rfl
    cases (decide_eq_true rfl : starts me (.call parent (.spawn me)) = true).symm.trans hstarts
  refine ⟨h.congr rfl hself, ?_⟩
  have hasking : asking me { desk with world } ≤ desk.asking me := by
    unfold asking
    rw [hself]
    split
    · exact Nat.le_refl 2
    · by_cases hmem : me ∈ desk.world.lock.mutex.queue
      · rw [if_pos hmem, if_pos (change.mem_queue_of_others hother hmem)]
      · rw [if_neg hmem]
        split <;> decide
  unfold effort
  cases desk.stage with
  | acquiring => exact Nat.add_le_add_left hasking 8
  | _ => exact Nat.le_refl _

/-- An idle thread is free to make the calls of the controller. -/
theorem Attends.exists_invoke? (h : desk.Attends me)
    (hidle : (desk.world.thread me).activity = .idle) {call : Call Machine}
    (haction : action desk.stage = .call call) : ∃ effect,
      (desk.world.thread me).invoke? build desk.world.clock me desk.world.lock call =
        some effect := by
  have hguards := h.guards
  -- A stage at which a guard is needed comes with one.
  have hguarded (hone : desk.stage.guards = 1) : 0 < (desk.world.thread me).guards := by
    rwa [hone] at hguards
  cases hstage : desk.stage with
  | acquiring =>
    rw [hstage] at haction
    cases haction
    unfold ThreadState.invoke? ThreadState.permits
    rw [hidle]
    simp only [Activity.isIdle, Bool.and_self, Bool.not_true, Bool.false_eq_true, if_false]
    split <;> exact ⟨_, rfl⟩
  | loading | painting | releasing =>
    rw [hstage] at haction hguarded
    cases haction
    unfold ThreadState.invoke? ThreadState.permits
    rw [hidle, decide_eq_true (hguarded rfl)]
    exact ⟨_, rfl⟩
  | requesting =>
    rw [hstage] at haction
    cases haction
    unfold ThreadState.invoke? ThreadState.permits
    rw [hidle]
    exact ⟨_, rfl⟩
  | _ =>
    rw [hstage] at haction
    cases haction

/-- A thread inside an acquisition goes on, unless it has to wait for the lock. -/
theorem exists_perform?_of_busy (hreach : YieldLock.Reachable build desk.world) {point : Point}
    (hbusy : (desk.world.thread me).activity = .busy .acquire point)
    (hfree : desk.world.isHeldUp me = false) :
    ∃ deed, perform? build desk.world desk.channel me (action desk.stage) = some deed := by
  have hwants : (desk.world.thread me).activity.wantsLock = true := by
    rw [hbusy]
    have hplace := (hreach.fits me).sound.place _ _ hbusy
    cases point with
    | waiting | reentering => rfl
    | _ => simp [ThreadState.StandsAt, Call.endsSession] at hplace
  rw [World.isHeldUp, hwants, Bool.true_and, Bool.not_eq_false'] at hfree
  obtain ⟨next, events, hstep, _⟩ := World.step?_of_canTake hwants hfree
  rw [perform?_of_busy hbusy, hstep]
  exact ⟨_, rfl⟩

/-- A controller that is to make a call begins it, if there is a number for its thread. -/
theorem Attends.exists_perform?_of_call (h : desk.Attends me)
    (hidle : (desk.world.thread me).activity = .idle)
    (hroom : desk.world.hasRoomFor [me] = true) {call : Call Machine}
    (haction : action desk.stage = .call call) (hspawn : call.isSpawn = false) :
    ∃ deed, perform? build desk.world desk.channel me (action desk.stage) = some deed := by
  obtain ⟨effect, heffect⟩ : ∃ effect,
      (desk.world.thread me).invoke? build desk.world.clock me desk.world.lock call =
        some effect := h.exists_invoke? hidle haction
  rw [haction, perform?_of_call hidle, World.call?_of_not_spawn _ _ hspawn, if_pos hroom, heffect]
  exact ⟨_, rfl⟩

/-- A controller that has not come to its end goes on, if there is a number for its thread, unless
it has to wait for the lock or for an event. -/
theorem exists_step? (hreach : YieldLock.Reachable build desk.world) (hattends : desk.Attends me)
    (hroom : desk.world.hasRoomFor [me] = true) (hdone : ∀ handled, desk.stage ≠ .done handled)
    (hfree : desk.world.isHeldUp me = false)
    (hreceive : ∀ handled, desk.stage = .awaiting handled →
      ∃ result, desk.channel.receive? = some result) :
    ∃ next, desk.step? build me = some next := by
  suffices ∃ deed, perform? build desk.world desk.channel me (action desk.stage) = some deed by
    obtain ⟨deed, hdeed⟩ := this
    exact ⟨_, congrArg (Option.map _) hdeed⟩
  obtain hidle | ⟨_, point, hbusy⟩ := hattends.activity
  · cases hstage : desk.stage with
    | awaiting handled =>
      obtain ⟨result, hresult⟩ := hreceive handled hstage
      simp only [perform?, hidle, action, hresult]
      exact ⟨_, rfl⟩
    | acquiring | loading | painting | releasing | requesting =>
      rw [← hstage]
      exact hattends.exists_perform?_of_call hidle hroom (by rw [hstage]; rfl) rfl
    | reporting | announcing =>
      simp only [perform?, hidle, action]
      exact ⟨_, rfl⟩
    | done handled => exact absurd hstage (hdone handled)
  · exact exists_perform?_of_busy hreach hbusy hfree

end

end Desk

end Controller

end Demo

end YieldLock
