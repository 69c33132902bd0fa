import YieldLock.Proofs.Desk

/-!
# The controller at work

A controller that is not the worker acquires the lock for each event that concerns
the machine, and at no other time it has a guard of its own. Main statements:
`Controller.Desk.stride`, all that a step of the controller can do, and
`Controller.Desk.Minds`, what the controller's thread has at each of its stages.
-/

namespace YieldLock.Demo

/-- A thread that is to make a call other than an acquisition is idle before it. -/
theorem StandsBefore.idle_of_call {call : Call Machine} {activity : Activity Machine}
    (h : StandsBefore (.call call) activity) (hacquire : call ≠ .acquire)
    (hjoin : ∀ child, call ≠ .join child) : activity = .idle := by
  cases h with
  | idle => rfl
  | waiting => exact absurd rfl hacquire
  | joining child => exact absurd rfl (hjoin child)

/-- A thread is idle before it receives an event. -/
theorem StandsBefore.idle_of_receive {activity : Activity Machine}
    (h : StandsBefore .receive activity) : activity = .idle := by
  cases h
  rfl

namespace Controller

namespace Stage

/-- How many guards the controller has at a stage. -/
def guards : Stage → Nat
  | loading .. | painting .. | reporting .. | releasing _ => 1
  | _ => 0

/-- The stage after an event has come or there are no more. -/
def delivered (handled : UInt64) : Channel.Delivery → Stage
  | .event .quit | .ended => requesting handled
  | .event event => acquiring event handled
  | .pending => awaiting handled

/-- The stage after the machine was loaded for an event. -/
def loaded (machine : Machine) (handled : UInt64) : UiEvent → Stage
  | .poke color => painting machine color handled
  | _ => reporting (.status machine) handled

end Stage

namespace Desk

/-- The controller's thread is not the worker, and it is as it was but for the guard and the call of
the stage. -/
structure Minds (me : Thread) (start : ThreadState Machine) (desk : Desk) : Prop where
  worker : desk.world.lock.worker ≠ some me
  self : ∃ activity, StandsBefore (action desk.stage) activity ∧
    desk.world.thread me = { start with guards := start.guards + desk.stage.guards, activity }

/-- A step of the controller by a rule, with the stage after it. -/
structure Steps (build : Build) (me : Thread) (desk next : Desk) (call? : Option (Call Machine))
    (effect : Effect Machine) : Prop where
  rule : ThreadState.Rule build desk.world.clock me desk.world.lock (desk.world.thread me) call?
    effect
  world : next.world = desk.world.after me effect
  stage : next.stage = effect.answers.head?.elim desk.stage fun answer ↦
    resume desk.stage (.answered answer)

/-- The value and the counters of the lock are as they were. -/
def Keeps (desk next : Desk) : Prop :=
  next.world.lock.value = desk.world.lock.value ∧ next.world.lock.stats = desk.world.lock.stats

/-- All that a step of the controller can do. -/
inductive Stride (desk next : Desk) : Prop where
  | receive {handled : UInt64} {delivery : Channel.Delivery}
      (hstage : desk.stage = .awaiting handled) (hworld : next.world = desk.world)
      (hreceive : desk.channel.receive? = some (delivery, next.channel))
      (hnext : next.stage = .delivered handled delivery)
  | wait {event : UiEvent} {handled : UInt64} (hstage : desk.stage = .acquiring event handled)
      (hkept : desk.Keeps next) (hnext : next.stage = desk.stage)
  | acquire {event : UiEvent} {handled : UInt64} (waited : UInt64)
      (hstage : desk.stage = .acquiring event handled)
      (hvalue : next.world.lock.value = desk.world.lock.value)
      (hstats : next.world.lock.stats = desk.world.lock.stats.countAcquisition waited)
      (hnext : next.stage = .loading event handled)
  | load {event : UiEvent} {handled : UInt64} (hstage : desk.stage = .loading event handled)
      (hkept : desk.Keeps next)
      (hnext : next.stage = .loaded desk.world.lock.value handled event)
  | paint {machine : Machine} {color : UInt8} {handled : UInt64}
      (hstage : desk.stage = .painting machine color handled)
      (hvalue : next.world.lock.value = { machine with border := color })
      (hstats : next.world.lock.stats = desk.world.lock.stats)
      (hnext : next.stage = .reporting (.borderSet color) handled)
  | report {notice : Notice} {handled : UInt64} (hstage : desk.stage = .reporting notice handled)
      (hworld : next.world = desk.world) (hnext : next.stage = .releasing (handled + 1))
  | release {handled : UInt64} (hstage : desk.stage = .releasing handled)
      (hkept : desk.Keeps next) (hnext : next.stage = .awaiting handled)
  | request {handled : UInt64} (hstage : desk.stage = .requesting handled)
      (hkept : desk.Keeps next) (hlow : next.world.lock.keepAlive.isSet = false)
      (hnext : next.stage = .announcing handled ∨ next.stage = .done handled)
  | announce {handled : UInt64} (hstage : desk.stage = .announcing handled)
      (hworld : next.world = desk.world) (hnext : next.stage = .done handled)

section

variable {build : Build} {me : Thread} {desk next : Desk} {start : ThreadState Machine}
  {call? : Option (Call Machine)} {effect : Effect Machine}

theorem exists_deed_of_step? (h : desk.step? build me = some next) :
    ∃ deed, perform? build desk.world desk.channel me (action desk.stage) = some deed ∧
      next.world = deed.world ∧ next.channel = deed.channel ∧
      next.stage = deed.reply.elim desk.stage (resume desk.stage) := by
  obtain ⟨deed, hdeed, rfl⟩ := Option.map_eq_some_iff.mp h
  exact ⟨deed, hdeed, rfl, rfl, rfl⟩

theorem isExchange_action {stage : Stage} (hstage : ∀ handled, stage ≠ .awaiting handled) :
    (action stage).isExchange = false := by
  cases stage with
  | awaiting handled => exact absurd rfl (hstage handled)
  | _ => rfl

/-- The controller has to do with the channel only when it awaits an event. -/
theorem channel_of_step? (h : desk.step? build me = some next)
    (hstage : ∀ handled, desk.stage ≠ .awaiting handled) : next.channel = desk.channel := by
  obtain ⟨deed, hdeed, _, hchannel, _⟩ := exists_deed_of_step? h
  rw [hchannel, channel_of_perform? (isExchange_action hstage) hdeed]

theorem steps_of_busy (h : desk.step? build me = some next) {call : Call Machine} {point : Point}
    (hbusy : (desk.world.thread me).activity = .busy call point) :
    ∃ effect, Steps build me desk next none effect := by
  obtain ⟨deed, hdeed, hworld, _, hstage⟩ := exists_deed_of_step? h
  obtain ⟨effect, rule, rfl⟩ := exists_rule_of_busy hbusy hdeed
  refine ⟨effect, rule, hworld, ?_⟩
  rw [hstage, Deed.reply_ofEvents]
  cases effect.answers.head? <;> rfl

theorem steps_of_call (h : desk.step? build me = some next) {call : Call Machine}
    (hidle : (desk.world.thread me).activity = .idle) (haction : action desk.stage = .call call)
    (hspawn : call.isSpawn = false) : ∃ effect, Steps build me desk next (some call) effect := by
  obtain ⟨deed, hdeed, hworld, _, hstage⟩ := exists_deed_of_step? h
  rw [haction] at hdeed
  obtain ⟨effect, rule, rfl⟩ := exists_rule_of_call hspawn hidle hdeed
  refine ⟨effect, rule, hworld, ?_⟩
  rw [hstage, Deed.reply_ofEvents]
  cases effect.answers.head? <;> rfl

theorem of_step?_log (h : desk.step? build me = some next)
    (hidle : (desk.world.thread me).activity = .idle) {notice : Notice}
    (haction : action desk.stage = .log notice) :
    next.world = desk.world ∧ next.stage = resume desk.stage .continued := by
  obtain ⟨deed, hdeed, hworld, _, hstage⟩ := exists_deed_of_step? h
  rw [haction] at hdeed
  simp only [perform?, hidle] at hdeed
  cases hdeed
  exact ⟨hworld, hstage⟩

theorem Steps.lock_eq (h : Steps build me desk next call? effect) :
    next.world.lock = effect.lock := by rw [h.world, World.lock_after]

theorem Steps.stage_of_answer (h : Steps build me desk next call? effect)
    {answer : Answer Machine} (hanswers : effect.answers = [answer]) :
    next.stage = resume desk.stage (.answered answer) := by
  rw [h.stage, hanswers]
  rfl

theorem Steps.stage_of_none (h : Steps build me desk next call? effect)
    (hanswers : effect.answers = []) : next.stage = desk.stage := by
  rw [h.stage, hanswers]
  rfl

/-- The controller minds its stage after a step that makes nobody the worker. -/
theorem Steps.minds (h : Steps build me desk next call? effect) (hminds : desk.Minds me start)
    {activity : Activity Machine}
    (hself : effect.self = { start with guards := start.guards + next.stage.guards, activity })
    (hstands : StandsBefore (action next.stage) activity)
    (hworker : effect.lock.worker = desk.world.lock.worker) : next.Minds me start where
  worker := by
    rw [h.lock_eq, hworker]
    exact hminds.worker
  self := ⟨activity, hstands, by rw [h.world, World.thread_after_self, hself]⟩

/-- The controller minds its stage after a step beside the lock. -/
theorem Minds.beside (h : desk.Minds me start) (hworld : next.world = desk.world)
    (hidle : (desk.world.thread me).activity = .idle)
    (hguards : next.stage.guards = desk.stage.guards) : next.Minds me start where
  worker := by
    rw [hworld]
    exact h.worker
  self := by
    obtain ⟨activity, _, hself⟩ := h.self
    refine ⟨.idle, .idle _, ?_⟩
    rw [hself] at hidle
    obtain rfl : activity = .idle := hidle
    rw [hworld, hself, hguards]

theorem stride_of_awaiting (h : desk.step? build me = some next) (hminds : desk.Minds me start)
    {handled : UInt64} (hstage : desk.stage = .awaiting handled) :
    Stride desk next ∧ next.Minds me start := by
  have hidle : (desk.world.thread me).activity = .idle := by
    obtain ⟨activity, hstands, hself⟩ := hminds.self
    rw [hstage] at hstands
    rw [hself, hstands.idle_of_receive]
  obtain ⟨deed, hdeed, hworld, hchannel, hnext⟩ := exists_deed_of_step? h
  rw [hstage, action] at hdeed
  simp only [perform?, hidle] at hdeed
  obtain ⟨⟨delivery, channel⟩, hreceive, rfl⟩ := Option.map_eq_some_iff.mp hdeed
  rw [hstage] at hnext
  have hlater : next.stage = .delivered handled delivery := by
    rw [hnext]
    cases delivery with
    | event event => cases event <;> rfl
    | ended | pending => rfl
  have hbeside : next.world = desk.world ∧ next.channel = channel := by
    rw [hworld, hchannel]
    cases delivery <;> exact ⟨rfl, rfl⟩
  refine ⟨.receive hstage hbeside.1 (by rw [hreceive, hbeside.2]) hlater,
    hminds.beside hbeside.1 hidle ?_⟩
  rw [hlater, hstage]
  cases delivery with
  | event event => cases event <;> rfl
  | ended | pending => rfl

theorem stride_of_acquiring (h : desk.step? build me = some next)
    (hreach : YieldLock.Reachable build desk.world) (hminds : desk.Minds me start)
    {event : UiEvent} {handled : UInt64} (hstage : desk.stage = .acquiring event handled) :
    Stride desk next ∧ next.Minds me start := by
  obtain ⟨activity, hstands, hself⟩ := hminds.self
  rw [hstage] at hstands hself
  have hactivity : (desk.world.thread me).activity = activity := by rw [hself]
  -- The thread is idle, or it waits in the call; it does not join.
  have hcases : activity = .idle ∨ ∃ watch, activity = .busy .acquire (.waiting watch) := by
    cases hstands with
    | idle => exact .inl rfl
    | waiting watch => exact .inr ⟨watch, rfl⟩
  obtain rfl | ⟨watch, rfl⟩ := hcases
  · obtain ⟨effect, hsteps⟩ := steps_of_call h hactivity (by rw [hstage]; rfl) rfl
    obtain rfl := hsteps.rule.of_acquire hminds.worker
    have hnext := hsteps.stage_of_none rfl
    have hwaits : StandsBefore (action next.stage)
        (.busy .acquire (.waiting ⟨desk.world.clock⟩)) := by
      rw [hnext, hstage]
      exact .waiting _
    refine ⟨.wait hstage ⟨by rw [hsteps.lock_eq]; rfl, by rw [hsteps.lock_eq]; rfl⟩ hnext,
      hsteps.minds hminds ?_ hwaits rfl⟩
    rw [hself, hnext, hstage]
    rfl
  · obtain ⟨effect, hsteps⟩ := steps_of_busy h hactivity
    have hmatched : desk.world.lock.waiters.isMatched = true :=
      hreach.waiters_isSet (by rw [hactivity]; rfl)
    obtain rfl | ⟨waited, rfl⟩ := hsteps.rule.of_waiting hactivity hmatched
    · have hnext := hsteps.stage_of_none rfl
      have hwaits : StandsBefore (action next.stage) (.busy .acquire (.waiting watch)) := by
        rw [hnext, hstage]
        exact .waiting watch
      refine ⟨.wait hstage ⟨by rw [hsteps.lock_eq], by rw [hsteps.lock_eq]⟩ hnext,
        hsteps.minds hminds ?_ hwaits rfl⟩
      rw [hself, hnext, hstage]
    · have hnext : next.stage = .loading event handled := by
        rw [hsteps.stage_of_answer rfl, hstage]
        rfl
      refine ⟨.acquire waited hstage (by rw [hsteps.lock_eq]; rfl) (by rw [hsteps.lock_eq]; rfl)
        hnext, hsteps.minds hminds ?_ (.idle _) rfl⟩
      rw [hself, hnext]
      rfl

/-- A call of the controller that is made in one step. -/
theorem steps_of_single (h : desk.step? build me = some next) (hminds : desk.Minds me start)
    {call : Call Machine} (haction : action desk.stage = .call call)
    (hcall : call ≠ .acquire ∧ (∀ child, call ≠ .join child) ∧ call.isSpawn = false) :
    desk.world.thread me =
        { start with guards := start.guards + desk.stage.guards, activity := .idle } ∧
      ∃ effect, Steps build me desk next (some call) effect := by
  obtain ⟨activity, hstands, hself⟩ := hminds.self
  rw [haction] at hstands
  obtain rfl := hstands.idle_of_call hcall.1 hcall.2.1
  have hidle : (desk.world.thread me).activity = .idle := by rw [hself]
  exact ⟨hself, steps_of_call h hidle haction hcall.2.2⟩

theorem stride_of_loading (h : desk.step? build me = some next) (hminds : desk.Minds me start)
    {event : UiEvent} {handled : UInt64} (hstage : desk.stage = .loading event handled) :
    Stride desk next ∧ next.Minds me start := by
  have haction : action desk.stage = .call (.read .guard) := by
    rw [hstage]
    rfl
  obtain ⟨hself, effect, hsteps⟩ :=
    steps_of_single h hminds haction ⟨nofun, fun _ ↦ nofun, rfl⟩
  obtain rfl := hsteps.rule.of_guard_read
  have hnext : next.stage = .loaded desk.world.lock.value handled event := by
    rw [hsteps.stage_of_answer rfl, hstage]
    cases event <;> rfl
  refine ⟨.load hstage ⟨by rw [hsteps.lock_eq]; rfl, by rw [hsteps.lock_eq]; rfl⟩ hnext,
    hsteps.minds hminds ?_ (.idle _) rfl⟩
  rw [hself, hstage, hnext]
  cases event <;> rfl

theorem stride_of_painting (h : desk.step? build me = some next) (hminds : desk.Minds me start)
    {machine : Machine} {color : UInt8} {handled : UInt64}
    (hstage : desk.stage = .painting machine color handled) :
    Stride desk next ∧ next.Minds me start := by
  have haction : action desk.stage = .call (.write .guard { machine with border := color }) := by
    rw [hstage]
    rfl
  obtain ⟨hself, effect, hsteps⟩ :=
    steps_of_single h hminds haction ⟨nofun, fun _ ↦ nofun, rfl⟩
  obtain rfl := hsteps.rule.of_guard_write
  have hnext : next.stage = .reporting (.borderSet color) handled := by
    rw [hsteps.stage_of_answer rfl, hstage]
    rfl
  refine ⟨.paint hstage (by rw [hsteps.lock_eq]; rfl) (by rw [hsteps.lock_eq]; rfl) hnext,
    hsteps.minds hminds ?_ (.idle _) rfl⟩
  rw [hself, hstage, hnext]
  rfl

theorem stride_of_releasing (h : desk.step? build me = some next) (hminds : desk.Minds me start)
    {handled : UInt64} (hstage : desk.stage = .releasing handled) :
    Stride desk next ∧ next.Minds me start := by
  have haction : action desk.stage = .call .release := by
    rw [hstage]
    rfl
  obtain ⟨hself, effect, hsteps⟩ :=
    steps_of_single h hminds haction ⟨nofun, fun _ ↦ nofun, rfl⟩
  obtain rfl := hsteps.rule.of_release
  have hnext : next.stage = .awaiting handled := by
    rw [hsteps.stage_of_answer rfl, hstage]
    rfl
  refine ⟨.release hstage ⟨by rw [hsteps.lock_eq]; rfl, by rw [hsteps.lock_eq]; rfl⟩ hnext,
    hsteps.minds hminds ?_ (.idle _) rfl⟩
  rw [hself, hstage, hnext]
  rfl

theorem stride_of_requesting (h : desk.step? build me = some next) (hminds : desk.Minds me start)
    {handled : UInt64} (hstage : desk.stage = .requesting handled) :
    Stride desk next ∧ next.Minds me start := by
  have haction : action desk.stage = .call .requestShutdown := by
    rw [hstage]
    rfl
  obtain ⟨hself, effect, hsteps⟩ :=
    steps_of_single h hminds haction ⟨nofun, fun _ ↦ nofun, rfl⟩
  obtain rfl := hsteps.rule.of_request
  have hlock : next.world.lock =
      { desk.world.lock with keepAlive := desk.world.lock.keepAlive.clear } := by
    rw [hsteps.lock_eq, ThreadState.lock_answer, Lock.lock_requestShutdown]
  have hnext : next.stage = .announcing handled ∨ next.stage = .done handled := by
    rw [hsteps.stage_of_answer (ThreadState.answers_answer ..), hstage]
    cases (desk.world.lock.requestShutdown me).1 with
    | signalled => exact .inl rfl
    | workerMustExit | alreadyRequested => exact .inr rfl
  refine ⟨.request hstage ⟨by rw [hlock], by rw [hlock]⟩ (by rw [hlock]; rfl) hnext,
    hsteps.minds hminds ?_ (.idle _) ?_⟩
  · rw [ThreadState.self_answer, hself, hstage]
    obtain hnext | hnext := hnext
    all_goals
      rw [hnext]
      rfl
  · rw [ThreadState.lock_answer, Lock.lock_requestShutdown]

/-- A step of the controller that logs a line. -/
theorem stride_of_log (h : desk.step? build me = some next) (hminds : desk.Minds me start)
    {notice : Notice} (haction : action desk.stage = .log notice) :
    next.world = desk.world ∧ next.stage = resume desk.stage .continued ∧
      (next.stage.guards = desk.stage.guards → next.Minds me start) := by
  obtain ⟨activity, hstands, hself⟩ := hminds.self
  rw [haction] at hstands
  have hidle : (desk.world.thread me).activity = .idle := by rw [hself, hstands.idle_of_log]
  obtain ⟨hworld, hnext⟩ := of_step?_log h hidle haction
  exact ⟨hworld, hnext, hminds.beside hworld hidle⟩

theorem stride (h : desk.step? build me = some next)
    (hreach : YieldLock.Reachable build desk.world) (hminds : desk.Minds me start) :
    Stride desk next ∧ next.Minds me start := by
  cases hstage : desk.stage with
  | awaiting handled => exact stride_of_awaiting h hminds hstage
  | acquiring event handled => exact stride_of_acquiring h hreach hminds hstage
  | loading event handled => exact stride_of_loading h hminds hstage
  | painting machine color handled => exact stride_of_painting h hminds hstage
  | releasing handled => exact stride_of_releasing h hminds hstage
  | requesting handled => exact stride_of_requesting h hminds hstage
  | reporting notice handled =>
    obtain ⟨hworld, hnext, hlater⟩ := stride_of_log h hminds (by rw [hstage]; rfl)
    rw [hstage] at hnext
    exact ⟨.report hstage hworld hnext, hlater (by rw [hnext, hstage]; rfl)⟩
  | announcing handled =>
    obtain ⟨hworld, hnext, hlater⟩ := stride_of_log h hminds (by rw [hstage]; rfl)
    rw [hstage] at hnext
    exact ⟨.announce hstage hworld hnext, hlater (by rw [hnext, hstage]; rfl)⟩
  | done handled =>
    obtain ⟨activity, hstands, hself⟩ := hminds.self
    rw [hstage] at hstands
    have hidle : (desk.world.thread me).activity = .idle := by rw [hself, hstands.idle_of_idle]
    obtain ⟨deed, hdeed, _⟩ := exists_deed_of_step? h
    rw [hstage, action] at hdeed
    simp only [perform?, hidle] at hdeed
    cases hdeed

end

end Desk

end Controller

end YieldLock.Demo
