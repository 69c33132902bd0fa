import YieldLock.Demo.Run
import YieldLock.Proofs.Acquiring
import YieldLock.Proofs.Deeds

/-!
# The main thread at work

The main thread has no session. It acquires the lock for each event that concerns
the machine and once more for the report, and at no other time it has a guard.
Main statements: `Run.mainStride`, all that a step of the main thread can do, and
`Run.Minds`, what the main thread has at each of its stages.
-/

namespace YieldLock

variable {σ : Type}

namespace ThreadState

section

variable {build : Build} {now : Nat} {me : Thread} {lock : Lock σ} {self : ThreadState σ}
  {effect : Effect σ}

/-- A thread other than the worker is counted before it waits for the lock. -/
theorem Rule.of_acquire (rule : Rule build now me lock self (some .acquire) effect)
    (hother : lock.worker ≠ some me) :
    effect =
      goOn { lock with waiters := lock.waiters.enter } self .acquire (.waiting ⟨now⟩) [] := by
  cases rule with
  | reenter _ hworker => exact absurd (eq_of_beq hworker) hother
  | enter => rfl
  | outOfReach _ hcall | dropBegin _ hcall | dropEnded _ hcall =>
    obtain h | ⟨_, h⟩ := hcall <;> cases h

/-- A thread that waits for the lock joins the queue, or it has the lock and its wait is counted. -/
theorem Rule.of_waiting (rule : Rule build now me lock self none effect) {watch : Stopwatch}
    (hbusy : self.activity = .busy .acquire (.waiting watch))
    (hmatched : lock.waiters.isMatched = true) :
    effect = ⟨{ lock with mutex := lock.mutex.wait me }, self, []⟩ ∨
      ∃ waited, effect =
        answer
          { lock with
            mutex := lock.mutex.take me
            waiters := lock.waiters.leave
            stats := lock.stats.countAcquisition waited }
          { self with guards := self.guards + 1 } .acquire .acquired [] := by
  cases rule with
  | park => exact .inl rfl
  | obtain hstands =>
    cases hbusy.symm.trans hstands
    exact .inr ⟨_, rfl⟩
  | obtainUnmatched _ _ _ hunmatched => cases hmatched.symm.trans hunmatched
  | _ hstands => cases hbusy.symm.trans hstands

theorem Rule.of_guard_read (rule : Rule build now me lock self (some (.read .guard)) effect) :
    effect = answer lock self (.read .guard) (.value lock.value) [] := by
  cases rule with
  | read => rfl
  | outOfReach _ hcall | dropBegin _ hcall | dropEnded _ hcall =>
    obtain h | ⟨_, h⟩ := hcall <;> cases h

theorem Rule.of_guard_write {value : σ}
    (rule : Rule build now me lock self (some (.write .guard value)) effect) :
    effect = answer { lock with value } self (.write .guard value) (.value lock.value) [] := by
  cases rule with
  | write => rfl
  | outOfReach _ hcall | dropBegin _ hcall | dropEnded _ hcall =>
    obtain h | ⟨_, h⟩ := hcall <;> cases h

theorem Rule.of_release (rule : Rule build now me lock self (some .release) effect) :
    effect = answer { lock with mutex := lock.mutex.giveBack me }
      { self with guards := self.guards - 1 } .release .released [] := by
  cases rule with
  | release => rfl
  | outOfReach _ hcall | dropBegin _ hcall | dropEnded _ hcall =>
    obtain h | ⟨_, h⟩ := hcall <;> cases h

theorem Rule.of_request (rule : Rule build now me lock self (some .requestShutdown) effect) :
    effect = answer (lock.requestShutdown me).2.2 self .requestShutdown
      (.requested (lock.requestShutdown me).1) ((lock.requestShutdown me).2.1.map .logged) := by
  cases rule with
  | request => rfl
  | outOfReach _ hcall | dropBegin _ hcall | dropEnded _ hcall =>
    obtain h | ⟨_, h⟩ := hcall <;> cases h

theorem Rule.of_join {child : Thread}
    (rule : Rule build now me lock self (some (.join child)) effect) :
    effect = goOn lock { self with handles := self.handles.erase child } (.join child)
      (.joining child) [] := by
  cases rule with
  | joinBegin => rfl
  | outOfReach _ hcall | dropBegin _ hcall | dropEnded _ hcall =>
    obtain h | ⟨_, h⟩ := hcall <;> cases h

end

end ThreadState

/-- A join is answered once the other thread has ended, and tells how. -/
theorem World.exists_outcome_of_joining {build : Build} {world next : World σ}
    {events : List (Event σ)} {me child : Thread} {call : Call σ}
    (hbusy : (world.thread me).activity = .busy call (.joining child))
    (h : world.step? build me = some (next, events)) :
    ∃ outcome, (world.thread child).activity = .finished outcome ∧
      (next, events) =
        let effect := ThreadState.answer world.lock (world.thread me) (.join child)
          (.joined (outcome.map LockError.ofPanic)) []
        (world.after me effect, effect.events) := by
  simp only [step?, hbusy] at h
  obtain ⟨effect, hjoin, hnext⟩ := Option.map_eq_some_iff.mp h
  unfold join? at hjoin
  split at hjoin
  · rename_i outcome hfinished
    cases hjoin
    exact ⟨outcome, hfinished, hnext.symm⟩
  · cases hjoin

/-- A thread that starts a worker gets a handle, and the worker is there; or the name of the worker
cannot be that of a thread, and nothing changes. -/
theorem World.spawn_cases {build : Build} {world next : World σ} {events : List (Event σ)}
    {me child : Thread} (h : world.call? build me (.spawn child) = some (next, events)) :
    next.lock = world.lock ∧
      ((∃ handles, next.thread me = { world.thread me with handles }) ∧
          events = [.answered (.spawn child) .spawned] ∨
        next = world ∧ ∃ panic, events = [.answered (.spawn child) (.panicked panic)]) := by
  unfold call? at h
  simp only at h
  split at h
  · rw [Option.some_inj] at h
    unfold spawn at h
    simp only at h
    split at h
    · cases h
      exact ⟨rfl, .inr ⟨rfl, _, rfl⟩⟩
    · cases h
      exact ⟨rfl, .inl ⟨⟨_, Roster.get_set_self ..⟩, rfl⟩⟩
  · cases h

namespace Demo

namespace MainStage

/-- How many guards the main thread has at a stage. -/
def guards : MainStage → Nat
  | controlling (.loading ..) | controlling (.painting ..) | controlling (.reporting ..)
  | controlling (.releasing _) | looking _ | releasing .. => 1
  | _ => 0

/-- The stage after an event has come or there are no more. -/
def delivered (handled : UInt64) : Channel.Delivery → MainStage
  | .event .quit | .ended => controlling (.requesting handled)
  | .event event => controlling (.acquiring event handled)
  | .pending => controlling (.awaiting handled)

theorem delivered_cases (handled : UInt64) (delivery : Channel.Delivery) :
    (∃ loop, delivered handled delivery = controlling loop) ∧
      (delivered handled delivery).guards = 0 := by
  cases delivery with
  | event event => cases event <;> exact ⟨⟨_, rfl⟩, rfl⟩
  | ended | pending => exact ⟨⟨_, rfl⟩, rfl⟩

end MainStage

/-- A thread is idle before an action, or it waits in the action for the lock or for the end of
another thread. -/
inductive StandsBefore : Action → Activity Machine → Prop where
  | idle (action : Action) : StandsBefore action .idle
  | waiting (watch : Stopwatch) : StandsBefore (.call .acquire) (.busy .acquire (.waiting watch))
  | joining (child : Thread) :
      StandsBefore (.call (.join child)) (.busy (.join child) (.joining child))

/-- A thread that has nothing to do is idle. -/
theorem StandsBefore.idle_of_idle {activity : Activity Machine}
    (h : StandsBefore .idle activity) : activity = .idle := by
  cases h
  rfl

/-- A thread is idle before it logs a line. -/
theorem StandsBefore.idle_of_log {notice : Notice} {activity : Activity Machine}
    (h : StandsBefore (.log notice) activity) : activity = .idle := by
  cases h
  rfl

theorem StandsBefore.ne_finished {action : Action} {activity : Activity Machine}
    (h : StandsBefore action activity) (outcome : Option Panic) :
    activity ≠ .finished outcome := by
  cases h <;> nofun

theorem StandsBefore.busy_cases {action : Action} {call : Call Machine} {point : Point}
    (h : StandsBefore action (.busy call point)) :
    (action = .call .acquire ∧ call = .acquire ∧ ∃ watch, point = .waiting watch) ∨
      ∃ child, action = .call (.join child) ∧ call = .join child ∧ point = .joining child := by
  cases h with
  | waiting watch => exact .inl ⟨rfl, rfl, watch, rfl⟩
  | joining child => exact .inr ⟨child, rfl, rfl, rfl⟩

namespace MainStage

variable {stage : MainStage}

theorem of_acquire (h : stage.action = .call .acquire) :
    (∃ event handled, stage = controlling (.acquiring event handled)) ∨
      ∃ handled, stage = acquiring handled := by
  cases stage with
  | acquiring handled => exact .inr ⟨handled, rfl⟩
  | controlling loop =>
    cases loop with
    | acquiring event handled => exact .inl ⟨event, handled, rfl⟩
    | _ => cases h
  | _ => cases h

theorem ne_spawning_of_action {action : Action} (h : stage.action = action)
    (haction : action ≠ .call (.spawn workerThread)) : stage ≠ spawning := by
  rintro rfl
  exact haction h.symm

theorem of_spawn {child : Thread} (h : stage.action = .call (.spawn child)) :
    child = workerThread := by
  cases stage with
  | spawning =>
    cases h
    rfl
  | controlling loop => cases loop <;> cases h
  | _ => cases h

theorem of_write {access : Access} {written : Machine}
    (h : stage.action = .call (.write access written)) :
    ∃ machine color handled, stage = controlling (.painting machine color handled) ∧
      written = { machine with border := color } := by
  cases stage with
  | controlling loop =>
    cases loop with
    | painting machine color handled =>
      cases h
      exact ⟨machine, color, handled, rfl, rfl⟩
    | _ => cases h
  | _ => cases h

theorem of_join {child : Thread} (h : stage.action = .call (.join child)) :
    child = workerThread ∧ ∃ handled, stage = joining handled := by
  cases stage with
  | joining handled =>
    cases h
    exact ⟨rfl, handled, rfl⟩
  | controlling loop => cases loop <;> cases h
  | _ => cases h

/-- A run is completed by the report. -/
theorem of_resume_completed {reply : Reply} {handled frames : UInt64}
    (h : stage.resume reply = done (.completed handled frames)) :
    stage = reporting handled frames ∨ stage = done (.completed handled frames) := by
  unfold resume at h
  split at h
  case h_3 =>
    -- The controller's loop goes on, or it is left to wait for the worker.
    simp only at h
    split at h <;> cases h
  all_goals cases h
  · exact .inl rfl
  · exact .inr rfl

end MainStage

namespace Run

/-- What the main thread has at its stage. -/
structure Minds (run : Run) : Prop where
  session : (run.world.thread mainThread).session = none
  guards : (run.world.thread mainThread).guards = run.main.guards
  stands : StandsBefore run.main.action (run.world.thread mainThread).activity
  worker : run.world.lock.worker ≠ some mainThread

section

variable (run : Run) (stage : MainStage)

@[simp] theorem main_enter : (run.enter stage).main = stage := by
  unfold enter
  split <;> rfl

@[simp] theorem world_enter : (run.enter stage).world = run.world := by
  unfold enter
  split <;> rfl

@[simp] theorem worker_enter : (run.enter stage).worker = run.worker := by
  unfold enter
  split <;> rfl

@[simp] theorem settings_enter : (run.enter stage).settings = run.settings := by
  unfold enter
  split <;> rfl

variable {run stage}

/-- The source is there as soon as the main thread has begun, and it stays. -/
theorem source_enter (hmain : run.main ≠ .spawning) : (run.enter stage).source = run.source := by
  unfold enter
  split
  · exact absurd ‹_› hmain
  · rfl
  · rfl

/-- The source begins with the controller's loop. -/
theorem source_enter_of_spawning (hmain : run.main = .spawning) {loop : Controller.Stage}
    (hstage : stage = .controlling loop) :
    (run.enter stage).source = some (EventSource.stageAt run.eventCount 0) := by
  unfold enter
  rw [hmain, hstage]

/-- The receiver is gone when the main thread goes on to wait for the worker. -/
theorem channel_enter (hstage : ∀ handled, stage ≠ .joining handled) :
    (run.enter stage).channel = run.channel := by
  unfold enter
  split
  · rfl
  · exact absurd rfl (hstage _)
  · rfl

end

/-- What a step of the main thread leaves alone. -/
structure Spares (run next : Run) : Prop where
  settings : next.settings = run.settings
  worker : next.worker = run.worker
  source : run.main ≠ .spawning → next.source = run.source
  /-- The receiver is gone when the main thread goes on to wait for the worker. -/
  channel : run.main.action.isExchange = false → (∀ handled, next.main ≠ .joining handled) →
    next.channel = run.channel

/-- A step by which the main thread performs the action of its stage. -/
structure MainActs (build : Build) (run next : Run) (lines : List Line) (deed : Deed) : Prop where
  performs : perform? build run.world run.channel mainThread run.main.action = some deed
  lines_eq : lines = deed.lines
  world : next.world = deed.world
  main : next.main = deed.reply.elim run.main run.main.resume
  channel : (∀ handled, next.main ≠ .joining handled) → next.channel = deed.channel
  source : run.main = .spawning → ∀ stage, next.main = .controlling stage →
    next.source = some (EventSource.stageAt run.eventCount 0)

/-- A step of the main thread by a rule, with the stage after it. -/
structure MainSteps (build : Build) (run next : Run) (call? : Option (Call Machine))
    (effect : Effect Machine) : Prop where
  rule : ThreadState.Rule build run.world.clock mainThread run.world.lock
    (run.world.thread mainThread) call? effect
  world : next.world = run.world.after mainThread effect
  main : next.main = effect.answers.head?.elim run.main fun answer ↦
    run.main.resume (.answered answer)

/-- The value and the counters of the lock are as they were. -/
def Keeps (run next : Run) : Prop :=
  next.world.lock.value = run.world.lock.value ∧ next.world.lock.stats = run.world.lock.stats

/-- All that a step of the main thread can do. -/
inductive MainStride (run next : Run) : Prop where
  | spawn (hmain : run.main = .spawning) (hlock : next.world.lock = run.world.lock)
      (hnext : next.main = .controlling (.awaiting 0) ∧ next.channel = run.channel ∧
          next.source = some (EventSource.stageAt run.eventCount 0) ∨
        ∃ panic, next.main = .done (.panicked panic))
  | receive {handled : UInt64} {delivery : Channel.Delivery}
      (hmain : run.main = .controlling (.awaiting handled)) (hworld : next.world = run.world)
      (hreceive : run.channel.receive? = some (delivery, next.channel))
      (hnext : next.main = .delivered handled delivery)
  | wait (hmain : run.main ≠ .spawning) (haction : run.main.action.isExchange = false)
      (hkept : run.Keeps next) (hnext : next.main = run.main)
  | acquire (waited : UInt64)
      (hmain : (∃ event handled, run.main = .controlling (.acquiring event handled) ∧
          next.main = .controlling (.loading event handled)) ∨
        ∃ handled, run.main = .acquiring handled ∧ next.main = .looking handled)
      (hvalue : next.world.lock.value = run.world.lock.value)
      (hstats : next.world.lock.stats = run.world.lock.stats.countAcquisition waited)
  | look (hlock : next.world.lock = run.world.lock)
      (hmain : (∃ color handled, run.main = .controlling (.loading (.poke color) handled) ∧
          next.main = .controlling (.painting run.world.lock.value color handled)) ∨
        (∃ event handled, run.main = .controlling (.loading event handled) ∧
          next.main = .controlling (.reporting (.status run.world.lock.value) handled)) ∨
        ∃ handled, run.main = .looking handled ∧
          next.main = .releasing handled run.world.lock.value.frame)
  | paint {machine : Machine} {color : UInt8} {handled : UInt64}
      (hmain : run.main = .controlling (.painting machine color handled))
      (hlock : next.world.lock =
        { run.world.lock with value := { machine with border := color } })
      (hnext : next.main = .controlling (.reporting (.borderSet color) handled))
  | log (hworld : next.world = run.world)
      (hmain : (∃ notice handled, run.main = .controlling (.reporting notice handled) ∧
          next.main = .controlling (.releasing (handled + 1))) ∨
        (∃ handled, run.main = .controlling (.announcing handled) ∧
          next.main = .joining handled) ∨
        ∃ handled frames, run.main = .reporting handled frames ∧
          next.main = .done (.completed handled frames))
  | release (hkept : run.Keeps next)
      (hmain : (∃ handled, run.main = .controlling (.releasing handled) ∧
          next.main = .controlling (.awaiting handled)) ∨
        ∃ handled frames, run.main = .releasing handled frames ∧
          next.main = .reporting handled frames)
  | request {handled : UInt64} (hmain : run.main = .controlling (.requesting handled))
      (hkept : run.Keeps next)
      (hnext : next.main = .controlling (.announcing handled) ∨ next.main = .joining handled)
  | join {handled : UInt64} {outcome : Option Panic} (hmain : run.main = .joining handled)
      (hfinished : (run.world.thread workerThread).activity = .finished outcome)
      (hkept : run.Keeps next)
      (hnext : outcome = none ∧ next.main = .awaitingSource handled ∨
        ∃ error, next.main = .done (.workerFailed error))
  | await {handled : UInt64} (hmain : run.main = .awaitingSource handled)
      (hworld : next.world = run.world) (hnext : next.main = .acquiring handled)

section

variable {build : Build} {run next : Run} {lines : List Line} {call? : Option (Call Machine)}
  {effect : Effect Machine}

theorem mainActs_of_deed {deed : Deed}
    (hdeed : perform? build run.world run.channel mainThread run.main.action = some deed)
    (hnext : next = deed.reply.elim { run with world := deed.world, channel := deed.channel }
      fun reply ↦
        { run with world := deed.world, channel := deed.channel }.enter (run.main.resume reply)) :
    run.MainActs build next deed.lines deed ∧ run.Spares next := by
  subst hnext
  cases hreply : deed.reply with
  | none =>
    refine ⟨⟨hdeed, rfl, rfl, ?_, fun _ ↦ rfl, ?_⟩, rfl, rfl, fun _ ↦ rfl, fun haction _ ↦ ?_⟩
    · rw [hreply]
      rfl
    · intro hmain stage hnext
      cases hmain.symm.trans hnext
    · exact channel_of_perform? haction hdeed
  | some reply =>
    have hmain := main_enter { run with world := deed.world, channel := deed.channel }
      (run.main.resume reply)
    refine ⟨⟨hdeed, rfl, ?_, ?_, ?_, ?_⟩, ?_, ?_, ?_, ?_⟩
    · exact world_enter ..
    · rw [hreply]
      exact hmain
    · intro hstage
      exact channel_enter fun handled heq ↦ hstage handled (hmain.trans heq)
    · intro hspawning stage hstage
      exact source_enter_of_spawning hspawning (hmain.symm.trans hstage)
    · exact settings_enter ..
    · exact worker_enter ..
    · exact fun hspawning ↦ source_enter hspawning
    · intro haction hstage
      exact (channel_enter fun handled heq ↦ hstage handled (hmain.trans heq)).trans
        (channel_of_perform? haction hdeed)

/-- The main thread goes on when the source has ended, or it performs the action of its stage. -/
theorem of_mainStep? (h : run.mainStep? build = some (next, lines)) : run.Spares next ∧
    ((∃ handled, run.main = .awaitingSource handled ∧ next.main = .acquiring handled ∧
        next.world = run.world ∧ lines = []) ∨
      ∃ deed, run.MainActs build next lines deed) := by
  unfold mainStep? at h
  split at h
  · rename_i handled hmain _
    cases h
    rw [hmain]
    refine ⟨⟨settings_enter .., worker_enter .., source_enter, fun _ hstage ↦ ?_⟩,
      .inl ⟨handled, rfl, main_enter .., world_enter .., rfl⟩⟩
    exact channel_enter fun _ ↦ nofun
  · obtain ⟨deed, hdeed, hnext⟩ := Option.map_eq_some_iff.mp h
    cases hnext
    obtain ⟨hacts, hspares⟩ := mainActs_of_deed hdeed rfl
    exact ⟨hspares, .inr ⟨deed, hacts⟩⟩

/-- A step of the main thread leaves the world as it is, or it is a move of the thread. -/
theorem move_of_mainStep? (h : run.mainStep? build = some (next, lines)) :
    next.world = run.world ∧ lines.filterMap Line.entry? = [] ∨
      ∃ move events, (move = .step mainThread ∨
          ∃ call, run.main.action = .call call ∧ move = .call mainThread call) ∧
        run.world.move? build move = some (next.world, events) ∧
        lines.filterMap Line.entry? = events.filterMap Event.entry? := by
  obtain ⟨_, ⟨_, _, _, hworld, rfl⟩ | ⟨deed, hacts⟩⟩ := of_mainStep? h
  · exact .inl ⟨hworld, rfl⟩
  · rw [hacts.world, hacts.lines_eq]
    exact exists_move_of_perform? hacts.performs

/-- A step of the main thread inside a call. -/
theorem MainActs.steps_of_busy {deed : Deed} (h : run.MainActs build next lines deed)
    {call : Call Machine} {point : Point}
    (hbusy : (run.world.thread mainThread).activity = .busy call point) :
    ∃ effect, MainSteps build run next none effect := by
  obtain ⟨effect, rule, rfl⟩ := exists_rule_of_busy hbusy h.performs
  refine ⟨effect, rule, h.world, ?_⟩
  rw [h.main, Deed.reply_ofEvents]
  cases effect.answers.head? <;> rfl

/-- A call that the main thread makes. -/
theorem MainActs.steps_of_call {deed : Deed} (h : run.MainActs build next lines deed)
    {call : Call Machine} (hidle : (run.world.thread mainThread).activity = .idle)
    (haction : run.main.action = .call call) (hspawn : call.isSpawn = false) :
    ∃ effect, MainSteps build run next (some call) effect := by
  have hdeed := h.performs
  rw [haction] at hdeed
  obtain ⟨effect, rule, rfl⟩ := exists_rule_of_call hspawn hidle hdeed
  refine ⟨effect, rule, h.world, ?_⟩
  rw [h.main, Deed.reply_ofEvents]
  cases effect.answers.head? <;> rfl

theorem MainSteps.self_eq (h : MainSteps build run next call? effect) :
    next.world.thread mainThread = effect.self := by rw [h.world, World.thread_after_self]

theorem MainSteps.lock_eq (h : MainSteps build run next call? effect) :
    next.world.lock = effect.lock := by rw [h.world, World.lock_after]

theorem MainSteps.main_of_answer (h : MainSteps build run next call? effect)
    {answer : Answer Machine} (hanswers : effect.answers = [answer]) :
    next.main = run.main.resume (.answered answer) := by
  rw [h.main, hanswers]
  rfl

theorem MainSteps.main_of_none (h : MainSteps build run next call? effect)
    (hanswers : effect.answers = []) : next.main = run.main := by
  rw [h.main, hanswers]
  rfl

/-- The main thread minds its stage after a step that leaves it without a session. -/
theorem MainSteps.minds (h : MainSteps build run next call? effect) (hminds : run.Minds)
    (hsession : effect.self.session = (run.world.thread mainThread).session)
    (hguards : effect.self.guards = next.main.guards)
    (hstands : StandsBefore next.main.action effect.self.activity)
    (hworker : effect.lock.worker = run.world.lock.worker) : next.Minds where
  session := by rw [h.self_eq, hsession, hminds.session]
  guards := by rw [h.self_eq, hguards]
  stands := by rwa [h.self_eq]
  worker := by
    rw [h.lock_eq, hworker]
    exact hminds.worker

/-- The main thread minds its stage while others make their steps. -/
theorem Minds.congr (h : run.Minds)
    (hthread : next.world.thread mainThread = run.world.thread mainThread)
    (hmain : next.main = run.main) (hworker : next.world.lock.worker ≠ some mainThread) :
    next.Minds where
  session := by rw [hthread, h.session]
  guards := by rw [hthread, h.guards, hmain]
  stands := by
    rw [hthread, hmain]
    exact h.stands
  worker := hworker

/-- The main thread minds its stage after a step beside the lock. -/
theorem Minds.beside (h : run.Minds) (hworld : next.world = run.world)
    (hidle : (run.world.thread mainThread).activity = .idle)
    (hguards : next.main.guards = run.main.guards) : next.Minds where
  session := by rw [hworld, h.session]
  guards := by rw [hworld, h.guards, hguards]
  stands := by
    rw [hworld, hidle]
    exact .idle _
  worker := by
    rw [hworld]
    exact h.worker

/-- The main thread begins to wait in a call, or it goes on waiting. -/
theorem MainSteps.waits (h : MainSteps build run next call? effect) (hminds : run.Minds)
    {call : Call Machine} (haction : run.main.action = .call call) (hcall : call.isSpawn = false)
    (hanswers : effect.answers = [])
    (hlock : effect.lock.value = run.world.lock.value ∧
      effect.lock.stats = run.world.lock.stats ∧ effect.lock.worker = run.world.lock.worker)
    (hself : effect.self.session = (run.world.thread mainThread).session ∧
      effect.self.guards = (run.world.thread mainThread).guards)
    (hstands : StandsBefore (.call call) effect.self.activity) :
    run.MainStride next ∧ next.Minds := by
  have hnext := h.main_of_none hanswers
  have hmain : run.main ≠ .spawning := by
    apply MainStage.ne_spawning_of_action haction
    rintro ⟨⟩
    cases hcall
  refine ⟨.wait hmain (by rw [haction]; rfl) ?_ hnext, h.minds hminds hself.1 ?_ ?_ hlock.2.2⟩
  · rw [Keeps, h.lock_eq]
    exact ⟨hlock.1, hlock.2.1⟩
  · rw [hnext, hself.2, hminds.guards]
  · rwa [hnext, haction]

theorem mainStride_of_waiting (hreach : YieldLock.Reachable build run.world)
    (hsteps : MainSteps build run next none effect) (hminds : run.Minds)
    {watch : Stopwatch}
    (hbusy : (run.world.thread mainThread).activity = .busy .acquire (.waiting watch))
    (haction : run.main.action = .call .acquire) : run.MainStride next ∧ next.Minds := by
  have hmatched : run.world.lock.waiters.isMatched = true :=
    hreach.waiters_isSet (by rw [hbusy]; rfl)
  have hguards := hminds.guards
  obtain rfl | ⟨waited, rfl⟩ := hsteps.rule.of_waiting hbusy hmatched
  · exact hsteps.waits hminds haction rfl rfl ⟨rfl, rfl, rfl⟩ ⟨rfl, rfl⟩ (haction ▸ hminds.stands)
  · have hnext := hsteps.main_of_answer rfl
    have hstages : (∃ event handled, run.main = .controlling (.acquiring event handled) ∧
          next.main = .controlling (.loading event handled)) ∨
        ∃ handled, run.main = .acquiring handled ∧ next.main = .looking handled := by
      obtain ⟨event, handled, hmain⟩ | ⟨handled, hmain⟩ := MainStage.of_acquire haction
      · exact .inl ⟨event, handled, hmain, by rw [hnext, hmain]; rfl⟩
      · exact .inr ⟨handled, hmain, by rw [hnext, hmain]; rfl⟩
    refine ⟨.acquire waited hstages ?_ ?_, hsteps.minds hminds rfl ?_ (.idle _) rfl⟩
    · rw [hsteps.lock_eq]
      rfl
    · rw [hsteps.lock_eq]
      rfl
    · change (run.world.thread mainThread).guards + 1 = _
      rw [hguards]
      obtain ⟨_, _, hmain, hnext⟩ | ⟨_, hmain, hnext⟩ := hstages
      all_goals
        rw [hmain, hnext]
        rfl

theorem mainStride_of_read (hsteps : MainSteps build run next (some (.read .guard)) effect)
    (hminds : run.Minds)
    (hmain : (∃ event handled, run.main = .controlling (.loading event handled)) ∨
      ∃ handled, run.main = .looking handled) : run.MainStride next ∧ next.Minds := by
  obtain rfl := hsteps.rule.of_guard_read
  have hnext := hsteps.main_of_answer rfl
  have hstages : (∃ color handled, run.main = .controlling (.loading (.poke color) handled) ∧
        next.main = .controlling (.painting run.world.lock.value color handled)) ∨
      (∃ event handled, run.main = .controlling (.loading event handled) ∧
        next.main = .controlling (.reporting (.status run.world.lock.value) handled)) ∨
      ∃ handled, run.main = .looking handled ∧
        next.main = .releasing handled run.world.lock.value.frame := by
    obtain ⟨event, handled, hmain⟩ | ⟨handled, hmain⟩ := hmain
    · rw [hmain] at hnext
      cases event with
      | poke color => exact .inl ⟨color, handled, hmain, hnext⟩
      | inspect | quit => exact .inr (.inl ⟨_, handled, hmain, hnext⟩)
    · rw [hmain] at hnext
      exact .inr (.inr ⟨handled, hmain, hnext⟩)
  refine ⟨.look hsteps.lock_eq hstages, hsteps.minds hminds rfl ?_ (.idle _) rfl⟩
  change (run.world.thread mainThread).guards = _
  rw [hminds.guards]
  obtain ⟨_, _, hmain, hnext⟩ | ⟨_, _, hmain, hnext⟩ | ⟨_, hmain, hnext⟩ := hstages
  all_goals
    rw [hmain, hnext]
    rfl

theorem mainStride_of_write {machine : Machine} {color : UInt8} {handled : UInt64}
    (hsteps : MainSteps build run next
      (some (.write .guard { machine with border := color })) effect)
    (hminds : run.Minds) (hmain : run.main = .controlling (.painting machine color handled)) :
    run.MainStride next ∧ next.Minds := by
  obtain rfl := hsteps.rule.of_guard_write
  have hnext : next.main = .controlling (.reporting (.borderSet color) handled) := by
    rw [hsteps.main_of_answer rfl, hmain]
    rfl
  refine ⟨.paint hmain hsteps.lock_eq hnext, hsteps.minds hminds rfl ?_ (.idle _) rfl⟩
  change (run.world.thread mainThread).guards = _
  rw [hminds.guards, hmain, hnext]
  rfl

theorem mainStride_of_release (hsteps : MainSteps build run next (some .release) effect)
    (hminds : run.Minds)
    (hmain : (∃ handled, run.main = .controlling (.releasing handled)) ∨
      ∃ handled frames, run.main = .releasing handled frames) :
    run.MainStride next ∧ next.Minds := by
  obtain rfl := hsteps.rule.of_release
  have hnext := hsteps.main_of_answer rfl
  have hstages : (∃ handled, run.main = .controlling (.releasing handled) ∧
        next.main = .controlling (.awaiting handled)) ∨
      ∃ handled frames, run.main = .releasing handled frames ∧
        next.main = .reporting handled frames := by
    obtain ⟨handled, hmain⟩ | ⟨handled, frames, hmain⟩ := hmain
    · exact .inl ⟨handled, hmain, by rw [hnext, hmain]; rfl⟩
    · exact .inr ⟨handled, frames, hmain, by rw [hnext, hmain]; rfl⟩
  refine ⟨.release ?_ hstages, hsteps.minds hminds rfl ?_ (.idle _) rfl⟩
  · rw [Keeps, hsteps.lock_eq]
    exact ⟨rfl, rfl⟩
  · change (run.world.thread mainThread).guards - 1 = _
    rw [hminds.guards]
    obtain ⟨_, hmain, hnext⟩ | ⟨_, _, hmain, hnext⟩ := hstages
    all_goals
      rw [hmain, hnext]
      rfl

theorem mainStride_of_request (hsteps : MainSteps build run next (some .requestShutdown) effect)
    (hminds : run.Minds) {handled : UInt64}
    (hmain : run.main = .controlling (.requesting handled)) :
    run.MainStride next ∧ next.Minds := by
  obtain rfl := hsteps.rule.of_request
  have hnext : next.main = .controlling (.announcing handled) ∨ next.main = .joining handled := by
    rw [hsteps.main_of_answer (ThreadState.answers_answer ..), hmain]
    cases (run.world.lock.requestShutdown mainThread).1 with
    | signalled => exact .inl rfl
    | workerMustExit | alreadyRequested => exact .inr rfl
  refine ⟨.request hmain ?_ hnext, hsteps.minds hminds rfl ?_ (.idle _) ?_⟩
  · rw [Keeps, hsteps.lock_eq, ThreadState.lock_answer, Lock.lock_requestShutdown]
    exact ⟨rfl, rfl⟩
  · change (run.world.thread mainThread).guards = _
    rw [hminds.guards, hmain]
    obtain hnext | hnext := hnext
    all_goals
      rw [hnext]
      rfl
  · rw [ThreadState.lock_answer, Lock.lock_requestShutdown]

theorem mainStride_of_joining (h : run.MainActs build next lines deed) (hminds : run.Minds)
    {child : Thread}
    (hbusy : (run.world.thread mainThread).activity = .busy (.join child) (.joining child))
    {handled : UInt64} (hmain : run.main = .joining handled) (hchild : child = workerThread) :
    run.MainStride next ∧ next.Minds := by
  have hdeed := h.performs
  rw [perform?_of_busy hbusy] at hdeed
  obtain ⟨⟨world, events⟩, hstep, rfl⟩ := Option.map_eq_some_iff.mp hdeed
  obtain ⟨outcome, hfinished, hanswered⟩ := World.exists_outcome_of_joining hbusy hstep
  cases hanswered
  have hsteps : MainSteps build run next none _ := ⟨.joined hbusy, h.world, h.main⟩
  have hnext := hsteps.main_of_answer rfl
  rw [hmain] at hnext
  have hstages : outcome = none ∧ next.main = .awaitingSource handled ∨
      ∃ error, next.main = .done (.workerFailed error) := by
    cases outcome with
    | none => exact .inl ⟨rfl, hnext⟩
    | some panic => exact .inr ⟨_, hnext⟩
  refine ⟨.join hmain (hchild ▸ hfinished) ?_ hstages, hsteps.minds hminds rfl ?_ (.idle _) rfl⟩
  · rw [Keeps, hsteps.lock_eq]
    exact ⟨rfl, rfl⟩
  · change (run.world.thread mainThread).guards = _
    rw [hminds.guards, hmain]
    obtain ⟨_, hnext⟩ | ⟨_, hnext⟩ := hstages
    all_goals
      rw [hnext]
      rfl

theorem mainStride_of_spawn (h : run.MainActs build next lines deed) (hminds : run.Minds)
    (hidle : (run.world.thread mainThread).activity = .idle) (hmain : run.main = .spawning) :
    run.MainStride next ∧ next.Minds := by
  have hdeed := h.performs
  rw [hmain, MainStage.action, perform?_of_call hidle] at hdeed
  obtain ⟨⟨world, events⟩, hcall, rfl⟩ := Option.map_eq_some_iff.mp hdeed
  have hworld : next.world = world := h.world
  have hguards := hminds.guards
  rw [hmain] at hguards
  obtain ⟨hlock, ⟨⟨handles, hself⟩, rfl⟩ | ⟨rfl, panic, rfl⟩⟩ := World.spawn_cases hcall
  · have hnext : next.main = .controlling (.awaiting 0) := by
      rw [h.main, hmain]
      rfl
    refine ⟨.spawn hmain (by rw [hworld, hlock]) (.inl ⟨hnext, ?_, h.source hmain _ hnext⟩), ?_⟩
    · exact h.channel (by rw [hnext]; nofun)
    · refine ⟨?_, ?_, ?_, ?_⟩
      · rw [hworld, hself, hminds.session]
      · rw [hworld, hself, hguards, hnext]
        rfl
      · rw [hworld, hself, hidle]
        exact .idle _
      · rw [hworld, hlock]
        exact hminds.worker
  · have hnext : next.main = .done (.panicked panic) := by
      rw [h.main, hmain]
      rfl
    refine ⟨.spawn hmain (by rw [hworld]) (.inr ⟨panic, hnext⟩), ?_⟩
    exact hminds.beside hworld hidle (by rw [hnext, hmain]; rfl)

/-- A thread that is idle performs no action if there is nothing to do. -/
theorem MainActs.not_idle (h : run.MainActs build next lines deed)
    (hidle : (run.world.thread mainThread).activity = .idle) : run.main.action ≠ .idle := by
  intro haction
  have hdeed := h.performs
  rw [haction] at hdeed
  simp only [perform?, hidle] at hdeed
  cases hdeed

theorem MainActs.of_log (h : run.MainActs build next lines deed)
    (hidle : (run.world.thread mainThread).activity = .idle) {notice : Notice}
    (haction : run.main.action = .log notice) :
    next.world = run.world ∧ next.main = run.main.resume .continued ∧
      lines = [.notice notice] := by
  have hdeed := h.performs
  rw [haction] at hdeed
  simp only [perform?, hidle] at hdeed
  cases hdeed
  exact ⟨h.world, h.main, h.lines_eq⟩

theorem mainStride_of_log (h : run.MainActs build next lines deed) (hminds : run.Minds)
    (hidle : (run.world.thread mainThread).activity = .idle)
    (hmain : (∃ notice handled, run.main = .controlling (.reporting notice handled)) ∨
      (∃ handled, run.main = .controlling (.announcing handled)) ∨
      ∃ handled frames, run.main = .reporting handled frames) :
    run.MainStride next ∧ next.Minds := by
  obtain ⟨notice, handled, hmain⟩ | ⟨handled, hmain⟩ | ⟨handled, frames, hmain⟩ := hmain
  all_goals
    obtain ⟨hworld, hnext, _⟩ := h.of_log hidle (by rw [hmain]; rfl)
    rw [hmain] at hnext
    refine ⟨.log hworld ?_, hminds.beside hworld hidle (by rw [hnext, hmain]; rfl)⟩
  · exact .inl ⟨notice, handled, hmain, hnext⟩
  · exact .inr (.inl ⟨handled, hmain, hnext⟩)
  · exact .inr (.inr ⟨handled, frames, hmain, hnext⟩)

theorem mainStride_of_receive (h : run.MainActs build next lines deed) (hminds : run.Minds)
    (hidle : (run.world.thread mainThread).activity = .idle) {handled : UInt64}
    (hmain : run.main = .controlling (.awaiting handled)) :
    run.MainStride next ∧ next.Minds := by
  have hdeed := h.performs
  rw [hmain] at hdeed
  simp only [MainStage.action, Controller.action, perform?, hidle] at hdeed
  obtain ⟨⟨delivery, channel⟩, hreceive, rfl⟩ := Option.map_eq_some_iff.mp hdeed
  have hworld : next.world = run.world := by
    rw [h.world]
    cases delivery <;> rfl
  have hnext : next.main = .delivered handled delivery := by
    rw [h.main, hmain]
    cases delivery with
    | event event => cases event <;> rfl
    | ended | pending => rfl
  obtain ⟨⟨loop, hloop⟩, hguards⟩ := MainStage.delivered_cases handled delivery
  have hchannel : next.channel = channel := by
    rw [h.channel (by simp [hnext, hloop])]
    cases delivery <;> rfl
  refine ⟨.receive hmain hworld (hchannel ▸ hreceive) hnext, hminds.beside hworld hidle ?_⟩
  rw [hnext, hguards, hmain]
  rfl

/-- A step of the main thread is one of its strides, and leaves the thread with what its stage
stands for. -/
theorem mainStride (h : run.mainStep? build = some (next, lines))
    (hreach : YieldLock.Reachable build run.world) (hminds : run.Minds) :
    run.MainStride next ∧ next.Minds := by
  obtain ⟨_, ⟨handled, hmain, hnext, hworld, _⟩ | ⟨deed, h⟩⟩ := of_mainStep? h
  · have hstands := hminds.stands
    rw [hmain] at hstands
    exact ⟨.await hmain hworld hnext,
      hminds.beside hworld (hstands.idle_of_idle) (by rw [hnext, hmain]; rfl)⟩
  cases hactivity : (run.world.thread mainThread).activity with
  | finished outcome => exact absurd hactivity (hminds.stands.ne_finished outcome)
  | busy call point =>
    have hstands := hminds.stands
    rw [hactivity] at hstands
    obtain ⟨haction, rfl, watch, rfl⟩ | ⟨child, haction, rfl, rfl⟩ := hstands.busy_cases
    · obtain ⟨effect, hsteps⟩ := h.steps_of_busy hactivity
      exact mainStride_of_waiting hreach hsteps hminds hactivity haction
    · obtain ⟨rfl, handled, hmain⟩ := MainStage.of_join haction
      exact mainStride_of_joining h hminds hactivity hmain rfl
  | idle =>
    cases hmain : run.main with
    | spawning => exact mainStride_of_spawn h hminds hactivity hmain
    | controlling loop =>
      cases loop with
      | awaiting handled => exact mainStride_of_receive h hminds hactivity hmain
      | acquiring event handled =>
        have haction : run.main.action = .call .acquire := by rw [hmain]; rfl
        obtain ⟨effect, hsteps⟩ := h.steps_of_call hactivity haction rfl
        obtain rfl := hsteps.rule.of_acquire hminds.worker
        exact hsteps.waits hminds haction rfl rfl ⟨rfl, rfl, rfl⟩ ⟨rfl, rfl⟩ (.waiting _)
      | loading event handled =>
        obtain ⟨effect, hsteps⟩ := h.steps_of_call hactivity (by rw [hmain]; rfl) rfl
        exact mainStride_of_read hsteps hminds (.inl ⟨event, handled, hmain⟩)
      | painting machine color handled =>
        obtain ⟨effect, hsteps⟩ := h.steps_of_call hactivity (by rw [hmain]; rfl) rfl
        exact mainStride_of_write hsteps hminds hmain
      | reporting notice handled =>
        exact mainStride_of_log h hminds hactivity (.inl ⟨notice, handled, hmain⟩)
      | releasing handled =>
        obtain ⟨effect, hsteps⟩ := h.steps_of_call hactivity (by rw [hmain]; rfl) rfl
        exact mainStride_of_release hsteps hminds (.inl ⟨handled, hmain⟩)
      | requesting handled =>
        obtain ⟨effect, hsteps⟩ := h.steps_of_call hactivity (by rw [hmain]; rfl) rfl
        exact mainStride_of_request hsteps hminds hmain
      | announcing handled =>
        exact mainStride_of_log h hminds hactivity (.inr (.inl ⟨handled, hmain⟩))
      | done handled => exact (h.not_idle hactivity (by rw [hmain]; rfl)).elim
    | joining handled =>
      have haction : run.main.action = .call (.join workerThread) := by rw [hmain]; rfl
      obtain ⟨effect, hsteps⟩ := h.steps_of_call hactivity haction rfl
      obtain rfl := hsteps.rule.of_join
      exact hsteps.waits hminds haction rfl rfl ⟨rfl, rfl, rfl⟩ ⟨rfl, rfl⟩ (.joining _)
    | awaitingSource handled => exact (h.not_idle hactivity (by rw [hmain]; rfl)).elim
    | acquiring handled =>
      have haction : run.main.action = .call .acquire := by rw [hmain]; rfl
      obtain ⟨effect, hsteps⟩ := h.steps_of_call hactivity haction rfl
      obtain rfl := hsteps.rule.of_acquire hminds.worker
      exact hsteps.waits hminds haction rfl rfl ⟨rfl, rfl, rfl⟩ ⟨rfl, rfl⟩ (.waiting _)
    | looking handled =>
      obtain ⟨effect, hsteps⟩ := h.steps_of_call hactivity (by rw [hmain]; rfl) rfl
      exact mainStride_of_read hsteps hminds (.inr ⟨handled, hmain⟩)
    | releasing handled frames =>
      obtain ⟨effect, hsteps⟩ := h.steps_of_call hactivity (by rw [hmain]; rfl) rfl
      exact mainStride_of_release hsteps hminds (.inr ⟨handled, frames, hmain⟩)
    | reporting handled frames =>
      exact mainStride_of_log h hminds hactivity (.inr (.inr ⟨handled, frames, hmain⟩))
    | done ending => exact (h.not_idle hactivity (by rw [hmain]; rfl)).elim

end

end Run

end Demo

end YieldLock
