import YieldLock.Demo.CommandLine
import YieldLock.Proofs.Outcome
import YieldLock.Proofs.RoundTrip
import YieldLock.Proofs.Sleeping

/-!
# Whether a run gets its worker

Settings that are accepted make a run, and the first thing in it is that the main thread starts
the worker. That fails for a name with a zero character, which no check looks for. Once the
worker's thread is there, no call of the main thread panics. Main statements:
`Rule.not_panicked`, which calls never panic, `Run.Launch.of_pulse?` and `Run.History.launch`, how
far a run can be, and `accepted_settings_start_unless_nul`.
-/

namespace YieldLock

variable {σ : Type}

/-- Calls that a controller makes: all it needs for them is a guard or a handle. -/
def Call.isOfController : Call σ → Bool
  | .acquire | .tryAcquire | .release | .read .guard | .write .guard _ => true
  | .requestShutdown | .join _ => true
  | _ => false

theorem Call.endsSession_of_isOfController {call : Call σ} (h : call.isOfController = true) :
    call.endsSession = false := by
  cases call with
  | acquire | tryAcquire | release | read | write | requestShutdown | join => rfl
  | _ => cases h

namespace ThreadState

variable {build : Build} {now : Nat} {me : Thread} {lock : Lock σ} {self : ThreadState σ}
  {call? : Option (Call σ)} {effect : Effect σ} {call : Call σ}

/-- A controller's call stops nowhere but where it waits. -/
theorem StandsAt.of_isOfController {point : Point} (h : self.StandsAt call point)
    (hcall : call.isOfController = true) :
    (∃ watch, point = .waiting watch) ∨ point = .reentering ∨ ∃ child, point = .joining child := by
  have hends := Call.endsSession_of_isOfController hcall
  cases point with
  | waiting watch => exact .inl ⟨watch, rfl⟩
  | reentering => exact .inr (.inl rfl)
  | joining child => exact .inr (.inr ⟨child, rfl⟩)
  | starting | polling | sleeping | retaking | rechecking | closing =>
    obtain ⟨rfl, _⟩ := h
    cases hcall
  | adopting =>
    obtain ⟨rfl | rfl, _⟩ := h
    · cases hcall
    · cases hcall
  | lowering | disposing | tearingDown | marking => cases hends.symm.trans h.1

/-- No call of a controller panics, as long as the thread is counted where it waits. -/
theorem Rule.not_panicked (rule : Rule build now me lock self call? effect)
    (hsound : self.IsSound)
    (hmatched : self.activity.isCounted = true → lock.waiters.isMatched = true)
    (hin : self.IsIn call? call) (hcall : call.isOfController = true) (panic : Panic) :
    .panicked panic ∉ effect.answers := by
  obtain rfl | ⟨rfl, point, hbusy⟩ := hin
  · cases rule with
    | reenter | enter | joinBegin => simp only [answers_goOn, List.not_mem_nil, not_false_eq_true]
    | tryTake | tryRefused | release | read | write | request => simp
    | outOfReach _ hmade => obtain rfl | ⟨_, rfl⟩ := hmade <;> cases hcall
    | dropBegin _ hdrop | dropEnded _ hdrop => obtain rfl | ⟨_, rfl⟩ := hdrop <;> cases hcall
    | _ => cases hcall
  · have hplace := (hsound.place call point hbusy).of_isOfController hcall
    cases rule with
    | park => simp [Effect.answers]
    | obtain | reentered | joined => simp
    | obtainUnmatched hstands _ _ hunmatched =>
      have hcounted : self.activity.isCounted = true := by rw [hstands]; rfl
      cases hunmatched.symm.trans (hmatched hcounted)
    | _ hstands =>
      cases hbusy.symm.trans hstands
      obtain ⟨_, h⟩ | h | ⟨_, h⟩ := hplace <;> cases h

end ThreadState

section

variable {world : World σ}

theorem World.spawn_of_nul (h : '\x00' ∈ world.lock.config.workerName.toList)
    (name child : Thread) : world.spawn name child =
      (world,
        [.answered (.spawn child) (.panicked (.interiorNul world.lock.config.workerName))]) := by
  unfold spawn
  exact if_pos (List.contains_iff_mem.mpr h)

theorem World.spawn_of_not_nul (h : '\x00' ∉ world.lock.config.workerName.toList)
    (name child : Thread) : world.spawn name child =
      ({ world with
          threads := (world.threads.set child (newborn world.lock.config.workerName)).set name
            { world.thread name with handles := child :: (world.thread name).handles } },
        [.answered (.spawn child) .spawned]) := by
  unfold spawn
  exact if_neg (mt List.contains_iff_mem.mp h)

end

/-- A thread that has come into a world keeps what it has from its start. -/
theorem World.Change.birth_kept {build : Build} {world next : World σ} {move : Move σ}
    {events : List (Event σ)} {me : Thread} (change : World.Change build world move next events)
    (hknown : world.thread me ≠ {}) : (next.thread me).birth = (world.thread me).birth := by
  cases change.changeOf hknown with
  | others _ hself => rw [hself]
  | own call? effect rule => rw [World.thread_after_self, rule.birth_eq]
  | spawns _ handles hself => rw [hself]; rfl

namespace Demo

namespace MainStage

/-- The worker has been started, and the main thread has not panicked. -/
def isUnderWay : MainStage → Bool
  | spawning | done (.panicked _) => false
  | _ => true

variable {stage : MainStage}

theorem isUnderWay_resume (h : stage.isUnderWay = true) (reply : Reply) :
    (stage.resume reply).isUnderWay = true := by
  unfold resume
  split
  case h_1 | h_2 => cases h
  case h_3 =>
    simp only
    split <;> rfl
  case h_12 => exact h
  all_goals rfl

/-- Once the worker is started, the main thread makes the calls of a controller. -/
theorem isOfController_of_action (h : stage.isUnderWay = true) {call : Call Machine}
    (haction : stage.action = .call call) : call.isOfController = true := by
  cases stage with
  | spawning => cases h
  | controlling loop => cases loop <;> cases haction <;> rfl
  | _ => cases haction <;> rfl

end MainStage

namespace Run

/-- The worker's thread is there, under a name. -/
structure HasWorker (run : Run) (name : String) : Prop where
  contains : run.world.threads.contains workerThread = true
  title : (run.world.thread workerThread).title = some name
  isSpawned : (run.world.thread workerThread).isSpawned = true

/-- The next step of the main thread is one by which a call of it panics. -/
def Panics (build : Build) (run : Run) (panic : Panic) : Prop :=
  ∃ deed, perform? build run.world run.channel mainThread run.main.action = some deed ∧
    deed.reply = some (.answered (.panicked panic))

/-- No thread has been started, by any thread or for the events. -/
structure IsQuiet (config : Config) (run : Run) : Prop where
  threads : run.world.threads = {}
  source : run.source = none
  worker : run.worker = .starting
  config : run.world.lock.config = config

/-- The worker's thread is there under the configured name, and the main thread goes on. -/
structure IsUnderWay (config : Config) (run : Run) : Prop where
  name : '\x00' ∉ config.workerName.toList
  main : run.main.isUnderWay = true
  worker : run.HasWorker config.workerName

/-- How far a run is: the worker is still to be started, or that has failed, or it is done. -/
inductive Launch (config : Config) (run : Run) : Prop where
  | due (quiet : run.IsQuiet config) (hmain : run.main = .spawning)
  | failed (quiet : run.IsQuiet config) (hname : '\x00' ∈ config.workerName.toList)
      (hmain : run.main = .done (.panicked (.interiorNul config.workerName)))
  | done (underWay : run.IsUnderWay config)

/-- The worker's thread is there under a name, unless the main thread is about to start it, which
it can do at once; and no call of the main thread panics. -/
structure StartsWorker (build : Build) (name : String) (run : Run) : Prop where
  worker : run.HasWorker name ∨
    run.main = .spawning ∧ ∃ next, run.mainStep? build = some (next, []) ∧ next.HasWorker name
  main (panic : Panic) : run.main ≠ .done (.panicked panic)
  call (panic : Panic) : ¬run.Panics build panic

/-- There is no thread besides the main thread, and that is about to panic or has panicked. -/
structure StartsNothing (build : Build) (panic : Panic) (run : Run) : Prop where
  threads : run.world.threads = {}
  source : run.source = none
  main : run.main = .spawning ∧ run.Panics build panic ∨ run.main = .done (.panicked panic)

section

variable {build : Build} {run next : Run} {lines : List Line} {config : Config} {pulse : Pulse}

/-! ## Before the worker is started -/

theorem IsQuiet.thread (h : run.IsQuiet config) (name : Thread) : run.world.thread name = {} := by
  rw [World.thread, h.threads]
  rfl

/-- The main thread is free to start the worker at once. -/
theorem IsQuiet.perform?_spawn (h : run.IsQuiet config) :
    perform? build run.world run.channel mainThread (.call (.spawn workerThread)) =
      some (.ofEvents run.channel (run.world.spawn mainThread workerThread)) := by
  have hidle : (run.world.thread mainThread).activity = .idle := by rw [h.thread]
  have hcall : run.world.call? build mainThread (.spawn workerThread) =
      some (run.world.spawn mainThread workerThread) := by
    simp only [World.call?, World.hasRoomFor, h.thread, h.threads]
    rfl
  rw [perform?_of_call hidle, hcall]
  rfl

/-- No thread has a name with a zero character, so the main thread panics. -/
theorem IsQuiet.panics (h : run.IsQuiet config) (hmain : run.main = .spawning)
    (hname : '\x00' ∈ config.workerName.toList) :
    run.Panics build (.interiorNul config.workerName) := by
  rw [← h.config] at hname ⊢
  refine ⟨_, by rw [hmain]; exact h.perform?_spawn, ?_⟩
  rw [World.spawn_of_nul hname]
  rfl

theorem IsQuiet.mainStep?_of_nul (h : run.IsQuiet config) (hmain : run.main = .spawning)
    (hname : '\x00' ∈ config.workerName.toList) :
    run.mainStep? build =
      some ({ run with main := .done (.panicked (.interiorNul config.workerName)) }, []) := by
  rw [← h.config] at hname ⊢
  unfold mainStep?
  simp only [hmain, MainStage.action, h.perform?_spawn, World.spawn_of_nul hname]
  rfl

/-- Under any other name the worker's thread is there after the first step of the main thread. -/
theorem IsQuiet.exists_mainStep? (build : Build) (h : run.IsQuiet config)
    (hmain : run.main = .spawning) (hname : '\x00' ∉ config.workerName.toList) :
    ∃ next, run.mainStep? build = some (next, []) ∧ next.IsUnderWay config := by
  have hspawn := World.spawn_of_not_nul (by rwa [h.config]) mainThread workerThread
  rw [h.config, h.threads, h.thread] at hspawn
  unfold mainStep?
  simp only [hmain, MainStage.action, h.perform?_spawn, hspawn]
  exact ⟨_, rfl, hname, rfl, rfl, rfl, rfl⟩

/-- Under any other name the main thread does not panic when it starts the worker. -/
theorem IsQuiet.not_panics (h : run.IsQuiet config) (hmain : run.main = .spawning)
    (hname : '\x00' ∉ config.workerName.toList) (panic : Panic) : ¬run.Panics build panic := by
  rintro ⟨deed, hdeed, hreply⟩
  rw [hmain] at hdeed
  cases h.perform?_spawn.symm.trans hdeed
  rw [World.spawn_of_not_nul (by rwa [h.config])] at hreply
  cases hreply

theorem IsQuiet.sourceStep? (h : run.IsQuiet config) : run.sourceStep? build = none := by
  unfold Run.sourceStep?
  rw [h.source]
  rfl

theorem IsQuiet.workerStep? (h : run.IsQuiet config) : run.workerStep? build = none := by
  unfold Run.workerStep? perform?
  rw [h.worker, h.thread]
  rfl

theorem IsQuiet.wait (h : run.IsQuiet config) (nanos : Nat) : (run.wait nanos).IsQuiet config :=
  ⟨h.threads, h.source, h.worker, h.config⟩

theorem IsQuiet.withMain (h : run.IsQuiet config) (stage : MainStage) :
    { run with main := stage }.IsQuiet config :=
  ⟨h.threads, h.source, h.worker, h.config⟩

/-- A main thread that has panicked does nothing any more. -/
theorem IsQuiet.mainStep?_of_done (h : run.IsQuiet config) {ending : Ending}
    (hmain : run.main = .done ending) : run.mainStep? build = none := by
  unfold mainStep? perform?
  simp only [hmain, h.thread]
  rfl

/-! ## Once the worker is started -/

theorem HasWorker.ne_default {name : String} (h : run.HasWorker name) :
    run.world.thread workerThread ≠ {} := by
  intro hdefault
  have htitle := h.title
  rw [hdefault] at htitle
  cases htitle

/-- The worker's thread stays there under its name. -/
theorem HasWorker.of_pulse? {name : String} (h : run.HasWorker name)
    (hpulse : run.pulse? build pulse = some (next, lines)) : next.HasWorker name := by
  obtain ⟨hworld, _⟩ | ⟨move, events, hmove, _⟩ := move_of_pulse? hpulse
  · exact ⟨by rw [hworld]; exact h.contains, by rw [hworld]; exact h.title,
      by rw [hworld]; exact h.isSpawned⟩
  · have change := World.change_of_move? hmove
    have hbirth := change.birth_kept h.ne_default
    exact ⟨change.contains_kept h.contains, (congrArg Prod.fst hbirth).trans h.title,
      (congrArg Prod.snd hbirth).trans h.isSpawned⟩

/-- The stage of the main thread is the one before or follows it. -/
theorem main_of_pulse? (hpulse : run.pulse? build pulse = some (next, lines)) :
    next.main = run.main ∨ ∃ reply, next.main = run.main.resume reply := by
  cases pulse with
  | pass nanos =>
    cases hpulse
    exact .inl rfl
  | step role =>
    cases role with
    | main =>
      obtain ⟨_, ⟨handled, hmain, hnext, _⟩ | ⟨deed, hacts⟩⟩ := of_mainStep? hpulse
      · rw [hmain, hnext]
        exact .inr ⟨.continued, rfl⟩
      · rw [hacts.main]
        cases deed.reply with
        | none => exact .inl rfl
        | some reply => exact .inr ⟨reply, rfl⟩
    | source =>
      obtain ⟨_, _, hstep⟩ := Option.bind_eq_some_iff.mp hpulse
      obtain ⟨_, _, hnext⟩ := Option.map_eq_some_iff.mp hstep
      cases hnext
      exact .inl rfl
    | worker =>
      obtain ⟨_, _, hnext⟩ := Option.map_eq_some_iff.mp hpulse
      cases hnext
      exact .inl rfl

theorem IsUnderWay.of_pulse? (h : run.IsUnderWay config)
    (hpulse : run.pulse? build pulse = some (next, lines)) : next.IsUnderWay config := by
  refine ⟨h.name, ?_, h.worker.of_pulse? hpulse⟩
  obtain hmain | ⟨reply, hmain⟩ := main_of_pulse? hpulse
  · rw [hmain]
    exact h.main
  · rw [hmain]
    exact MainStage.isUnderWay_resume h.main reply

/-- In a quiet run time passes, or the main thread makes a step. -/
theorem IsQuiet.cases_of_pulse? (h : run.IsQuiet config)
    (hpulse : run.pulse? build pulse = some (next, lines)) :
    (∃ nanos, next = run.wait nanos) ∨ run.mainStep? build = some (next, lines) := by
  cases pulse with
  | pass nanos =>
    cases hpulse
    exact .inl ⟨nanos, rfl⟩
  | step role =>
    cases role with
    | main => exact .inr hpulse
    | source => cases h.sourceStep?.symm.trans hpulse
    | worker => cases h.workerStep?.symm.trans hpulse

/-- Whatever happens, a run is where it was or one step of the main thread further. -/
theorem Launch.of_pulse? (h : run.Launch config)
    (hpulse : run.pulse? build pulse = some (next, lines)) : next.Launch config := by
  cases h with
  | due quiet hmain =>
    obtain ⟨nanos, rfl⟩ | hstep := quiet.cases_of_pulse? hpulse
    · exact .due (quiet.wait nanos) hmain
    by_cases hname : '\x00' ∈ config.workerName.toList
    · cases (quiet.mainStep?_of_nul hmain hname).symm.trans hstep
      exact .failed (quiet.withMain _) hname rfl
    · obtain ⟨_, hstarted, underWay⟩ := quiet.exists_mainStep? build hmain hname
      cases hstarted.symm.trans hstep
      exact .done underWay
  | failed quiet hname hmain =>
    obtain ⟨nanos, rfl⟩ | hstep := quiet.cases_of_pulse? hpulse
    · exact .failed (quiet.wait nanos) hname hmain
    · cases (quiet.mainStep?_of_done hmain).symm.trans hstep
  | done underWay => exact .done (underWay.of_pulse? hpulse)

/-! ## The calls of the main thread -/

theorem Minds.of_pulse? (h : run.Minds) (hreach : YieldLock.Reachable build run.world)
    (hpulse : run.pulse? build pulse = some (next, lines)) : next.Minds := by
  cases pulse with
  | pass nanos =>
    cases hpulse
    exact h.congr rfl rfl h.worker
  | step role =>
    cases role with
    | main => exact (mainStride hpulse hreach h).2
    | source =>
      obtain ⟨stage, _, hstep⟩ := Option.bind_eq_some_iff.mp hpulse
      obtain ⟨deed, hdeed, hnext⟩ := Option.map_eq_some_iff.mp hstep
      cases hnext
      have hspawn (name : Thread) :
          (EventSource.program run.eventCount (.ofMillis run.settings.uiEventInterval)).action
            stage ≠ .call (.spawn name) := by
        cases stage <;> nofun
      exact h.congr (thread_of_perform? hdeed (by decide) (hspawn _)) rfl
        (worker_of_perform? hdeed (by decide) h.worker)
    | worker =>
      obtain ⟨deed, hdeed, hnext⟩ := Option.map_eq_some_iff.mp hpulse
      cases hnext
      exact h.congr
        (thread_of_perform? hdeed (by decide) (MachineLoop.action_ne_spawn _ _ _)) rfl
        (worker_of_perform? hdeed (by decide) h.worker)

/-- Once the worker is started, no call of the main thread panics. -/
theorem Minds.not_panics (h : run.Minds) (hreach : YieldLock.Reachable build run.world)
    (hmain : run.main.isUnderWay = true) (panic : Panic) : ¬run.Panics build panic := by
  rintro ⟨deed, hdeed, hreply⟩
  have hpanics {call? : Option (Call Machine)} {effect : Effect Machine} {call : Call Machine}
      (rule : ThreadState.Rule build run.world.clock mainThread run.world.lock
        (run.world.thread mainThread) call? effect)
      (hin : (run.world.thread mainThread).IsIn call? call) (hcall : call.isOfController = true) :
      deed ≠ .ofEvents run.channel (run.world.after mainThread effect, effect.events) := by
    rintro rfl
    rw [Deed.reply_ofEvents] at hreply
    obtain ⟨answer, hanswer, hpanicked⟩ := Option.map_eq_some_iff.mp hreply
    cases hpanicked
    exact rule.not_panicked (hreach.fits mainThread).sound (hreach.waiters_isSet ·) hin hcall panic
      (List.mem_of_head? hanswer)
  cases hactivity : (run.world.thread mainThread).activity with
  | finished outcome => exact h.stands.ne_finished outcome hactivity
  | busy call point =>
    obtain ⟨effect, rule, hdeed⟩ := exists_rule_of_busy hactivity hdeed
    have hstands := h.stands
    rw [hactivity] at hstands
    have hcall : call.isOfController = true := by
      obtain ⟨_, rfl, _⟩ | ⟨child, _, rfl, _⟩ := hstands.busy_cases <;> rfl
    exact hpanics rule (.inr ⟨rfl, point, hactivity⟩) hcall hdeed
  | idle =>
    cases haction : run.main.action with
    | call call =>
      rw [haction] at hdeed
      have hcall := MainStage.isOfController_of_action hmain haction
      have hspawn : call.isSpawn = false := by
        cases call with
        | spawn => cases hcall
        | _ => rfl
      obtain ⟨effect, rule, hdeed⟩ := exists_rule_of_call hspawn hactivity hdeed
      exact hpanics rule (.inl rfl) hcall hdeed
    | send event =>
      simp only [haction, perform?, hactivity] at hdeed
      obtain ⟨_, _, rfl⟩ := Option.map_eq_some_iff.mp hdeed
      cases hreply
    | receive =>
      simp only [haction, perform?, hactivity] at hdeed
      obtain ⟨⟨delivery, _⟩, _, rfl⟩ := Option.map_eq_some_iff.mp hdeed
      cases delivery <;> cases hreply
    | log | rest =>
      simp only [haction, perform?, hactivity] at hdeed
      cases hdeed
      cases hreply
    | idle =>
      simp only [haction, perform?, hactivity] at hdeed
      cases hdeed

end

section

variable {build : Build} {first last : Run} {beats : List Beat} {settings : Settings}
  {config : Config}

/-! ## Histories -/

theorem isQuiet_of_start (h : start settings = .ok first) :
    first.IsQuiet settings.lock ∧ first.main = .spawning := by
  obtain ⟨lock, hlock, rfl⟩ := exists_lock_of_start h
  obtain rfl := Lock.eq_of_withConfig hlock
  exact ⟨⟨rfl, rfl, rfl, rfl⟩, rfl⟩

theorem History.launch (history : History build first beats last) (h : first.Launch config) :
    last.Launch config := by
  induction history with
  | nil => exact h
  | snoc _ hhappens ih => exact ih.of_pulse? hhappens

theorem History.isUnderWay (history : History build first beats last)
    (h : first.IsUnderWay config) : last.IsUnderWay config := by
  induction history with
  | nil => exact h
  | snoc _ hhappens ih => exact ih.of_pulse? hhappens

theorem History.reachable (history : History build first beats last)
    (hstart : start settings = .ok first) : YieldLock.Reachable build last.world := by
  obtain ⟨turns, run, _⟩ := history.exists_run
  exact run.reachable (isNew_of_start hstart)

theorem History.minds (history : History build first beats last)
    (hstart : start settings = .ok first) : last.Minds := by
  induction history with
  | nil =>
    have hcoheres : Coheres build _ := coheres_of_start hstart
    exact hcoheres.minds
  | snoc history hhappens ih => exact ih.of_pulse? (history.reachable hstart) hhappens

/-- In a run under a name without a zero character the worker is started. -/
theorem History.startsWorker (history : History build first beats last)
    (hstart : start settings = .ok first) (hname : '\x00' ∉ settings.lock.workerName.toList) :
    last.StartsWorker build settings.lock.workerName := by
  obtain ⟨quiet, hspawning⟩ := isQuiet_of_start hstart
  cases history.launch (.due quiet hspawning) with
  | due quiet hmain =>
    obtain ⟨next, hstep, underWay⟩ := quiet.exists_mainStep? build hmain hname
    refine ⟨.inr ⟨hmain, next, hstep, underWay.worker⟩, ?_, quiet.not_panics hmain hname⟩
    rw [hmain]
    nofun
  | failed _ hnul => exact absurd hnul hname
  | done underWay =>
    have hmain := underWay.main
    refine ⟨.inl underWay.worker, fun panic hpanicked ↦ ?_,
      (history.minds hstart).not_panics (history.reachable hstart) hmain⟩
    rw [hpanicked] at hmain
    cases hmain

/-- In a run under a name with a zero character no thread is ever there. -/
theorem History.startsNothing (history : History build first beats last)
    (hstart : start settings = .ok first) (hname : '\x00' ∈ settings.lock.workerName.toList) :
    last.StartsNothing build (.interiorNul settings.lock.workerName) := by
  obtain ⟨quiet, hspawning⟩ := isQuiet_of_start hstart
  cases history.launch (.due quiet hspawning) with
  | due quiet hmain =>
    exact ⟨quiet.threads, quiet.source, .inl ⟨hmain, quiet.panics hmain hname⟩⟩
  | failed quiet _ hmain => exact ⟨quiet.threads, quiet.source, .inr hmain⟩
  | done underWay => exact absurd hname underWay.name

/-! ## Execution -/

/-- The only step that can be made before the worker is started is one of the main thread. -/
theorem IsQuiet.findSome?_order (h : first.IsQuiet config) :
    first.order.findSome? (first.step? build) = first.mainStep? build := by
  have hmain : first.step? build .main = first.mainStep? build := rfl
  have hsource : first.step? build .source = none := h.sourceStep?
  have hworker : first.step? build .worker = none := h.workerStep?
  cases hstep : first.mainStep? build with
  | none =>
    refine List.findSome?_eq_none_iff.mpr fun role _ ↦ ?_
    cases role with
    | main => exact hmain.trans hstep
    | source => exact hsource
    | worker => exact hworker
  | some after =>
    rw [hstep] at hmain
    unfold order
    split
    · split <;> simp [hmain, hworker]
    · simp [hmain]

/-- The execution of a run under a name with a zero character is over after its first step. -/
theorem execute_of_nul (hstart : start settings = .ok first)
    (hname : '\x00' ∈ settings.lock.workerName.toList) :
    first.execute build =
      ({ first with main := .done (.panicked (.interiorNul settings.lock.workerName)) }, []) := by
  obtain ⟨quiet, hmain⟩ := isQuiet_of_start hstart
  let failed : Run :=
    { first with main := .done (.panicked (.interiorNul settings.lock.workerName)) }
  have hstuck : failed.order.findSome? (failed.step? build) = none := by
    have still : failed.IsQuiet settings.lock := quiet.withMain _
    rw [still.findSome?_order]
    exact still.mainStep?_of_done rfl
  obtain ⟨fuel, hfuel⟩ : ∃ fuel, 256 * (first.eventCount + 4) = fuel + 2 :=
    Nat.exists_eq_add_of_le' (by omega)
  have hexecute : first.executeWithin build (fuel + 2) [] = (failed, []) := by
    simp only [executeWithin, quiet.findSome?_order, quiet.mainStep?_of_nul hmain hname,
      List.reverse_nil, List.append_nil]
    rw [hstuck]
  rw [execute, hfuel, hexecute]
  rfl

/-- The execution of a run under any other name gets the worker started. -/
theorem isUnderWay_execute (build : Build) (hstart : start settings = .ok first)
    (hname : '\x00' ∉ settings.lock.workerName.toList) :
    (first.execute build).1.IsUnderWay settings.lock := by
  obtain ⟨quiet, hmain⟩ := isQuiet_of_start hstart
  obtain ⟨next, hstep, underWay⟩ := quiet.exists_mainStep? build hmain hname
  obtain ⟨fuel, hfuel⟩ : ∃ fuel, 256 * (first.eventCount + 4) = fuel + 1 :=
    Nat.exists_eq_add_of_le' (by omega)
  have hnil : History build next [] next := .nil
  obtain ⟨later, history, _⟩ := hnil.exists_of_executeWithin fuel []
  have hexecute : first.executeWithin build (fuel + 1) [] = next.executeWithin build fuel [] := by
    rw [executeWithin, quiet.findSome?_order, hstep]
    rfl
  rw [execute, hfuel, hexecute]
  exact history.isUnderWay underWay

end

end Run

namespace CommandLine

variable (build : Build) {settings : Settings} {first : Run}

/-! ## Reports -/

theorem load_toUTF8 (path text : String) :
    load build path (.ok text.toUTF8) =
      (Json.readSettings build text).mapError (.malformed path) := by
  have htext : String.fromUTF8? text.toUTF8 = some text := dif_pos text.isValidUTF8
  simp only [load, htext]

theorem runSettings_of_refused {cause : LockError} (h : Run.start settings = .error cause) :
    runSettings build settings =
      { lines := [.notice (.starting settings)], result := .error (.invalidLock cause) } := by
  rw [runSettings, h]

theorem runSettings_of_nul (h : Run.start settings = .ok first)
    (hname : '\x00' ∈ settings.lock.workerName.toList) :
    runSettings build settings =
      { lines := [.notice (.starting settings)]
        result := .error (.panicked (.interiorNul settings.lock.workerName)) } := by
  simp only [runSettings, h, Run.execute_of_nul h hname]

/-- A run that is under way ends in no panic of the main thread. -/
theorem runSettings_ne_panicked (h : Run.start settings = .ok first)
    (hname : '\x00' ∉ settings.lock.workerName.toList) (panic : Panic) :
    (runSettings build settings).result ≠ .error (.panicked panic) := by
  have hmain := (Run.isUnderWay_execute build h hname).main
  simp only [runSettings, h]
  intro hresult
  split at hresult
  · rename_i hpanicked
    rw [hpanicked] at hmain
    cases hmain
  · cases hresult
  · cases hresult

/-- A file that does not give settings makes the program fail, and not by a panic. -/
theorem exitCode_of_load_eq_error {path : String} {file : Except SystemError ByteArray}
    {failure : Failure} (h : load build path file = .error failure) : failure.exitCode = 1 := by
  unfold load at h
  split at h
  · cases h
    rfl
  · split at h
    · cases h
      rfl
    · cases hread : Json.readSettings build _ with
      | error cause =>
        rw [hread] at h
        cases h
        rfl
      | ok settings =>
        rw [hread] at h
        cases h

theorem run_of_load {path : String} {file : Except SystemError ByteArray}
    (h : load build path file = .ok settings) :
    run build (some (path, file)) = runSettings build settings := by
  simp only [run, h]

/-- There is a file with settings that a lock accepts for a worker of any name. -/
theorem exists_load_of_workerName (path name : String) :
    ∃ (text : String) (settings : Settings) (first : Run),
      load build path (.ok text.toUTF8) = .ok settings ∧ settings.lock.workerName = name ∧
      Run.start settings = .ok first := by
  let config : Config := { Config.standard build with workerName := name }
  obtain ⟨text, htext⟩ := Json.exists_readSettings_of_lock build config
  have hlock : Lock.withConfig ({} : Machine) config = .ok { value := {}, config } :=
    Lock.withConfig_of_ne_zero _ ((Config.validate_eq_ok_iff _).mp (Config.validate_standard build))
  have hstart : ∃ first, Run.start { Settings.standard build with lock := config } = .ok first :=
    ⟨_, by rw [Run.start, hlock]; rfl⟩
  obtain ⟨first, hfirst⟩ := hstart
  exact ⟨text, _, first, by rw [load_toUTF8, htext]; rfl, rfl, hfirst⟩

end CommandLine

open CommandLine

/-- A file that gives no settings ends the program with an error, and so do settings that the lock
refuses; there is no run then. All other settings make a run. If the name of the worker has no
zero character, the worker's thread is there under it after the first step of the main thread,
which never panics. If it has one, the run ends in a panic before any thread is started. There is
a file with settings that make a run for a worker of any name. -/
theorem accepted_settings_start_unless_nul (build : Build) (path : String) :
    (∀ file failure, load build path file = .error failure →
      run build (some (path, file)) = { lines := [], result := .error failure } ∧
      failure.exitCode = 1) ∧
    (∀ file settings, load build path file = .ok settings →
      (∀ cause, Run.start settings = .error cause →
        run build (some (path, file)) =
          { lines := [.notice (.starting settings)], result := .error (.invalidLock cause) }) ∧
      ∀ first, Run.start settings = .ok first →
        ('\x00' ∉ settings.lock.workerName.toList →
          (first.execute build).1.HasWorker settings.lock.workerName ∧
          (∀ panic, (run build (some (path, file))).result ≠ .error (.panicked panic)) ∧
          ∀ beats last, Run.History build first beats last →
            last.StartsWorker build settings.lock.workerName) ∧
        ('\x00' ∈ settings.lock.workerName.toList →
          run build (some (path, file)) =
            { lines := [.notice (.starting settings)]
              result := .error (.panicked (.interiorNul settings.lock.workerName)) } ∧
          ∀ beats last, Run.History build first beats last →
            last.StartsNothing build (.interiorNul settings.lock.workerName))) ∧
    (∀ name, ∃ (text : String) (settings : Settings) (first : Run),
      load build path (.ok text.toUTF8) = .ok settings ∧ settings.lock.workerName = name ∧
      Run.start settings = .ok first) := by
  refine ⟨fun file failure hload ↦ ?_, fun file settings hload ↦ ?_,
    exists_load_of_workerName build path⟩
  · exact ⟨by simp only [run, hload], exitCode_of_load_eq_error build hload⟩
  · rw [run_of_load build hload]
    refine ⟨fun cause hstart ↦ runSettings_of_refused build hstart,
      fun first hstart ↦ ⟨fun hname ↦ ?_, fun hname ↦ ?_⟩⟩
    · exact ⟨(Run.isUnderWay_execute build hstart hname).worker,
        runSettings_ne_panicked build hstart hname,
        fun _ _ history ↦ history.startsWorker hstart hname⟩
    · exact ⟨runSettings_of_nul build hstart hname,
        fun _ _ history ↦ history.startsNothing hstart hname⟩

/-- One file for each case: a text that ends too early, a sleep of no length, a worker that is
started, and a name with a zero character, which is written as an escape. -/
theorem accepted_settings_start_unless_nul_cpu :
    (run .checked (some ("config.json", .ok "\x7b".toUTF8))).exitCode = 1 ∧
    (∃ settings, run .checked (some ("config.json", .ok "[[[0,0]]]".toUTF8)) =
      { lines := [.notice (.starting settings)]
        result := .error (.invalidLock .zeroYieldSleep) }) ∧
    (∃ settings first,
      load .checked "config.json" (.ok "[[[0,1],\"cpu\"]]".toUTF8) = .ok settings ∧
      Run.start settings = .ok first ∧ (first.execute .checked).1.HasWorker "cpu" ∧
      ∀ beats last, Run.History .checked first beats last →
        ∀ panic, last.main ≠ .done (.panicked panic)) ∧
    ∃ settings, run .checked (some ("config.json", .ok "[[[0,1],\"\\u0000\"]]".toUTF8)) =
      { lines := [.notice (.starting settings)]
        result := .error (.panicked (.interiorNul "\x00")) } := by
  obtain ⟨hfailed, hloaded, -⟩ := accepted_settings_start_unless_nul .checked "config.json"
  have hload (text : String) (config : Config)
      (h : Json.readSettings .checked text =
        .ok { Settings.standard .checked with lock := config }) :
      load .checked "config.json" (.ok text.toUTF8) =
        .ok { Settings.standard .checked with lock := config } := by
    rw [load_toUTF8, h]
    rfl
  let config : Config := .standard .checked
  refine ⟨?_, ?_, ?_, ?_⟩
  · obtain ⟨cause, hcause⟩ : ∃ cause, Json.readSettings .checked "\x7b" = .error cause := ⟨_, rfl⟩
    have hfile : load .checked "config.json" (.ok "\x7b".toUTF8) =
        .error (.malformed "config.json" cause) := by
      rw [load_toUTF8, hcause]
      rfl
    obtain ⟨hreport, hcode⟩ := hfailed _ _ hfile
    rw [hreport]
    exact hcode
  · have hfile := hload "[[[0,0]]]" { config with yieldSleep := ⟨0, 0⟩ } rfl
    exact ⟨_, (hloaded _ _ hfile).1 _ rfl⟩
  · have hfile := hload "[[[0,1],\"cpu\"]]"
      { config with yieldSleep := ⟨0, 1⟩, workerName := "cpu" } rfl
    obtain ⟨hnamed, -⟩ := (hloaded _ _ hfile).2 _ rfl
    obtain ⟨hworker, -, hhistory⟩ := hnamed (by decide)
    exact ⟨_, _, hfile, rfl, hworker, fun beats last history ↦ (hhistory beats last history).main⟩
  · have hfile := hload "[[[0,1],\"\\u0000\"]]"
      { config with yieldSleep := ⟨0, 1⟩, workerName := "\x00" } rfl
    obtain ⟨-, hunnamed⟩ := (hloaded _ _ hfile).2 _ rfl
    exact ⟨_, (hunnamed (by decide)).1⟩

/-- Settings that are accepted and make a run, in which the worker's thread is never there: the
program ends in a panic. -/
theorem accepted_settings_do_not_start :
    ∃ settings first,
      load .checked "config.json" (.ok
        "\x7b\"lock\":\x7b\"worker_thread_name\":\"a\\u0000b\"\x7d\x7d".toUTF8) = .ok settings ∧
      Run.start settings = .ok first ∧
      (runSettings .checked settings).result = .error (.panicked (.interiorNul "a\x00b")) ∧
      (runSettings .checked settings).exitCode = 101 ∧
      ∀ beats last, Run.History .checked first beats last → ∀ name, ¬last.HasWorker name := by
  let settings : Settings :=
    { Settings.standard .checked with
      lock := { Config.standard .checked with workerName := "a\x00b" } }
  have hname : '\x00' ∈ settings.lock.workerName.toList := by decide
  obtain ⟨first, hstart⟩ : ∃ first, Run.start settings = .ok first := ⟨_, rfl⟩
  have hreport := runSettings_of_nul .checked hstart hname
  refine ⟨settings, first, load_toUTF8 .., hstart, ?_, ?_, fun beats last history name hworker ↦ ?_⟩
  · rw [hreport]
  · rw [hreport]
    rfl
  · have hcontains := hworker.contains
    rw [(history.startsNothing hstart hname).threads] at hcontains
    cases hcontains

end Demo

end YieldLock
