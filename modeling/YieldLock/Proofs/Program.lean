import YieldLock.Proofs.Feed
import YieldLock.Proofs.Pace

/-!
# The three threads together

A run of the demonstration is a plant for its worker: the main thread writes only
the machine that it has read, with another border, and the source of the events has
nothing to do with the lock. So what is known of the machine's loop holds for the
worker, and it goes with what is known of the main thread at each of its stages.
Main statements: `Run.Coheres`, what holds at every moment, a step lemma for each of
the threads, and `Run.History.coheres`, by induction along the history of a run.
-/

namespace YieldLock.Demo

namespace MachineLoop

/-- No stage of the loop is followed by the one before the loop. -/
theorem resume_ne_starting (build : Build) (pacing : Pacing) (stage : Stage) (reply : Reply) :
    resume build pacing stage reply ≠ .starting := by
  have hsum (next : Machine → Stage) (hnext : ∀ machine, next machine ≠ .starting)
      (sum : Except Panic Machine) : afterSum next sum ≠ .starting := by
    cases sum with
    | ok machine => exact hnext machine
    | error panic => nofun
  have hwindow (window : Window) : afterWindow window ≠ .starting := by cases window <;> nofun
  unfold resume
  split
  · unfold answered
    split
    case h_4 => exact hsum .addingCycles (fun _ ↦ nofun) _
    case h_6 => exact hsum .addingFrame (fun _ ↦ nofun) _
    case h_8 => split <;> nofun
    case h_10 => exact hwindow _
    all_goals nofun
  all_goals nofun

theorem isExchange_action (pacing : Pacing) (stage : Stage) :
    (action pacing stage).isExchange = false := by
  cases stage <;> rfl

/-- The loop spawns no thread. -/
theorem action_ne_spawn (pacing : Pacing) (stage : Stage) (name : String) :
    action pacing stage ≠ .call (.spawn name) := by
  cases stage <;> simp [action]

end MachineLoop

/-- A thread that is still on its way into the loop after a step is about to become the worker. -/
theorem Plant.starting_of_loop? {build : Build} {pacing : Pacing} {me : Thread}
    {plant next : Plant} (h : plant.loop? build pacing me = some next)
    (hsound : (plant.self me).IsSound) (hnext : next.stage = .starting) :
    (next.self me).activity.isStarting = true := by
  obtain ⟨hhand, deed, _, _, hstage⟩ := exists_deed_of_loop? h
  have hbefore : plant.stage = .starting := by
    rw [hnext] at hstage
    cases hreply : deed.reply with
    | none =>
      rw [hreply] at hstage
      exact hstage.symm
    | some reply =>
      rw [hreply] at hstage
      exact absurd hstage.symm (MachineLoop.resume_ne_starting _ _ _ _)
  rw [isInHand, hbefore] at hhand
  obtain ⟨point, hbusy⟩ := Activity.exists_of_isStarting hhand
  obtain ⟨effect, hsteps⟩ := steps_of_busy h hbusy
  obtain ⟨_, hstarts⟩ | ⟨hother, _⟩ | ⟨hother, _⟩ := hsteps.of_starting hsound hbefore hhand
  · exact hstarts
  · cases hother.symm.trans hnext
  · cases hother.symm.trans hnext

/-- The events for which the main thread has acquired the lock, what it has seen of the machine, and
whether the worker has ended well. Nothing is said once the run has failed. -/
def Books (lock : Lock Machine) (worker : ThreadState Machine) : MainStage → Prop
  | .spawning => lock.stats.acquisitions = 0
  | .controlling (.awaiting handled) | .controlling (.acquiring _ handled)
  | .controlling (.releasing handled) | .controlling (.requesting handled)
  | .controlling (.announcing handled) | .controlling (.done handled) | .joining handled =>
    lock.stats.acquisitions = handled
  | .controlling (.loading _ handled) | .controlling (.reporting _ handled) =>
    lock.stats.acquisitions = handled + 1
  | .controlling (.painting machine _ handled) =>
    lock.stats.acquisitions = handled + 1 ∧ lock.value = machine
  | .awaitingSource handled | .acquiring handled =>
    lock.stats.acquisitions = handled ∧ worker.activity = .finished none
  | .looking handled =>
    lock.stats.acquisitions = handled + 1 ∧ worker.activity = .finished none
  | .releasing handled frames | .reporting handled frames | .done (.completed handled frames) =>
    lock.stats.acquisitions = handled + 1 ∧ worker.activity = .finished none ∧
      lock.value.frame = frames
  | .done _ => True

section

variable {lock after : Lock Machine} {worker later : ThreadState Machine} {stage : MainStage}

theorem Books.congr (h : Books lock worker stage)
    (hacquired : after.stats.acquisitions = lock.stats.acquisitions)
    (hvalue : 0 < stage.guards ∨ worker.activity = .finished none → after.value = lock.value)
    (hfinished : worker.activity = .finished none → later.activity = .finished none) :
    Books after later stage := by
  cases stage with
  | spawning | joining => exact hacquired.trans h
  | controlling loop =>
    cases loop with
    | painting => exact ⟨hacquired.trans h.1, (hvalue (.inl Nat.one_pos)).trans h.2⟩
    | _ => exact hacquired.trans h
  | awaitingSource | acquiring | looking => exact ⟨hacquired.trans h.1, hfinished h.2⟩
  | releasing | reporting =>
    exact ⟨hacquired.trans h.1, hfinished h.2.1, by rw [hvalue (.inr h.2.1)]; exact h.2.2⟩
  | done ending =>
    cases ending with
    | completed =>
      exact ⟨hacquired.trans h.1, hfinished h.2.1, by rw [hvalue (.inr h.2.1)]; exact h.2.2⟩
    | workerFailed | panicked => trivial

end

namespace Run

variable {build : Build} {run next : Run} {lines : List Line}

theorem MainStride.books (h : run.MainStride next)
    (hfinished : (run.world.thread workerThread).activity = .finished none →
      (next.world.thread workerThread).activity = .finished none)
    (hbooks : Books run.world.lock (run.world.thread workerThread) run.main) :
    Books next.world.lock (next.world.thread workerThread) next.main := by
  cases h with
  | spawn hmain hlock hnext =>
    rw [hmain] at hbooks
    rw [hlock]
    obtain ⟨hnext, _⟩ | ⟨panic, hnext⟩ := hnext
    · rw [hnext]
      exact hbooks
    · rw [hnext]
      trivial
  | @receive _ delivery hmain hworld _ hnext =>
    rw [hmain] at hbooks
    rw [hworld, hnext]
    cases delivery with
    | event event => cases event <;> exact hbooks
    | ended | pending => exact hbooks
  | wait _ _ hkept hnext =>
    rw [hnext]
    exact hbooks.congr (by rw [hkept.2]) (fun _ ↦ hkept.1) hfinished
  | acquire waited hmain _ hstats =>
    have hacquired : next.world.lock.stats.acquisitions =
        run.world.lock.stats.acquisitions + 1 := by
      rw [hstats]
      rfl
    obtain ⟨_, _, hmain, hnext⟩ | ⟨_, hmain, hnext⟩ := hmain
    · rw [hmain] at hbooks
      rw [hnext]
      exact hacquired.trans (congrArg (· + 1) hbooks)
    · rw [hmain] at hbooks
      rw [hnext]
      exact ⟨hacquired.trans (congrArg (· + 1) hbooks.1), hfinished hbooks.2⟩
  | look hlock hmain =>
    rw [hlock]
    obtain ⟨_, _, hmain, hnext⟩ | ⟨_, _, hmain, hnext⟩ | ⟨_, hmain, hnext⟩ := hmain
    · rw [hmain] at hbooks
      rw [hnext]
      exact ⟨hbooks, rfl⟩
    · rw [hmain] at hbooks
      rw [hnext]
      exact hbooks
    · rw [hmain] at hbooks
      rw [hnext]
      exact ⟨hbooks.1, hfinished hbooks.2, rfl⟩
  | paint hmain hlock hnext =>
    rw [hmain] at hbooks
    rw [hlock, hnext]
    exact hbooks.1
  | log hworld hmain =>
    rw [hworld]
    obtain ⟨_, _, hmain, hnext⟩ | ⟨_, hmain, hnext⟩ | ⟨_, _, hmain, hnext⟩ := hmain
    all_goals
      rw [hmain] at hbooks
      rw [hnext]
      exact hbooks
  | release hkept hmain =>
    obtain ⟨handled, hmain, hnext⟩ | ⟨handled, frames, hmain, hnext⟩ := hmain
    · rw [hmain] at hbooks
      rw [hnext]
      exact (congrArg Stats.acquisitions hkept.2).trans hbooks
    · rw [hmain] at hbooks
      rw [hnext]
      refine ⟨(congrArg Stats.acquisitions hkept.2).trans hbooks.1, hfinished hbooks.2.1, ?_⟩
      rw [hkept.1]
      exact hbooks.2.2
  | request hmain hkept hnext =>
    rw [hmain] at hbooks
    obtain hnext | hnext := hnext
    all_goals
      rw [hnext]
      exact (congrArg Stats.acquisitions hkept.2).trans hbooks
  | join hmain hended hkept hnext =>
    rw [hmain] at hbooks
    obtain ⟨rfl, hnext⟩ | ⟨error, hnext⟩ := hnext
    · rw [hnext]
      exact ⟨(congrArg Stats.acquisitions hkept.2).trans hbooks, hfinished hended⟩
    · rw [hnext]
      trivial
  | await hmain hworld hnext =>
    rw [hmain] at hbooks
    rw [hworld, hnext]
    exact hbooks

/-- The main thread counts nothing but its acquisitions. -/
theorem MainStride.keepsWork (h : run.MainStride next) :
    KeepsWork run.world.lock.stats next.world.lock.stats := by
  cases h with
  | spawn _ hlock | look hlock | paint _ hlock => exact .of_eq (by rw [hlock])
  | receive _ hworld | log hworld | await _ hworld => exact .of_eq (by rw [hworld])
  | wait _ _ hkept | release hkept | request _ hkept | join _ _ hkept => exact .of_eq hkept.2
  | acquire waited _ _ hstats =>
    rw [hstats]
    exact ⟨rfl, rfl, rfl⟩

/-- The worker and the world that it works in. -/
def plant (run : Run) : Plant := { world := run.world, stage := run.worker }

/-- The worker is in its loop, on its way into it, or has left it, and the source of the events has
nothing to do with the lock. -/
structure Works (build : Build) (run : Run) : Prop where
  reachable : Plant.Reachable build (.ofSettings run.settings) workerThread run.plant
  counted : Plant.Counted true run.world.lock.value run.worker
  paced : Paced (.ofSettings run.settings) run.world.lock (run.world.thread workerThread) run.worker
  /-- Before the loop the thread is not there yet, or it is about to become the worker. -/
  awaits : run.worker = .starting → (run.world.thread workerThread).activity = .idle ∨
    (run.world.thread workerThread).activity.isStarting = true
  unspawned : run.world.threads.contains workerThread = false → run.worker = .starting
  source : (run.world.thread EventSource.threadName).activity = .idle

/-- What holds at every moment of a run. -/
structure Coheres (build : Build) (run : Run) : Prop where
  works : run.Works build
  minds : run.Minds
  books : Books run.world.lock (run.world.thread workerThread) run.main
  fed : Fed run.eventCount run.channel run.source run.main

theorem Works.congr (h : run.Works build) (hworld : next.world = run.world)
    (hsettings : next.settings = run.settings) (hworker : next.worker = run.worker) :
    next.Works build := by
  obtain ⟨settings, world, channel, main, source, worker⟩ := next
  cases hworld
  cases hsettings
  cases hworker
  exact ⟨h.reachable, h.counted, h.paced, h.awaits, h.unspawned, h.source⟩

/-- What the worker does next is not changed by moves of others that spare the counters of the
machine and those of the lock that the worker counts with. -/
theorem Works.beside {move : Move Machine} {events : List (Event Machine)} (h : run.Works build)
    (hmove : run.world.move? build move = some (next.world, events))
    (hother : move.thread? ≠ some workerThread)
    (hsource : move.thread? ≠ some EventSource.threadName)
    (hspawn : ∀ parent, move ≠ .call parent (.spawn EventSource.threadName))
    (hspares : sparesCounters run.world.lock.value move = true)
    (hstats : KeepsWork run.world.lock.stats next.world.lock.stats)
    (hsettings : next.settings = run.settings) (hworker : next.worker = run.worker) :
    next.Works build := by
  have change := World.change_of_move? hmove
  obtain ⟨hframe, hcycles⟩ := Plant.counters_of_spared hmove hspares
  have hplant : run.plant.move? build (.ofSettings run.settings) workerThread (.beside move) =
      some next.plant := by
    rw [Plant.move?_beside hmove hother hspares, plant, plant, hworker]
  refine ⟨?_, ?_, ?_, ?_, ?_, ?_⟩
  · rw [hsettings]
    exact h.reachable.move _ hplant
  · rw [hworker]
    exact h.counted.congr hframe hcycles
  · rw [hsettings, hworker]
    obtain hkept | ⟨hnew, title, hborn⟩ := change.thread_of_others hother
    · exact h.paced.congr hframe hstats (by rw [hkept])
    · -- The thread is started just now, and nothing has been counted.
      have hpaced := h.paced
      rw [h.unspawned hnew] at hpaced ⊢
      rw [hborn]
      exact InAccount.congr hpaced hframe hstats nofun
  · rw [hworker]
    intro hstarting
    obtain hkept | ⟨_, title, hborn⟩ := change.thread_of_others hother
    · rw [hkept]
      exact h.awaits hstarting
    · rw [hborn]
      exact .inr rfl
  · rw [hworker]
    intro hnew
    apply h.unspawned
    apply Bool.eq_false_iff.mpr
    intro hknown
    cases hnew.symm.trans (change.contains_kept hknown)
  · rw [change.thread_of_unspawned hsource hspawn]
    exact h.source

/-- A step of the main thread spares the counters of the machine, because what it paints is the
machine that it has looked at. -/
theorem Coheres.spares_of_main (h : run.Coheres build) {move : Move Machine}
    (hmine : move = .step mainThread ∨
      ∃ call, run.main.action = .call call ∧ move = .call mainThread call) :
    sparesCounters run.world.lock.value move = true := by
  obtain rfl | ⟨call, haction, rfl⟩ := hmine
  · rfl
  · cases call with
    | write access written =>
      obtain ⟨machine, color, handled, hmain, rfl⟩ := MainStage.of_write haction
      have hbooks := h.books
      rw [hmain] at hbooks
      rw [hbooks.2]
      simp [sparesCounters]
    | _ => rfl

theorem Coheres.works_of_main (h : run.Coheres build)
    (hstep : run.mainStep? build = some (next, lines)) (hstride : run.MainStride next) :
    next.Works build := by
  obtain ⟨hspares, _⟩ := of_mainStep? hstep
  obtain ⟨hworld, _⟩ | ⟨move, events, hmine, hmove, _⟩ := move_of_mainStep? hstep
  · exact h.works.congr hworld hspares.settings hspares.worker
  · have hthread : move.thread? = some mainThread := by
      obtain rfl | ⟨_, _, rfl⟩ := hmine <;> rfl
    refine h.works.beside hmove (by rw [hthread]; decide) (by rw [hthread]; decide) ?_
      (h.spares_of_main hmine) hstride.keepsWork hspares.settings hspares.worker
    rintro parent rfl
    obtain hcall | ⟨call, haction, hcall⟩ := hmine
    · cases hcall
    · cases hcall
      exact absurd (MainStage.of_spawn haction) (by decide)

/-- A step of the main thread is beside the loop, and it keeps the books. -/
theorem Coheres.main (h : run.Coheres build)
    (hstep : run.mainStep? build = some (next, lines)) : next.Coheres build := by
  obtain ⟨hstride, hminds⟩ := mainStride hstep h.works.reachable.world h.minds
  obtain ⟨hspares, _⟩ := of_mainStep? hstep
  refine ⟨h.works_of_main hstep hstride, hminds, ?_, ?_⟩
  · apply hstride.books _ h.books
    intro hfinished
    obtain ⟨hworld, _⟩ | ⟨move, events, _, hmove, _⟩ := move_of_mainStep? hstep
    · rwa [hworld]
    · exact (World.change_of_move? hmove).finished_kept hfinished
  · rw [eventCount_eq hspares.settings]
    exact hstride.fed hspares h.fed

/-- A step of the source has nothing to do with the world. -/
theorem Coheres.source (h : run.Coheres build)
    (hstep : run.sourceStep? build = some (next, lines)) : next.Coheres build := by
  obtain ⟨hstride, _⟩ := sourceStride hstep h.works.source
  have hfed := hstride.fed h.fed
  cases hstride with
  | rest _ hnext | send _ _ hnext =>
    subst hnext
    exact ⟨h.works.congr rfl rfl rfl, h.minds.congr rfl rfl h.minds.worker, h.books, hfed⟩

/-- What a step of the worker comes to. -/
structure WorkerSteps (build : Build) (run next : Run) (deed : Deed) : Prop where
  performs : perform? build run.world {} workerThread
    (MachineLoop.action (.ofSettings run.settings) run.worker) = some deed
  loop : run.plant.loop? build (.ofSettings run.settings) workerThread = some next.plant
  world : next.world = deed.world
  spares : next.settings = run.settings ∧ next.main = run.main ∧ next.channel = run.channel ∧
    next.source = run.source

/-- A step of the worker is one of the loop, since the thread of a loop that has ended does nothing
and neither does one that has not been started. -/
theorem Works.steps_of_workerStep? (h : run.Works build)
    (hstep : run.workerStep? build = some (next, lines)) :
    ∃ deed, run.WorkerSteps build next deed ∧ lines = deed.lines := by
  have hexchange := MachineLoop.isExchange_action (.ofSettings run.settings) run.worker
  obtain ⟨deed, hdeed, hnext⟩ := Option.map_eq_some_iff.mp hstep
  cases hnext
  change perform? _ _ _ _ (MachineLoop.action _ _) = _ at hdeed
  rw [perform?_of_not_exchange hexchange {}] at hdeed
  obtain ⟨deed, hplain, rfl⟩ := Option.map_eq_some_iff.mp hdeed
  have hhand : run.plant.isInHand workerThread = true := by
    unfold Plant.isInHand
    cases hworker : run.worker with
    | starting =>
      obtain hidle | hstarts := h.awaits hworker
      · rw [hworker] at hplain
        simp only [MachineLoop.action, perform?, hidle] at hplain
        cases hplain
      · rwa [plant, hworker]
    | ended =>
      have hpaced := h.paced
      rw [hworker] at hpaced
      obtain ⟨outcome, hfinished, _⟩ := hpaced
      rw [perform?_of_finished hfinished] at hplain
      cases hplain
    | _ => rw [plant, hworker]
  refine ⟨deed, ⟨hplain, ?_, rfl, rfl, rfl, rfl, rfl⟩, rfl⟩
  unfold Plant.loop?
  rw [if_pos hhand]
  change Option.map _ (perform? _ run.world {} _ (MachineLoop.action _ run.worker)) = _
  rw [hplain]
  rfl

/-- A step of the loop keeps the account of the worker. -/
theorem Works.worker (h : run.Works build) {deed : Deed}
    (hsteps : run.WorkerSteps build next deed)
    (hexact : build.isChecked = true ∨ ¬run.plant.Overflows) : next.Works build := by
  have hfits := h.reachable.world.fits workerThread
  have hstride := Plant.stride hsteps.loop h.reachable.loopsAt
  obtain ⟨hhand, _⟩ := Plant.exists_deed_of_loop? hsteps.loop
  refine ⟨?_, ?_, ?_, ?_, ?_, ?_⟩
  · rw [hsteps.spares.1]
    exact h.reachable.move .loop hsteps.loop
  · exact hstride.counted hfits.sound (fun _ ↦ rfl) (fun _ ↦ hexact) h.counted
  · rw [hsteps.spares.1]
    exact hstride.paced hfits h.counted h.paced
  · intro hstarting
    exact .inr (Plant.starting_of_loop? hsteps.loop hfits.sound hstarting)
  · intro hnew
    have hknown : run.world.threads.contains workerThread = true := by
      cases hcontains : run.world.threads.contains workerThread with
      | true => rfl
      | false =>
        have hstage : run.plant.stage = .starting := h.unspawned hcontains
        have hidle : run.plant.self workerThread = {} := Roster.get_of_not_contains hcontains
        rw [Plant.isInHand, hstage, hidle] at hhand
        cases hhand
    rw [hsteps.world, contains_of_perform? hsteps.performs hknown] at hnew
    cases hnew
  · rw [hsteps.world, thread_of_perform? hsteps.performs (by decide) ?_]
    · exact h.source
    · exact MachineLoop.action_ne_spawn _ _ _

/-- A step of the worker changes nothing that the main thread has seen. -/
theorem Coheres.worker (h : run.Coheres build)
    (hstep : run.workerStep? build = some (next, lines))
    (hexact : build.isChecked = true ∨ ¬run.plant.Overflows) : next.Coheres build := by
  obtain ⟨deed, hsteps, _⟩ := h.works.steps_of_workerStep? hstep
  obtain ⟨_, hmain, hchannel, hsource⟩ := hsteps.spares
  have hreach := h.works.reachable
  have hfits := hreach.world.fits workerThread
  have hstride := Plant.stride hsteps.loop hreach.loopsAt
  have hrunning : (run.world.thread workerThread).activity ≠ .finished none := by
    intro hfinished
    have hdeed := hsteps.performs
    rw [perform?_of_finished hfinished] at hdeed
    cases hdeed
  refine ⟨h.works.worker hsteps hexact, h.minds.congr ?_ hmain ?_, ?_, ?_⟩
  · rw [hsteps.world]
    exact thread_of_perform? hsteps.performs (by decide) (MachineLoop.action_ne_spawn _ _ _)
  · rw [hsteps.world]
    exact worker_of_perform? hsteps.performs (by decide) h.minds.worker
  · rw [hmain]
    refine h.books.congr (hstride.acquisitions_eq hfits h.works.paced) ?_
      fun hfinished ↦ absurd hfinished hrunning
    rintro (hguards | hfinished)
    · -- The main thread owns the lock, so the worker is between frames and writes nothing.
      apply hstride.value_eq
      apply Bool.eq_false_iff.mpr
      intro hframe
      have hdepth : 0 < run.plant.world.lock.mutex.depth mainThread := by
        rw [(hreach.world.fits mainThread).depth]
        exact Nat.lt_of_lt_of_le (Nat.lt_of_lt_of_eq hguards h.minds.guards.symm)
          (Nat.le_add_right _ _)
      exact absurd (Mutex.depth_pos_unique hdepth (hreach.depth_pos hframe)) (by decide)
    · exact absurd hfinished hrunning
  · rw [hmain, hchannel, hsource, eventCount_eq hsteps.spares.1]
    exact h.fed

/-- Time passes. -/
def wait (run : Run) (nanos : Nat) : Run :=
  { run with world := { run.world with clock := run.world.clock + nanos } }

theorem Coheres.wait (h : run.Coheres build) (nanos : Nat) : (run.wait nanos).Coheres build := by
  have hmove : run.world.move? build (.pass nanos) = some ((run.wait nanos).world, []) := rfl
  refine ⟨?_, h.minds.congr rfl rfl h.minds.worker, h.books, h.fed⟩
  exact h.works.beside hmove nofun nofun (fun _ ↦ nofun) rfl (.of_eq rfl) rfl rfl

variable {settings : Settings}

/-- A run begins with a lock of its configuration, which has a note for a teardown. -/
theorem exists_lock_of_start (h : start settings = .ok run) :
    ∃ lock, Lock.withConfig {} settings.lock = .ok lock ∧
      run = { settings, world := { lock := lock.withTeardown (.note teardownLine) } } := by
  unfold start at h
  cases hlock : Lock.withConfig ({} : Machine) settings.lock with
  | error error =>
    rw [hlock] at h
    cases h
  | ok lock =>
    rw [hlock] at h
    cases h
    exact ⟨lock, rfl, rfl⟩

theorem isNew_of_start (h : start settings = .ok run) : run.world.IsNew := by
  obtain ⟨lock, hlock, rfl⟩ := exists_lock_of_start h
  exact ⟨.withTeardown _ (.withConfig hlock), rfl⟩

theorem coheres_of_start (h : start settings = .ok run) : run.Coheres build := by
  have hnew := isNew_of_start h
  obtain ⟨lock, hlock, rfl⟩ := exists_lock_of_start h
  obtain rfl := Lock.eq_of_withConfig hlock
  have haccount : Account (.ofSettings settings) 0 0 0 .ready :=
    ⟨rfl, ((Nat.zero_add _).trans (Nat.zero_div _)).symm⟩
  refine ⟨⟨.new hnew rfl, Machine.tied_default true, ⟨haccount, Nat.le_refl 0, nofun⟩,
    fun _ ↦ .inl rfl, fun _ ↦ rfl, rfl⟩, ?_, ?_, ?_⟩
  · exact ⟨rfl, rfl, .idle _, nofun⟩
  · rfl
  · exact ⟨rfl, rfl⟩

end Run

/-- What happens in a run: one of its threads makes a step, or time passes. -/
inductive Pulse where
  | step (role : Role)
  | pass (nanos : Nat)
  deriving DecidableEq, Repr

/-- The run after something has happened, with the lines that were logged. -/
def Run.pulse? (build : Build) (run : Run) : Pulse → Option (Run × List Line)
  | .step role => run.step? build role
  | .pass nanos => some (run.wait nanos, [])

/-- One thing that happens in a run, with the run before and after it. -/
structure Beat where
  before : Run
  pulse : Pulse
  after : Run
  lines : List Line
  deriving DecidableEq, Repr

namespace Beat

def Happens (build : Build) (beat : Beat) : Prop :=
  beat.before.pulse? build beat.pulse = some (beat.after, beat.lines)

/-- The worker works out a sum that is too large for a word. -/
def Overflows (beat : Beat) : Prop :=
  beat.pulse = .step .worker ∧ beat.before.plant.Overflows

end Beat

namespace Run

/-- A run from its start, with all that has happened in it. The threads take their turns in any
order. -/
inductive History (build : Build) (first : Run) : List Beat → Run → Prop where
  | nil : History build first [] first
  | snoc {beats : List Beat} {beat : Beat} (history : History build first beats beat.before)
      (hhappens : beat.Happens build) : History build first (beats ++ [beat]) beat.after

variable {build : Build} {first last : Run} {beats : List Beat} {beat : Beat}
  {settings : Settings}

section

variable {run next : Run} {pulse : Pulse} {lines : List Line}

theorem Coheres.of_pulse? (h : run.Coheres build)
    (hpulse : run.pulse? build pulse = some (next, lines))
    (hexact : build.isChecked = true ∨ ¬(pulse = .step .worker ∧ run.plant.Overflows)) :
    next.Coheres build := by
  cases pulse with
  | pass nanos =>
    cases hpulse
    exact h.wait nanos
  | step role =>
    cases role with
    | main => exact h.main hpulse
    | source => exact h.source hpulse
    | worker => exact h.worker hpulse (hexact.imp_right fun hsmall hlarge ↦ hsmall ⟨rfl, hlarge⟩)

theorem settings_of_pulse? (hpulse : run.pulse? build pulse = some (next, lines)) :
    next.settings = run.settings := by
  cases pulse with
  | pass nanos =>
    cases hpulse
    rfl
  | step role =>
    cases role with
    | main => exact (of_mainStep? hpulse).1.settings
    | source =>
      obtain ⟨_, _, hstep⟩ := Option.bind_eq_some_iff.mp hpulse
      obtain ⟨_, _, hnext⟩ := Option.map_eq_some_iff.mp hstep
      cases hnext
      rfl
    | worker =>
      obtain ⟨_, _, hnext⟩ := Option.map_eq_some_iff.mp hpulse
      cases hnext
      rfl

end

theorem History.settings_eq (history : History build first beats last) :
    last.settings = first.settings := by
  induction history with
  | nil => rfl
  | snoc _ hhappens ih => exact (settings_of_pulse? hhappens).trans ih

/-- What holds at the start of a run holds at every moment of it, as long as no sum is cut off. -/
theorem History.coheres (history : History build first beats last)
    (hstart : start settings = .ok first)
    (hexact : build.isChecked = true ∨ ∀ beat ∈ beats, ¬beat.Overflows) :
    last.Coheres build := by
  induction history with
  | nil => exact coheres_of_start hstart
  | snoc history hhappens ih =>
    apply (ih _).of_pulse? hhappens
    · exact hexact.imp_right fun hsmall ↦ hsmall _ (by simp)
    · exact hexact.imp_right fun hsmall beat hmem ↦ hsmall beat (List.mem_append_left _ hmem)

end Run

end YieldLock.Demo
