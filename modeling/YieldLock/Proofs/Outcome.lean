import YieldLock.Demo.CommandLine
import YieldLock.Proofs.Program

/-!
# What the demonstration comes to

All that the lock logs in a run of the demonstration is logged in a run of the
world, and so the teardown of the worker's session leaves its note once. The main
thread's last line is the last of all. Main statements: `Run.History.exists_run`,
`Run.History.closes`, `demonstration_adds_up`, how the numbers of the last line and of
the lock's counters are related, and `CommandLine.exists_report_of_completed`, that
this is what the program reports.
-/

namespace YieldLock.Demo

/-- How the counters of the lock and the number of frames are related in a run that is complete. -/
structure AddsUp (settings : Settings) (frames : UInt64) (stats : Stats) : Prop where
  frames_pos : 1 ≤ frames.toNat
  acquisitions : stats.acquisitions = settings.uiEvents + 1
  yields : stats.yieldCalls.toNat = frames.toNat ∨ stats.yieldCalls.toNat + 1 = frames.toNat
  handoffs : stats.handoffs.toNat ≤ stats.yieldCalls.toNat
  windows :
    stats.windows.toNat = frames.toNat + frames.toNat / settings.hostCallEvery.toNat ∨
      (0 < settings.hostCallEvery.toNat ∧ settings.hostCallEvery.toNat ∣ frames.toNat) ∧
        stats.yieldCalls.toNat + 1 = frames.toNat ∧
        stats.windows.toNat + 1 = frames.toNat + frames.toNat / settings.hostCallEvery.toNat

/-- The lines that were logged in a run. -/
def linesOf (beats : List Beat) : List Line := beats.flatMap Beat.lines

theorem linesOf_snoc (beats : List Beat) (beat : Beat) :
    linesOf (beats ++ [beat]) = linesOf beats ++ beat.lines := by
  rw [linesOf, List.flatMap_append, List.flatMap_singleton, linesOf]

namespace Run

section

variable {build : Build} {run next : Run} {pulse : Pulse} {lines : List Line}

/-- Whatever happens leaves the world as it is, and logs nothing of the lock, or it is a move of the
world. -/
theorem move_of_pulse? (h : run.pulse? build pulse = some (next, lines)) :
    next.world = run.world ∧ lines.filterMap Line.entry? = [] ∨
      ∃ move events, run.world.move? build move = some (next.world, events) ∧
        lines.filterMap Line.entry? = events.filterMap Event.entry? := by
  have hperform {channel : Channel} {me : Thread} {action : Action} {deed : Deed}
      (hdeed : perform? build run.world channel me action = some deed) :
      deed.world = run.world ∧ deed.lines.filterMap Line.entry? = [] ∨
        ∃ move events, run.world.move? build move = some (deed.world, events) ∧
          deed.lines.filterMap Line.entry? = events.filterMap Event.entry? :=
    (exists_move_of_perform? hdeed).imp_right fun ⟨move, events, _, hmove⟩ ↦ ⟨move, events, hmove⟩
  cases pulse with
  | pass nanos =>
    cases h
    exact .inr ⟨.pass nanos, [], rfl, rfl⟩
  | step role =>
    cases role with
    | main =>
      exact (move_of_mainStep? h).imp_right fun ⟨move, events, _, hmove⟩ ↦ ⟨move, events, hmove⟩
    | source =>
      obtain ⟨_, _, hstep⟩ := Option.bind_eq_some_iff.mp h
      obtain ⟨deed, hdeed, hnext⟩ := Option.map_eq_some_iff.mp hstep
      cases hnext
      exact hperform hdeed
    | worker =>
      obtain ⟨deed, hdeed, hnext⟩ := Option.map_eq_some_iff.mp h
      cases hnext
      exact hperform hdeed

/-- A main thread that has reported does nothing any more. -/
theorem mainStep?_of_done {ending : Ending} (hminds : run.Minds) (hmain : run.main = .done ending) :
    run.mainStep? build = none := by
  have hidle := hminds.stands
  rw [hmain] at hidle
  cases hstep : run.mainStep? build with
  | none => rfl
  | some after =>
    obtain ⟨_, ⟨_, hother, _⟩ | ⟨deed, hacts⟩⟩ := of_mainStep? hstep
    · cases hmain.symm.trans hother
    · exact absurd (by rw [hmain]; rfl) (hacts.not_idle hidle.idle_of_idle)

/-- A step that completes the run logs the report. -/
theorem completes_of_mainStep? (h : run.Coheres build)
    (hstep : run.mainStep? build = some (next, lines)) {handled frames : UInt64}
    (hdone : next.main = .done (.completed handled frames)) :
    lines = [.notice (.handled handled frames)] := by
  have hbefore (ending : Ending) : run.main ≠ .done ending := by
    intro hmain
    cases (mainStep?_of_done h.minds hmain).symm.trans hstep
  obtain ⟨_, ⟨_, _, hother, _⟩ | ⟨deed, hacts⟩⟩ := of_mainStep? hstep
  · cases hother.symm.trans hdone
  · have hmain : run.main = .reporting handled frames := by
      have hnext := hacts.main
      rw [hdone] at hnext
      cases hreply : deed.reply with
      | none =>
        rw [hreply] at hnext
        exact absurd hnext.symm (hbefore _)
      | some reply =>
        rw [hreply] at hnext
        exact (MainStage.of_resume_completed hnext.symm).resolve_right (hbefore _)
    have haction : run.main.action = .log (.handled handled frames) := by
      rw [hmain]
      rfl
    have hstands := h.minds.stands
    rw [haction] at hstands
    exact (hacts.of_log hstands.idle_of_log haction).2.2

/-- A run that is complete has just been completed, or it was so before and nothing more is
logged. -/
theorem completes_of_pulse? (h : run.Coheres build)
    (hpulse : run.pulse? build pulse = some (next, lines)) {handled frames : UInt64}
    (hdone : next.main = .done (.completed handled frames)) :
    lines = [.notice (.handled handled frames)] ∨ next.main = run.main ∧ lines = [] := by
  cases pulse with
  | pass nanos =>
    cases hpulse
    exact .inr ⟨rfl, rfl⟩
  | step role =>
    cases role with
    | main => exact .inl (completes_of_mainStep? h hpulse hdone)
    | source =>
      obtain ⟨hstride, hlines⟩ := sourceStride hpulse h.works.source
      cases hstride with
      | rest _ hnext | send _ _ hnext => exact .inr ⟨by rw [hnext], hlines⟩
    | worker =>
      obtain ⟨deed, hsteps, _⟩ := h.works.steps_of_workerStep? hpulse
      have hbooks := h.books
      have hdeed := hsteps.performs
      rw [← hsteps.spares.2.1, hdone] at hbooks
      rw [perform?_of_finished hbooks.2.1] at hdeed
      cases hdeed

end

section

variable {build : Build} {first last : Run} {beats : List Beat} {settings : Settings}

/-- What the lock logs in a run is what it logs in a run of the world. -/
theorem History.exists_run (history : History build first beats last) :
    ∃ turns, YieldLock.Run build first.world turns last.world ∧
      (linesOf beats).filterMap Line.entry? = (shownIn turns).filterMap Event.entry? := by
  induction history with
  | nil => exact ⟨[], .nil, rfl⟩
  | @snoc beats beat history hhappens ih =>
    obtain ⟨turns, run, hentries⟩ := ih
    rw [linesOf_snoc, List.filterMap_append, hentries]
    obtain ⟨hworld, hlines⟩ | ⟨move, events, hmove, hlines⟩ := move_of_pulse? hhappens
    · rw [hlines, List.append_nil, hworld]
      exact ⟨turns, run, rfl⟩
    · let turn : Turn Machine := ⟨beat.before.world, move, beat.after.world, events⟩
      have hturn : turn.IsMove build := hmove
      refine ⟨turns ++ [turn], run.snoc hturn, ?_⟩
      rw [hlines, shownIn, shownIn, List.flatMap_append, List.flatMap_singleton,
        List.filterMap_append]

/-- The last line of a run that is complete is the report. -/
theorem History.closes (history : History build first beats last)
    (hstart : start settings = .ok first)
    (hexact : build.isChecked = true ∨ ∀ beat ∈ beats, ¬beat.Overflows)
    {handled frames : UInt64} (hdone : last.main = .done (.completed handled frames)) :
    ∃ earlier, linesOf beats = earlier ++ [.notice (.handled handled frames)] := by
  induction history with
  | nil =>
    obtain ⟨lock, _, rfl⟩ := exists_lock_of_start hstart
    cases hdone
  | @snoc beats beat history hhappens ih =>
    have hearlier : build.isChecked = true ∨ ∀ beat ∈ beats, ¬beat.Overflows :=
      hexact.imp_right fun hsmall beat hmem ↦ hsmall beat (List.mem_append_left _ hmem)
    rw [linesOf_snoc]
    obtain hlines | ⟨hmain, hlines⟩ :=
      completes_of_pulse? (history.coheres hstart hearlier) hhappens hdone
    · exact ⟨linesOf beats, by rw [hlines]⟩
    · rw [hlines, List.append_nil]
      exact ih hearlier (hmain.symm.trans hdone)

/-- Once the worker has ended well, its session has left the note of the teardown once. -/
theorem History.countP_note (history : History build first beats last)
    (hstart : start settings = .ok first)
    (hended : (last.world.thread workerThread).activity = .finished none) :
    (linesOf beats).countP (· = .lock (.noted teardownLine)) = 1 := by
  have hnew := isNew_of_start hstart
  have hteardown : first.world.lock.teardown = some (.note teardownLine) := by
    obtain ⟨lock, _, rfl⟩ := exists_lock_of_start hstart
    rfl
  obtain ⟨turns, run, hentries⟩ := history.exists_run
  have hentered : enteredIn turns = [.note teardownLine] := by
    cases run.career hnew (by rw [hteardown]; nofun) workerThread with
    | apart _ _ hactive => exact absurd hended (hactive none)
    | begins _ hbusy | ends _ _ hbusy => cases hended.symm.trans hbusy
    | refused _ hfinished => cases hended.symm.trans hfinished
    | works _ hsession =>
      rw [((run.reachable hnew).fits workerThread).sound.finished none hended] at hsession
      cases hsession
    | gone _ _ _ _ _ _ _ hagrees => rw [hagrees.1, hteardown]; rfl
  calc
    (linesOf beats).countP (· = .lock (.noted teardownLine))
      = ((linesOf beats).filterMap Line.entry?).countP (· = .noted teardownLine) := by
        rw [List.countP_filterMap]
        refine List.countP_congr fun line _ ↦ ?_
        cases line <;> simp [Line.entry?]
    _ = ((shownIn turns).filterMap Event.entry?).countP (· = .noted teardownLine) := by
        rw [hentries]
    _ = (shownIn turns).countP (Event.isNote teardownLine) := by
        rw [List.countP_filterMap]
        refine List.countP_congr fun event _ ↦ ?_
        cases event with
        | entry entry => cases entry <;> simp [Event.entry?, Event.isNote]
        | tornDown | answered => exact Iff.rfl
    _ = (enteredIn turns).length := run.countP_isNote hnew hteardown
    _ = 1 := by rw [hentered]; rfl

/-- When a run is complete the worker has ended well, all the events have been handled, and the
counters add up. -/
theorem History.addsUp (history : History build first beats last)
    (hstart : start settings = .ok first)
    (hexact : build.isChecked = true ∨ ∀ beat ∈ beats, ¬beat.Overflows)
    {handled frames : UInt64} (hdone : last.main = .done (.completed handled frames)) :
    (last.world.thread workerThread).activity = .finished none ∧ handled = settings.uiEvents ∧
      AddsUp settings frames last.world.lock.stats := by
  have hcoheres := history.coheres hstart hexact
  have hsettings : last.settings = settings := by
    rw [history.settings_eq]
    obtain ⟨lock, _, rfl⟩ := exists_lock_of_start hstart
    rfl
  have hbooks := hcoheres.books
  have hfed := hcoheres.fed
  rw [hdone] at hbooks hfed
  obtain ⟨hacquired, hended, rfl⟩ := hbooks
  have hhandled : handled = settings.uiEvents := by
    rw [← UInt64.toNat_inj, ← hsettings]
    exact hfed
  have hclosed : IsClosed (.ofSettings settings) last.world.lock := by
    have hpaced := hcoheres.works.paced
    rw [hsettings] at hpaced
    refine hpaced.closed hcoheres.works.reachable.loopsAt ?_ hended
    intro hstarting
    obtain hidle | hstarts := hcoheres.works.awaits hstarting
    · cases hidle.symm.trans hended
    · rw [hended] at hstarts
      cases hstarts
  exact ⟨hended, hhandled, hclosed.closed.frames_pos, by rw [hacquired, hhandled],
    hclosed.closed.yields_eq, hclosed.handoffs, hclosed.closed.windows_eq⟩

/-- The last line of a run that is complete is the report, and one note of the teardown is among the
lines before it. -/
theorem History.closes_after_note (history : History build first beats last)
    (hstart : start settings = .ok first)
    (hexact : build.isChecked = true ∨ ∀ beat ∈ beats, ¬beat.Overflows)
    {handled frames : UInt64} (hdone : last.main = .done (.completed handled frames)) :
    ∃ earlier, linesOf beats = earlier ++ [.notice (.handled handled frames)] ∧
      earlier.countP (· = .lock (.noted teardownLine)) = 1 := by
  obtain ⟨earlier, hlines⟩ := history.closes hstart hexact hdone
  have hnote := history.countP_note hstart (history.addsUp hstart hexact hdone).1
  rw [hlines, List.countP_append] at hnote
  exact ⟨earlier, hlines, hnote⟩

/-- Execution goes on as one of the histories of the run. -/
theorem History.exists_of_executeWithin {run : Run} (history : History build first beats run)
    (fuel : Nat) (logged : List Line) :
    ∃ later, History build first (beats ++ later) (run.executeWithin build fuel logged).1 ∧
      (run.executeWithin build fuel logged).2.reverse = logged.reverse ++ linesOf later := by
  induction fuel generalizing run beats logged with
  | zero => exact ⟨[], by rwa [List.append_nil], (List.append_nil _).symm⟩
  | succ fuel ih =>
    unfold executeWithin
    split
    · rename_i next lines hstep
      obtain ⟨role, _, hrole⟩ := List.exists_of_findSome?_eq_some hstep
      let beat : Beat := ⟨run, .step role, next, lines⟩
      have hhappens : beat.Happens build := hrole
      obtain ⟨later, hlater, hlines⟩ := ih (history.snoc hhappens) (lines.reverse ++ logged)
      refine ⟨beat :: later, ?_, ?_⟩
      · rwa [List.append_assoc] at hlater
      · rw [hlines, List.reverse_append, List.reverse_reverse, List.append_assoc]
        rfl
    · exact ⟨[], by rwa [List.append_nil], (List.append_nil _).symm⟩

/-- What is executed is one of the histories of the run, and its lines are shown in order. -/
theorem exists_history_of_execute (build : Build) (run : Run) :
    ∃ beats, History build run beats (run.execute build).1 ∧
      (run.execute build).2 = linesOf beats :=
  History.nil.exists_of_executeWithin (256 * (run.eventCount + 4)) []

end

end Run

/-- A run that is complete has handled all the events, and the worker has run a frame at least. The
main thread has acquired the lock once for each event and once for the report. The worker has begun
a yield after every frame, or after every frame but the last; and it has made a window for the
rest after every frame and one for every host call that is due, unless it was told to stop in the
window of a host call and had no rest after it. The last line is the report, and before it the
worker's thread has left one note of its end. -/
theorem demonstration_adds_up {build : Build} {settings : Settings} {first last : Run}
    {beats : List Beat} {handled frames : UInt64} (hstart : Run.start settings = .ok first)
    (history : Run.History build first beats last)
    (hexact : build.isChecked = true ∨ ∀ beat ∈ beats, ¬beat.Overflows)
    (hdone : last.main = .done (.completed handled frames)) :
    handled = settings.uiEvents ∧ 1 ≤ frames.toNat ∧
    last.world.lock.stats.acquisitions = settings.uiEvents + 1 ∧
    (last.world.lock.stats.yieldCalls.toNat = frames.toNat ∨
      last.world.lock.stats.yieldCalls.toNat + 1 = frames.toNat) ∧
    last.world.lock.stats.handoffs.toNat ≤ last.world.lock.stats.yieldCalls.toNat ∧
    (last.world.lock.stats.windows.toNat =
        frames.toNat + frames.toNat / settings.hostCallEvery.toNat ∨
      (0 < settings.hostCallEvery.toNat ∧ settings.hostCallEvery.toNat ∣ frames.toNat) ∧
        last.world.lock.stats.yieldCalls.toNat + 1 = frames.toNat ∧
        last.world.lock.stats.windows.toNat + 1 =
          frames.toNat + frames.toNat / settings.hostCallEvery.toNat) ∧
    ∃ earlier, linesOf beats = earlier ++ [.notice (.handled handled frames)] ∧
      earlier.countP (· = .lock (.noted Run.teardownLine)) = 1 := by
  obtain ⟨_, hhandled, hadds⟩ := history.addsUp hstart hexact hdone
  exact ⟨hhandled, hadds.frames_pos, hadds.acquisitions, hadds.yields, hadds.handoffs,
    hadds.windows, history.closes_after_note hstart hexact hdone⟩

/-- A worker that makes a host call after every frame and is told to stop in the first of them has
made no window for the rest after its frame. -/
theorem demonstration_stopped_in_host_call :
    ∃ (settings : Settings) (first last : Run) (beats : List Beat),
      Run.start settings = .ok first ∧ Run.History .checked first beats last ∧
      settings.uiEvents = 1 ∧ settings.hostCallEvery = 1 ∧ last.main = .done (.completed 1 1) ∧
      last.world.lock.stats.acquisitions = 2 ∧
      last.world.lock.stats.yieldCalls.toNat = 0 ∧ last.world.lock.stats.windows.toNat = 1 ∧
      ∃ earlier, linesOf beats = earlier ++ [.notice (.handled 1 1)] ∧
        earlier.countP (· = .lock (.noted Run.teardownLine)) = 1 := by
  let settings : Settings := { Settings.standard .checked with hostCallEvery := 1, uiEvents := 1 }
  have hplay : ∃ first ∈ (Run.start settings).toOption,
      (first.execute .checked).1.main = .done (.completed 1 1) ∧
      (first.execute .checked).1.world.lock.stats.yieldCalls.toNat = 0 ∧
      (first.execute .checked).1.world.lock.stats.windows.toNat = 1 := by
    decide +kernel
  obtain ⟨first, hfirst, hdone, hyields, hwindows⟩ := hplay
  have hstart : Run.start settings = .ok first := by
    cases hrun : Run.start settings with
    | error error =>
      rw [hrun] at hfirst
      cases hfirst
    | ok run =>
      rw [hrun] at hfirst
      cases hfirst
      rfl
  obtain ⟨beats, history, _⟩ := first.exists_history_of_execute .checked
  obtain ⟨_, _, hacquired, _, _, _, hlines⟩ :=
    demonstration_adds_up hstart history (.inl rfl) hdone
  exact ⟨settings, first, _, beats, hstart, history, rfl, rfl, hdone, hacquired, hyields, hwindows,
    hlines⟩

/-- The report of an execution that is complete is a success. It gives the counters of the lock,
which add up with the frames of the last line, and one note of the teardown before that line. -/
theorem CommandLine.exists_report_of_completed {build : Build} {settings : Settings} {first : Run}
    {handled frames : UInt64} (hstart : Run.start settings = .ok first)
    (hexact : build.isChecked = true ∨
      ∀ beats, Run.History build first beats (first.execute build).1 →
        ∀ beat ∈ beats, ¬beat.Overflows)
    (hdone : (first.execute build).1.main = .done (.completed handled frames)) :
    ∃ stats earlier, runSettings build settings =
        { lines := earlier ++ [.notice (.handled settings.uiEvents frames)], result := .ok stats } ∧
      AddsUp settings frames stats ∧
      earlier.countP (· = .lock (.noted Run.teardownLine)) = 1 := by
  obtain ⟨beats, history, hlines⟩ := first.exists_history_of_execute build
  have hsmall : build.isChecked = true ∨ ∀ beat ∈ beats, ¬beat.Overflows :=
    hexact.imp_right fun hsmall ↦ hsmall beats history
  obtain ⟨_, rfl, hadds⟩ := history.addsUp hstart hsmall hdone
  obtain ⟨earlier, hcloses, hnote⟩ := history.closes_after_note hstart hsmall hdone
  refine ⟨_, .notice (.starting settings) :: earlier, ?_, hadds, ?_⟩
  · simp only [runSettings, hstart, hdone, hlines, hcloses, List.cons_append]
  · rw [List.countP_cons_of_neg (by simp)]
    exact hnote

end YieldLock.Demo
