import YieldLock.Proofs.Course
import YieldLock.Proofs.Desk

/-!
# A request for shutdown stops the loop

A frame is begun at a place that the loop comes to from a check point. Once the
signal is lowered no check point lets the loop go on, so what it may still begin is
one frame: the first one, or the one after a yield that had passed its check point
before. Main statements: `Plant.Course.begins_le`, what a loop may begin, and
`machine_stops_within_one_frame`.
-/

namespace YieldLock

variable {σ : Type}

namespace ThreadState

variable {build : Build} {now : Nat} {me : Thread} {lock : Lock σ} {self : ThreadState σ}
  {effect : Effect σ}

/-- A yield that begins after shutdown was requested ends the session. -/
theorem Rule.ends_of_shouldExit (rule : Rule build now me lock self (some .yieldNow) effect)
    (h : self.Runs) (hexit : lock.shouldExit me = true) : effect.self.Ends .yieldNow := by
  cases rule with
  | yieldToExit => exact ⟨_, rfl, rfl⟩
  | yieldToPoll _ _ _ hstay => cases hexit.symm.trans hstay
  | yieldAfterExit _ hsession hphase | yieldInWindow _ hsession hphase =>
    cases h.2.symm.trans hsession
    cases hphase
  | outOfReach _ hcall | dropBegin _ hcall | dropEnded _ hcall =>
    obtain h | ⟨_, h⟩ := hcall <;> cases h

/-- A yield that has handed the lock over does not go on after shutdown was requested. -/
theorem Rule.answers_of_shouldExit (rule : Rule build now me lock self none effect)
    (h : self.HandsOver) (hexit : lock.shouldExit me = true) : effect.answers = [] := by
  obtain ⟨_, point, hpoint, hbusy⟩ := h
  cases rule with
  | park => rfl
  | wake => exact answers_goOn ..
  | retake =>
    rw [answers_check]
    exact if_pos hexit
  | _ hstands =>
    cases hbusy.symm.trans hstands
    cases hpoint

end ThreadState

namespace Demo

theorem MachineLoop.isOut_of_isOver {stage : Stage} (h : stage.isOver = true) :
    stage.isOut = true := by
  cases stage with
  | leaving | ended => rfl
  | _ => cases h

namespace Plant

/-- The loop may begin a frame without passing a check point before. -/
def mayBegin (me : Thread) (plant : Plant) : Bool :=
  match plant.stage with
  | .starting | .loading => true
  | .yielding => (plant.self me).activity = .busy .yieldNow .polling
  | _ => false

section

variable {build : Build} {pacing : Pacing} {me : Thread} {plant next : Plant}

theorem mayBegin_of_yielding (hstage : plant.stage = .yielding) :
    plant.mayBegin me = true ↔ (plant.self me).activity = .busy .yieldNow .polling := by
  rw [mayBegin, hstage]
  exact decide_eq_true_iff

theorem IsAtWork.shouldExit (h : plant.IsAtWork build me) (hstage : plant.stage.isOut = false)
    (hlow : plant.world.lock.keepAlive.isSet = false) : plant.world.lock.shouldExit me = true := by
  rw [Lock.shouldExit, hlow, Lock.isWorker, h.worker_eq hstage]
  exact beq_self_eq_true _

/-- Once the signal is lowered, a step of the loop leads to the begin of a frame only from where it
might have been begun. -/
theorem mayBegin_of_loop? (h : plant.loop? build pacing me = some next)
    (hwork : plant.IsAtWork build me) (hlow : plant.world.lock.keepAlive.isSet = false)
    (hnext : next.mayBegin me = true) :
    plant.mayBegin me = true ∧ plant.stage ≠ .loading := by
  cases stride h hwork.loopsAt with
  | start hstage =>
    rw [mayBegin, hstage]
    exact ⟨rfl, nofun⟩
  | compute hstage _ _ hlater =>
    obtain ⟨_, hcomputed⟩ | ⟨_, hcomputed⟩ | ⟨_, hcomputed⟩ | hcomputed | ⟨_, hcomputed⟩ :=
      MachineLoop.exists_of_computed build pacing plant.world.lock.value hstage
    all_goals
      rw [mayBegin, hlater, hcomputed] at hnext
      cases hnext
  | store _ hstage =>
    obtain ⟨_, hlater⟩ | ⟨_, hlater⟩ := hstage
    all_goals
      rw [mayBegin, hlater] at hnext
      cases hnext
  | announce _ _ _ hlater | openWindow _ _ _ hlater | rest _ _ _ hlater | approach _ _ _ _ hlater
  | fail _ _ _ _ _ _ hlater =>
    rw [mayBegin, hlater] at hnext
    cases hnext
  | @closeWindow window _ _ _ _ hlater =>
    obtain ⟨hlater, hruns⟩ | ⟨hlater, _⟩ := hlater
    · cases window with
      | host =>
        rw [mayBegin, hlater] at hnext
        cases hnext
      | frame =>
        rw [mayBegin_of_yielding hlater, hruns.1] at hnext
        cases hnext
    · rw [mayBegin, hlater] at hnext
      cases hnext
  | beginYield hstage hruns _ _ _ hlater =>
    have hcall : MachineLoop.action pacing plant.stage = .call .yieldNow := by rw [hstage]; rfl
    obtain ⟨effect, hsteps⟩ := steps_of_call h hruns.1 hcall rfl
    have hexit := hwork.shouldExit (by rw [hstage]; rfl) hlow
    obtain ⟨point, hpoint, hbusy⟩ := hsteps.rule.ends_of_shouldExit hruns hexit
    rw [mayBegin_of_yielding hlater, hsteps.self_eq, hbusy] at hnext
    cases hnext
    cases hpoint
  | handOver hstage hpolls _ _ _ hlater =>
    exact ⟨(mayBegin_of_yielding hstage).mpr hpolls.2, by rw [hstage]; nofun⟩
  | await _ _ _ hself hlater =>
    have hpolls := (mayBegin_of_yielding hlater).mp hnext
    obtain ⟨_, point, hpoint, hbusy⟩ | ⟨point, hpoint, hbusy⟩ := hself
    all_goals
      cases hbusy.symm.trans hpolls
      cases hpoint
  | proceed hstage hbefore _ _ hlater =>
    obtain hpolls | hgiven := hbefore
    · exact ⟨(mayBegin_of_yielding hstage).mpr hpolls.2, by rw [hstage]; nofun⟩
    · obtain ⟨_, point, _, hbusy⟩ := id hgiven
      obtain ⟨effect, hsteps⟩ := steps_of_busy h hbusy
      have hexit := hwork.shouldExit (by rw [hstage]; rfl) hlow
      have hstays := hsteps.stage_of_none (hsteps.rule.answers_of_shouldExit hgiven hexit)
      rw [hstage, hlater] at hstays
      cases hstays
  | exit hstage _ _ hlater =>
    obtain ⟨hlater, hends⟩ | ⟨hlater, _⟩ := hlater
    · obtain ⟨rfl, window, hstage⟩ | ⟨rfl, hstage⟩ := hstage
      · rw [mayBegin, hlater, hstage] at hnext
        cases hnext
      · obtain ⟨point, hpoint, hbusy⟩ := hends
        have hpolls := (mayBegin_of_yielding (hlater.trans hstage)).mp hnext
        cases hbusy.symm.trans hpolls
        cases hpoint
    · rw [mayBegin, hlater] at hnext
      cases hnext
  | leave hstage hcall hsteps =>
    obtain ⟨_, hlater | hlater⟩ := hsteps.of_leaving hstage hcall
    all_goals
      rw [mayBegin, hlater] at hnext
      cases hnext

/-- What others do does not let the loop begin a frame. -/
theorem mayBegin_of_beside (hwork : plant.IsAtWork build me) {move : YieldLock.Move Machine}
    {world : World Machine} {events : List (Event Machine)}
    (hmove : plant.world.move? build move = some (world, events))
    (hfree : move.thread? ≠ some me ∨ plant.stage.isOut = true) :
    mayBegin me { plant with world } = plant.mayBegin me := by
  unfold mayBegin
  cases hout : plant.stage.isOut with
  | false =>
    have hother := hfree.resolve_right (by rw [hout]; nofun)
    have hself : self { plant with world } me = plant.self me :=
      hwork.self_of_others hout hmove hother
    rw [hself]
  | true =>
    cases hstage : plant.stage with
    | yielding =>
      rw [hstage] at hout
      cases hout
    | _ => rfl

/-- At the begin of a frame nothing holds the loop up. -/
theorem IsAtWork.exists_loop?_of_loading (h : plant.IsAtWork build me)
    (hstage : plant.stage = .loading) : ∃ next, plant.loop? build pacing me = some next := by
  have hruns : (plant.world.thread me).Runs := by
    have hloops := h.loopsAt
    rwa [hstage] at hloops
  have hroom := h.reachable.hasRoomFor (h.loopsAt.ne_default (by rw [hstage]; rfl))
  have hpermits : (plant.world.thread me).permits (.read .session) = true := by
    rw [ThreadState.permits, hruns.1, hruns.2]
    rfl
  rw [loop?, isInHand, hstage]
  simp [perform?, hruns.1, MachineLoop.action, World.call?, hroom, ThreadState.invoke?, hpermits]

end

section

variable {build : Build} {pacing : Pacing} {me : Thread} {first last : Plant}
  {beats : List Beat} {beat : Beat}

theorem Course.lowered (course : Course build pacing me first beats last)
    (hlow : first.world.lock.keepAlive.isSet = false) :
    last.world.lock.keepAlive.isSet = false :=
  course.run.advances.keepAlive hlow

theorem Beat.beginsFrame_iff :
    beat.beginsFrame = true ↔ beat.move = .loop ∧ beat.before.stage = .loading := by
  rw [beginsFrame, Bool.and_eq_true, decide_eq_true_iff, decide_eq_true_iff]

/-- Once the signal is lowered a frame is begun only where it may be, and no other one may be begun
after it. -/
theorem Beat.Happens.begins_le (h : beat.Happens build pacing me)
    (hwork : beat.before.IsAtWork build me)
    (hlow : beat.before.world.lock.keepAlive.isSet = false) :
    beat.beginsFrame.toNat + (beat.after.mayBegin me).toNat ≤ (beat.before.mayBegin me).toNat := by
  cases hmove : beat.move with
  | loop =>
    rw [Beat.Happens, hmove] at h
    have hnext := mayBegin_of_loop? h hwork hlow
    cases hafter : beat.after.mayBegin me with
    | true =>
      obtain ⟨hbefore, hstage⟩ := hnext hafter
      have hnone : beat.beginsFrame = false :=
        Bool.eq_false_iff.mpr fun hbegins ↦ hstage (Beat.beginsFrame_iff.mp hbegins).2
      rw [hnone, hbefore]
      exact Nat.le_refl 1
    | false =>
      cases hbegins : beat.beginsFrame with
      | true =>
        rw [mayBegin, (Beat.beginsFrame_iff.mp hbegins).2]
        exact Nat.le_refl 1
      | false => exact Nat.zero_le _
  | launch =>
    rw [Beat.Happens, hmove] at h
    have hnone : beat.beginsFrame = false := by
      rw [Beat.beginsFrame, hmove]
      rfl
    obtain ⟨hstage, hafter⟩ := of_move?_launch h
    have hbefore : beat.before.mayBegin me = true := by rw [mayBegin, hstage]
    rw [hnone, hafter, hbefore]
    exact Nat.le_refl 1
  | beside move =>
    rw [Beat.Happens, hmove] at h
    obtain ⟨hfree, _, world, events, hmade, hafter⟩ := of_move?_beside h
    have hnone : beat.beginsFrame = false := by
      rw [Beat.beginsFrame, hmove]
      rfl
    rw [hnone, hafter, mayBegin_of_beside hwork hmade hfree]
    exact Nat.le_of_eq (Nat.zero_add _)

/-- Once the signal is lowered the loop begins at most the frame that it may begin already. -/
theorem Course.begins_le (course : Course build pacing me first beats last)
    (hwork : first.IsAtWork build me) (hlow : first.world.lock.keepAlive.isSet = false) :
    beats.countP Beat.beginsFrame + (last.mayBegin me).toNat ≤ (first.mayBegin me).toNat := by
  induction course with
  | nil => exact Nat.le_of_eq (Nat.zero_add _)
  | @snoc beats beat course hhappens ih =>
    have hlast := hhappens.begins_le (course.isAtWork hwork) (course.lowered hlow)
    rw [List.countP_append, Beat.countP_singleton]
    omega

/-- A thread that is started as a worker comes to its first frame, unless there is a worker. -/
theorem stage_of_loop?_starting {plant next : Plant}
    (h : plant.loop? build pacing me = some next) (hwork : plant.IsAtWork build me)
    (hstage : plant.stage = .starting) :
    next.stage = .starting ∨ next.stage = .loading ∨ next.stage = .ended := by
  obtain ⟨hturn, _⟩ := exists_deed_of_loop? h
  rw [isInHand, hstage] at hturn
  obtain ⟨point, hbusy⟩ := Activity.exists_of_isStarting hturn
  obtain ⟨effect, hsteps⟩ := steps_of_busy h hbusy
  obtain ⟨hnext, _⟩ | ⟨hnext, _⟩ | ⟨hnext, _⟩ := hsteps.of_starting hwork.sound hstage hturn
  · exact .inl hnext
  · exact .inr (.inr hnext)
  · exact .inr (.inl hnext)

/-- A loop that stood before its first frame, or before another one, stands before a frame as long
as it has begun none, or it was refused. -/
theorem Course.begun_or (course : Course build pacing me first beats last)
    (hwork : first.IsAtWork build me)
    (hstage : first.stage = .starting ∨ first.stage = .loading) :
    0 < beats.countP Beat.beginsFrame ∨
      last.stage = .starting ∨ last.stage = .loading ∨ last.stage = .ended := by
  induction course with
  | nil => exact .inr (hstage.imp_right .inl)
  | @snoc beats beat course hhappens ih =>
    rw [List.countP_append, Beat.countP_singleton]
    obtain hbegun | hbefore := ih
    · exact .inl (Nat.add_pos_left hbegun _)
    cases hmove : beat.move with
    | loop =>
      rw [Beat.Happens, hmove] at hhappens
      obtain hbefore | hbefore | hbefore := hbefore
      · exact .inr (stage_of_loop?_starting hhappens (course.isAtWork hwork) hbefore)
      · rw [Beat.beginsFrame_iff.mpr ⟨hmove, hbefore⟩]
        exact .inl (Nat.add_pos_right _ Nat.one_pos)
      · obtain ⟨hturn, _⟩ := exists_deed_of_loop? hhappens
        rw [isInHand, hbefore] at hturn
        cases hturn
    | launch =>
      rw [Beat.Happens, hmove] at hhappens
      rw [(of_move?_launch hhappens).2]
      exact .inr (.inr (.inl rfl))
    | beside move =>
      rw [Beat.Happens, hmove] at hhappens
      obtain ⟨_, _, world, _, _, hafter⟩ := of_move?_beside hhappens
      rw [hafter]
      exact .inr hbefore

/-- A request for shutdown that has returned has lowered the signal. -/
theorem Beat.Happens.lowered (h : beat.Happens build pacing me) {name : Thread}
    (hrequest : beat.move = .beside (.call name .requestShutdown)) :
    beat.after.world.lock.keepAlive.isSet = false := by
  rw [Beat.Happens, hrequest] at h
  obtain ⟨_, _, world, events, hmove, hafter⟩ := of_move?_beside h
  have hcall : beat.before.world.call? build name .requestShutdown = some (world, events) := hmove
  obtain ⟨effect, rule, _, rfl, _⟩ := World.exists_rule_of_call? rfl hcall
  obtain rfl := rule.of_request
  rw [hafter, World.lock_after, ThreadState.lock_answer, Lock.lock_requestShutdown]
  rfl

/-- When the loop is over the counters of the machine stay as they are. -/
theorem Course.counters_of_isOver (course : Course build pacing me first beats last)
    (hwork : first.IsAtWork build me) (hover : first.stage.isOver = true) :
    last.world.lock.value.frame = first.world.lock.value.frame ∧
      last.world.lock.value.cycles = first.world.lock.value.cycles := by
  induction course with
  | nil => exact ⟨rfl, rfl⟩
  | @snoc beats beat course hhappens ih =>
    have hbefore := course.isOver hwork hover
    cases hmove : beat.move with
    | loop =>
      rw [Beat.Happens, hmove] at hhappens
      have hstride := stride hhappens (course.isAtWork hwork).loopsAt
      rwa [hstride.value_eq (isInFrame_of_isOut (MachineLoop.isOut_of_isOver hbefore))]
    | launch =>
      rw [Beat.Happens, hmove] at hhappens
      rwa [(of_move?_launch hhappens).2]
    | beside move =>
      rw [Beat.Happens, hmove] at hhappens
      obtain ⟨_, hspares, world, events, hmade, hafter⟩ := of_move?_beside hhappens
      obtain ⟨hframe, hcycles⟩ := counters_of_spared hmade hspares
      rw [hafter]
      exact ⟨hframe.trans ih.1, hcycles.trans ih.2⟩

/-- When the loop returns, its session has given up the lock, and the teardown has been entered once
in the course. -/
theorem Course.ended_of_returns (course : Course build pacing me first (beats ++ [beat]) last)
    (hnew : first.world.IsNew) (hwork : first.IsAtWork build me) (hreturns : beat.Returns) :
    (last.self me).session = some { phase := .terminated, holds := false } ∧
      last.world.lock.mutex.depth me = (last.self me).guards ∧
      last.world.lock.terminated.isSet = true ∧
      enteredIn ((beats ++ [beat]).filterMap (Beat.turn? build pacing me)) =
        first.world.lock.teardown.toList := by
  have hrun := course.run
  obtain ⟨hearlier, hhappens, rfl⟩ := course.of_snoc
  obtain ⟨_, hleaves⟩ := hhappens.leaves (hearlier.isAtWork hwork) hreturns
  have hstage : (beat.after.self me).endStage = some .complete := by
    rw [ThreadState.endStage, hleaves.session, hleaves.idle]
    rfl
  refine ⟨hleaves.session, ?_, hleaves.terminated, ?_⟩
  · have hnone := ThreadState.holdsNoLevel_of_some hleaves.session rfl
    exact ((course.isAtWork hwork).reachable.fits me).depth.trans
      (ThreadState.levels_of_holdsNoLevel hnone)
  · exact ((hrun.endsWell hnew).threads me .complete hstage).1

end

end Plant

open Plant in
/-- Wherever the loop and the other threads are when a request for shutdown returns, the loop begins
at most one frame afterwards, and one exactly if it had not been entered or was told to go on
before: it is not held up before it, and has begun it as soon as it goes on. When the loop returns
its session has given up the lock and the teardown has been entered, once; the machine's counters
are then what they will be. -/
theorem machine_stops_within_one_frame {build : Build} {pacing : Pacing} {me : Thread}
    {first last : Plant} {beats : List Plant.Beat} (hnew : first.world.IsNew)
    (hstage : first.stage = .starting) (course : Course build pacing me first beats last) :
    (∀ earlier request later name, beats = earlier ++ request :: later →
      request.move = .beside (.call name .requestShutdown) →
      later.countP Plant.Beat.beginsFrame ≤ 1 ∧
      (request.after.stage = .starting ∨ request.after.stage = .loading →
        (∃ beat ∈ later, beat.Returns) ∨
          last.stage ≠ .starting ∧ last.stage ≠ .loading ∧ last.stage ≠ .ended →
        later.countP Plant.Beat.beginsFrame = 1)) ∧
    (last.stage = .loading → ∃ next, last.loop? build pacing me = some next) ∧
    (∀ earlier returning later, beats = earlier ++ returning :: later → returning.Returns →
      (returning.after.self me).session = some { phase := .terminated, holds := false } ∧
      returning.after.world.lock.mutex.depth me = (returning.after.self me).guards ∧
      returning.after.world.lock.terminated.isSet = true ∧
      enteredIn ((earlier ++ [returning]).filterMap (Plant.Beat.turn? build pacing me)) =
        first.world.lock.teardown.toList ∧
      last.world.lock.value.frame = returning.after.world.lock.value.frame ∧
      last.world.lock.value.cycles = returning.after.world.lock.value.cycles) := by
  have hwork : first.IsAtWork build me := ⟨Run.nil.reachable hnew, by rw [hstage]; trivial⟩
  refine ⟨?_, (course.isAtWork hwork).exists_loop?_of_loading, ?_⟩
  · rintro earlier request later name rfl hrequest
    rw [List.append_cons] at course
    obtain ⟨middle, hearlier, hlater⟩ := course.split
    have hmiddle := hearlier.isAtWork hwork
    obtain ⟨_, hhappens, rfl⟩ := hearlier.of_snoc
    have hmost := hlater.begins_le hmiddle (hhappens.lowered hrequest)
    have hone : later.countP Plant.Beat.beginsFrame ≤ 1 := by
      have hmay := Bool.toNat_le (request.after.mayBegin me)
      omega
    refine ⟨hone, fun hstarting hbegun ↦ Nat.le_antisymm hone ?_⟩
    obtain ⟨beat, hmem, hreturns⟩ | ⟨hne, hne', hne''⟩ := hbegun
    · obtain ⟨before, hpart, hbefore, hbeat⟩ := hlater.exists_of_mem hmem
      have hstands := (hbeat.leaves (hbefore.isAtWork hmiddle) hreturns).2.stage
      apply Nat.lt_of_lt_of_le _ (hpart.sublist.countP_le)
      obtain hpos | hother := hbefore.begun_or hmiddle hstarting
      · exact hpos
      · obtain ⟨⟨_, hstands⟩, _⟩ | ⟨hstands, _⟩ := hstands
        all_goals
          rw [hstands] at hother
          obtain hother | hother | hother := hother <;> cases hother
    · obtain hpos | hother | hother | hother := hlater.begun_or hmiddle hstarting
      · exact hpos
      · exact absurd hother hne
      · exact absurd hother hne'
      · exact absurd hother hne''
  · rintro earlier returning later rfl hreturns
    rw [List.append_cons] at course
    obtain ⟨middle, hearlier, hlater⟩ := course.split
    obtain ⟨hsession, hdepth, hterminated, hentered⟩ :=
      hearlier.ended_of_returns hnew hwork hreturns
    have hmiddle := hearlier.isAtWork hwork
    obtain ⟨_, _, rfl⟩ := hearlier.of_snoc
    have hover : returning.after.stage.isOver = true := by rw [hreturns.2]; rfl
    exact ⟨hsession, hdepth, hterminated, hentered, hlater.counters_of_isOver hmiddle hover⟩

open Plant in
/-- A worker that is asked to stop before it has become the worker executes one frame, and when it
has returned the note that was left for its end is entered. -/
theorem machine_stops_after_first_frame :
    ∃ (pacing : Pacing) (first last : Plant) (earlier later : List Plant.Beat)
      (request returning : Plant.Beat),
      first.world.IsNew ∧ first.stage = .starting ∧
      Course .checked pacing "worker" first (earlier ++ request :: (later ++ [returning])) last ∧
      request.move = .beside (.call "main" .requestShutdown) ∧ request.after.stage = .starting ∧
      returning.Returns ∧ (later ++ [returning]).countP Plant.Beat.beginsFrame = 1 ∧
      last.world.lock.mutex.depth "worker" = 0 ∧
      enteredIn ((earlier ++ request :: (later ++ [returning])).filterMap
        (Plant.Beat.turn? .checked pacing "worker")) = [.note "done"] := by
  let pacing : Pacing := ⟨.zero, 0, .zero⟩
  let start : World Machine := { lock := (Lock.standard .checked {}).withTeardown (.note "done") }
  have hplay : ∃ spawned ∈ Plant.course? .checked pacing "worker" { world := start }
        [.beside (.call "main" (.spawn "worker"))],
      ∃ asked ∈ spawned.2.move? .checked pacing "worker" (.beside (.call "main" .requestShutdown)),
      ∃ played ∈ Plant.course? .checked pacing "worker" asked (List.replicate 14 .loop),
      ∃ last ∈ played.2.move? .checked pacing "worker" .loop,
        asked.stage = .starting ∧ played.2.stage = .closing .frame ∧ last.stage = .leaving none ∧
        (last.world.thread "worker").guards = 0 := by
    decide +kernel
  obtain ⟨⟨earlier, idle⟩, hearlier, asked, hasked, ⟨later, middle⟩, hlater, last, hlast, hstarting,
    hclosing, hleaving, hguards⟩ := hplay
  let first : Plant := { world := start }
  let request : Plant.Beat := ⟨idle, .beside (.call "main" .requestShutdown), asked⟩
  let returning : Plant.Beat := ⟨middle, .loop, last⟩
  have hnew : first.world.IsNew :=
    ⟨.withTeardown _ (.standard .checked ({} : Machine)), rfl⟩
  have hreturns : returning.Returns := ⟨by rw [hclosing]; nofun, hleaving⟩
  have hbefore : Course .checked pacing "worker" first earlier request.before :=
    course_of_course? hearlier
  have hafter : Course .checked pacing "worker" request.after later returning.before :=
    course_of_course? hlater
  have course : Course .checked pacing "worker" first
      (earlier ++ request :: (later ++ [returning])) last := by
    rw [List.append_cons]
    exact (hbefore.snoc hasked).append (hafter.snoc hlast)
  obtain ⟨hrequest, _, hreturned⟩ := machine_stops_within_one_frame hnew rfl course
  have hone := (hrequest earlier request _ "main" rfl rfl).2 (.inl hstarting)
    (.inl ⟨returning, List.mem_append_right _ (List.mem_singleton_self _), hreturns⟩)
  obtain ⟨_, hdepth, _, hentered, _⟩ :=
    hreturned (earlier ++ request :: later) returning [] (by simp) hreturns
  rw [List.append_assoc, List.cons_append] at hentered
  exact ⟨pacing, first, last, earlier, later, request, returning, hnew, rfl, course, rfl, hstarting,
    hreturns, hone, hdepth.trans hguards, hentered⟩

end Demo

end YieldLock
