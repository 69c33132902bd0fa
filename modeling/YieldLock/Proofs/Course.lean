import YieldLock.Proofs.Pace

/-!
# Courses of a plant

A course is all that happens in a plant from some moment on: steps of the loop and
moves that the loop has no part in, in any order. It is a run of the plant's world
in which the turns of the loop's thread are known. Main statements: `Course.run`,
and `Plant.leaves_of_loop?`, what is so when the loop returns.
-/

namespace YieldLock

variable {σ : Type}

/-- Calls that reach for the guarded value. -/
def Call.touches : Call σ → Bool
  | .read _ | .write _ _ => true
  | _ => false

def Move.touches : Move σ → Bool
  | .call _ asked => asked.touches
  | _ => false

/-- A call that ends its session is answered with an exit when the end has been announced. -/
theorem ThreadState.Rule.ended_of_exit {build : Build} {now : Nat} {me : Thread} {lock : Lock σ}
    {self : ThreadState σ} {effect : Effect σ} {call : Call σ}
    (rule : Rule build now me lock self none effect)
    (hcall : call = .closeWindow ∨ call = .yieldNow) (hends : self.Ends call)
    (hsound : self.IsSound) (hanswers : effect.answers = [.flow .exit]) :
    effect.self.session = some { phase := .terminated, holds := false } ∧
      effect.lock.terminated.isSet = true := by
  obtain ⟨point, hpoint, hbusy⟩ := hends
  have hfails (panic : Panic) : call.failure panic = .panicked panic := by
    obtain rfl | rfl := hcall <;> rfl
  cases rule with
  | park | giveUp | dispose | disposeNone => cases hanswers
  | giveUpNested hstands =>
    cases hbusy.symm.trans hstands
    rw [answers_fail, hfails] at hanswers
    cases hanswers
  | tearDown =>
    rw [Effect.answers_tornDown, Effect.answers_entries] at hanswers
    cases hanswers
  | tearDownFailed hstands =>
    cases hbusy.symm.trans hstands
    rw [Effect.answers_tornDown, answers_fail, hfails] at hanswers
    cases hanswers
  | mark hstands =>
    cases hbusy.symm.trans hstands
    have hended := hsound.ended_of_followsGiveUp (by rw [hbusy]; rfl)
    obtain rfl | rfl := hcall <;> exact ⟨hended, rfl⟩
  | _ hstands =>
    cases hbusy.symm.trans hstands
    cases hpoint

namespace Demo

namespace MachineLoop

section

variable (build : Build) (pacing : Pacing) (machine : Machine)

theorem answered_loading :
    answered build pacing .loading (.value machine) =
      afterSum .addingCycles (machine.addCycles build) := rfl

theorem answered_counting :
    answered build pacing .counting (.value machine) =
      afterSum .addingFrame (machine.countFrame build) := rfl

theorem answered_looking :
    answered build pacing .looking (.value machine) =
      if pacing.isHostFrame machine.frame then .announcing machine.frame
      else .opening .frame := rfl

/-- From the machine that it has loaded the loop goes on in the frame or to what comes after it, or
it panics. -/
theorem exists_of_computed {stage : Stage}
    (hstage : stage = .loading ∨ stage = .counting ∨ stage = .looking) :
    (∃ draft, answered build pacing stage (.value machine) = .addingCycles draft) ∨
      (∃ draft, answered build pacing stage (.value machine) = .addingFrame draft) ∨
      (∃ frame, answered build pacing stage (.value machine) = .announcing frame) ∨
      answered build pacing stage (.value machine) = .opening .frame ∨
      ∃ panic, answered build pacing stage (.value machine) = .leaving (some panic) := by
  obtain rfl | rfl | rfl := hstage
  · rw [answered_loading]
    cases machine.addCycles build with
    | ok draft => exact .inl ⟨draft, rfl⟩
    | error panic => exact .inr (.inr (.inr (.inr ⟨panic, rfl⟩)))
  · rw [answered_counting]
    cases machine.countFrame build with
    | ok draft => exact .inr (.inl ⟨draft, rfl⟩)
    | error panic => exact .inr (.inr (.inr (.inr ⟨panic, rfl⟩)))
  · rw [answered_looking]
    split
    · exact .inr (.inr (.inl ⟨_, rfl⟩))
    · exact .inr (.inr (.inr (.inl rfl)))

end

end MachineLoop

namespace Plant

/-- The move by which the loop's thread goes on, if it does not go on beside the lock. -/
def moveOfLoop? (pacing : Pacing) (me : Thread) (plant : Plant) :
    Option (YieldLock.Move Machine) :=
  match (plant.self me).activity, MachineLoop.action pacing plant.stage with
  | .busy _ _, _ => some (.step me)
  | .idle, .call call => some (.call me call)
  | _, _ => none

/-- The world has come from a new one, and the thread has what the stage stands for. -/
structure IsAtWork (build : Build) (me : Thread) (plant : Plant) : Prop where
  reachable : YieldLock.Reachable build plant.world
  loopsAt : LoopsAt (plant.self me) plant.stage

/-- The loop returns: its session has ended, and the end has been announced. -/
structure Leaves (me : Thread) (plant next : Plant) : Prop where
  stage : (∃ window, plant.stage = .closing window) ∧ (plant.self me).Ends .closeWindow ∨
    plant.stage = .yielding ∧ (plant.self me).Ends .yieldNow
  keeps : plant.Keeps next
  session : (next.self me).session = some { phase := .terminated, holds := false }
  idle : (next.self me).activity = .idle
  terminated : next.world.lock.terminated.isSet = true

section

variable {build : Build} {pacing : Pacing} {me : Thread} {plant next : Plant}

/-- A step of the loop is a move of its thread, or it leaves the world as it is. -/
theorem move?_of_loop? (h : plant.loop? build pacing me = some next) :
    plant.moveOfLoop? pacing me = none ∧ next.world = plant.world ∨
      ∃ move events, plant.moveOfLoop? pacing me = some move ∧ move.thread? = some me ∧
        plant.world.move? build move = some (next.world, events) := by
  obtain ⟨_, deed, hdeed, hworld, _⟩ := exists_deed_of_loop? h
  rw [hworld]
  unfold moveOfLoop? self
  cases hactivity : (plant.world.thread me).activity with
  | finished outcome =>
    rw [perform?_of_finished hactivity] at hdeed
    cases hdeed
  | busy call point =>
    rw [perform?_of_busy hactivity] at hdeed
    obtain ⟨⟨after, events⟩, hstep, rfl⟩ := Option.map_eq_some_iff.mp hdeed
    exact .inr ⟨.step me, events, rfl, rfl, hstep⟩
  | idle =>
    cases haction : MachineLoop.action pacing plant.stage with
    | call call =>
      rw [haction, perform?_of_call hactivity] at hdeed
      obtain ⟨⟨after, events⟩, hcall, rfl⟩ := Option.map_eq_some_iff.mp hdeed
      exact .inr ⟨.call me call, events, rfl, rfl, hcall⟩
    | log | rest =>
      rw [haction] at hdeed
      simp only [perform?, hactivity] at hdeed
      cases hdeed
      exact .inl ⟨rfl, rfl⟩
    | send | receive =>
      -- The loop has nothing to do with a channel.
      cases hstage : plant.stage <;> rw [hstage] at haction <;> cases haction
    | idle =>
      rw [haction] at hdeed
      simp only [perform?, hactivity] at hdeed
      cases hdeed

theorem of_move?_launch (h : plant.move? build pacing me .launch = some next) :
    plant.stage = .starting ∧ next = { plant with stage := .loading } := by
  unfold move? at h
  simp only [Bool.and_eq_true, decide_eq_true_eq] at h
  split at h
  · rename_i hlaunch
    exact ⟨hlaunch.1.1, (Option.some_inj.mp h).symm⟩
  · cases h

theorem of_move?_beside {move : YieldLock.Move Machine}
    (h : plant.move? build pacing me (.beside move) = some next) :
    (move.thread? ≠ some me ∨ plant.stage.isOut = true) ∧
      sparesCounters plant.world.lock.value move = true ∧
      ∃ world events, plant.world.move? build move = some (world, events) ∧
        next = { plant with world } := by
  unfold move? at h
  simp only [Bool.and_eq_true, Bool.or_eq_true, decide_eq_true_eq] at h
  split at h
  · rename_i hfree
    obtain ⟨⟨world, events⟩, hmove, rfl⟩ := Option.map_eq_some_iff.mp h
    exact ⟨hfree.1, hfree.2, world, events, hmove, rfl⟩
  · cases h

theorem IsAtWork.sound (h : plant.IsAtWork build me) : (plant.self me).IsSound :=
  (h.reachable.fits me).sound

/-- In the loop the thread has a session. -/
theorem IsAtWork.session_isSome (h : plant.IsAtWork build me) (hstage : plant.stage.isOut = false) :
    (plant.self me).session.isSome = true := by
  have hends {call : Call Machine} (hends : (plant.self me).Ends call) :
      (plant.self me).session.isSome = true := by
    obtain ⟨point, hpoint, hbusy⟩ := hends
    have hplace := h.sound.place _ _ hbusy
    cases point with
    | lowering =>
      obtain ⟨_, session, hsession, _⟩ := hplace
      rw [hsession]
      rfl
    | disposing | tearingDown | marking =>
      rw [hplace.2]
      rfl
    | _ => cases hpoint
  have hloops := h.loopsAt
  cases hcase : plant.stage with
  | starting | leaving | ended =>
    rw [hcase] at hstage
    cases hstage
  | closing =>
    rw [hcase] at hloops
    obtain hrests | hbusy | hends' := hloops
    · rw [hrests.2]
      rfl
    · rw [(h.sound.place _ _ hbusy).2]
      rfl
    · exact hends hends'
  | yielding =>
    rw [hcase] at hloops
    obtain hruns | hpolls | hgiven | hends' := hloops
    · rw [hruns.2]
      rfl
    · rw [hpolls.1]
      rfl
    · rw [hgiven.1]
      rfl
    · exact hends hends'
  | _ =>
    rw [hcase] at hloops
    rw [hloops.2]
    rfl

/-- In the loop the thread is the worker. -/
theorem IsAtWork.worker_eq (h : plant.IsAtWork build me) (hstage : plant.stage.isOut = false) :
    plant.world.lock.worker = some me :=
  (h.reachable.fits me).worker (h.session_isSome hstage)

/-- A move that the loop has no part in leaves its thread as it was. -/
theorem IsAtWork.self_of_others (h : plant.IsAtWork build me) (hstage : plant.stage.isOut = false)
    {move : YieldLock.Move Machine} {world : World Machine} {events : List (Event Machine)}
    (hmove : plant.world.move? build move = some (world, events))
    (hother : move.thread? ≠ some me) : world.thread me = plant.self me :=
  (World.change_of_move? hmove).thread_of_ne (h.loopsAt.ne_default hstage) hother

theorem IsAtWork.happens (h : plant.IsAtWork build me)
    (hhappens : Happens build pacing me plant next) : next.IsAtWork build me where
  reachable := hhappens.reachable h.reachable
  loopsAt := hhappens.loopsAt h.reachable h.loopsAt

/-- A loop that is over stays so. -/
theorem Stride.isOver (h : Stride build pacing me plant next)
    (hover : plant.stage.isOver = true) : next.stage.isOver = true := by
  cases h with
  | leave hstage hcall hsteps =>
    obtain ⟨_, hnext | hnext⟩ := hsteps.of_leaving hstage hcall
    all_goals
      rw [hnext]
      rfl
  | compute hstage =>
    obtain hstage | hstage | hstage := hstage
    all_goals
      rw [hstage] at hover
      cases hover
  | store _ hstage =>
    obtain ⟨hstage, _⟩ | ⟨hstage, _⟩ := hstage
    all_goals
      rw [hstage] at hover
      cases hover
  | exit hstage =>
    obtain ⟨_, _, hstage⟩ | ⟨_, hstage⟩ := hstage
    all_goals
      rw [hstage] at hover
      cases hover
  | fail _ hstage =>
    obtain ⟨_, hstage | hstage⟩ | hstage := hstage
    all_goals
      rw [hstage] at hover
      cases hover
  | _ hstage =>
    rw [hstage] at hover
    cases hover

theorem Happens.isOver (h : Happens build pacing me plant next) (hwork : plant.IsAtWork build me)
    (hover : plant.stage.isOver = true) : next.stage.isOver = true := by
  cases h with
  | loop hloop => exact (stride hloop hwork.loopsAt).isOver hover
  | launch hstage =>
    rw [hstage] at hover
    cases hover
  | beside => exact hover

theorem leaves_of_loop? (h : plant.loop? build pacing me = some next)
    (hwork : plant.IsAtWork build me) (hbefore : plant.stage ≠ .leaving none)
    (hnext : next.stage = .leaving none) : Leaves me plant next := by
  cases stride h hwork.loopsAt with
  | start hstage hstarts hsteps =>
    obtain ⟨hother, _⟩ | ⟨hother, _⟩ | ⟨hother, _⟩ :=
      hsteps.of_starting hwork.sound hstage hstarts
    all_goals cases hother.symm.trans hnext
  | compute hstage _ _ hother =>
    rw [hnext] at hother
    obtain ⟨_, hcomputed⟩ | ⟨_, hcomputed⟩ | ⟨_, hcomputed⟩ | hcomputed | ⟨_, hcomputed⟩ :=
      MachineLoop.exists_of_computed build pacing plant.world.lock.value hstage
    all_goals cases hother.trans hcomputed
  | store _ hstage =>
    obtain ⟨_, hother⟩ | ⟨_, hother⟩ := hstage
    all_goals cases hother.symm.trans hnext
  | announce _ _ _ hother | openWindow _ _ _ hother | rest _ _ _ hother | approach _ _ _ _ hother
  | beginYield _ _ _ _ _ hother | handOver _ _ _ _ _ hother | await _ _ _ _ hother
  | proceed _ _ _ _ hother | fail _ _ _ _ _ _ hother => cases hother.symm.trans hnext
  | @closeWindow window _ _ _ _ hother =>
    obtain ⟨hother, _⟩ | ⟨hother, _⟩ := hother
    · cases window <;> cases hother.symm.trans hnext
    · cases hother.symm.trans hnext
  | leave hstage hcall hsteps =>
    obtain ⟨_, hother | hother⟩ := hsteps.of_leaving hstage hcall
    · rw [hstage, ← hother] at hbefore
      exact absurd hnext hbefore
    · cases hother.symm.trans hnext
  | @exit call hstage hends hkept hother =>
    have hidle : (next.self me).activity = .idle := by
      obtain ⟨hother, _⟩ | ⟨_, hidle⟩ := hother
      · exact absurd (hother.symm.trans hnext) hbefore
      · exact hidle
    obtain ⟨_, _, hbusy⟩ := id hends
    obtain ⟨effect, hsteps⟩ := steps_of_busy h hbusy
    have hcall : call = .closeWindow ∨ call = .yieldNow := hstage.imp And.left And.left
    -- A step that shows nothing keeps the stage, and a panic takes the loop to another one.
    have hanswers : effect.answers = [.flow .exit] := by
      obtain ⟨_, ⟨hnone, _⟩ | hanswers | ⟨panic, hpanics, _⟩⟩ := hsteps.rule.of_ends hcall hends
      · exact absurd ((hsteps.stage_of_none hnone).symm.trans hnext) hbefore
      · exact hanswers
      · have hother := hsteps.stage_of_answer hpanics
        rw [hnext] at hother
        obtain ⟨_, window, hstage⟩ | ⟨_, hstage⟩ := hstage
        all_goals
          rw [hstage] at hother
          cases hother
    obtain ⟨hsession, hterminated⟩ := hsteps.rule.ended_of_exit hcall hends hwork.sound hanswers
    refine ⟨?_, hkept, by rw [hsteps.self_eq, hsession], hidle, by rw [hsteps.lock_eq, hterminated]⟩
    obtain ⟨rfl, hstage⟩ | ⟨rfl, hstage⟩ := hstage
    · exact .inl ⟨hstage, hends⟩
    · exact .inr ⟨hstage, hends⟩

end

/-- One thing that happens in a plant, with the plant before and after it. -/
structure Beat where
  before : Plant
  move : Move
  after : Plant
  deriving DecidableEq, Repr

namespace Beat

def Happens (build : Build) (pacing : Pacing) (me : Thread) (beat : Beat) : Prop :=
  beat.before.move? build pacing me beat.move = some beat.after

/-- The loop begins a frame. -/
def beginsFrame (beat : Beat) : Bool := beat.move = .loop && beat.before.stage = .loading

/-- The loop has executed a frame. -/
def endsFrame (beat : Beat) : Bool :=
  match beat.move, beat.before.stage with
  | .loop, .addingFrame _ => true
  | _, _ => false

/-- The loop reaches for the machine. -/
def touches (pacing : Pacing) (me : Thread) (beat : Beat) : Bool :=
  match beat.move with
  | .loop => (beat.before.moveOfLoop? pacing me).any YieldLock.Move.touches
  | _ => false

/-- The loop returns, since it was told to exit. -/
def Returns (beat : Beat) : Prop :=
  beat.before.stage ≠ .leaving none ∧ beat.after.stage = .leaving none

/-- The move that is made in the world, if one is. -/
def worldMove? (pacing : Pacing) (me : Thread) (beat : Beat) :
    Option (YieldLock.Move Machine) :=
  match beat.move with
  | .loop => beat.before.moveOfLoop? pacing me
  | .launch => none
  | .beside move => some move

/-- The turn of the world in what happens, if there is one. -/
def turn? (build : Build) (pacing : Pacing) (me : Thread) (beat : Beat) : Option (Turn Machine) :=
  (beat.worldMove? pacing me).bind (beat.before.world.turn? build)

end Beat

/-- A course of a plant, with all that has happened in it. -/
inductive Course (build : Build) (pacing : Pacing) (me : Thread) (first : Plant) :
    List Beat → Plant → Prop where
  | nil : Course build pacing me first [] first
  | snoc {beats : List Beat} {beat : Beat} (course : Course build pacing me first beats beat.before)
      (hhappens : beat.Happens build pacing me) :
      Course build pacing me first (beats ++ [beat]) beat.after

/-- Lets things happen one after the other if each can, and tells what has happened. -/
def course? (build : Build) (pacing : Pacing) (me : Thread) (plant : Plant) :
    List Move → Option (List Beat × Plant)
  | [] => some ([], plant)
  | move :: moves =>
    (plant.move? build pacing me move).bind fun next ↦
      (next.course? build pacing me moves).map fun (beats, last) ↦
        (⟨plant, move, next⟩ :: beats, last)

section

variable {build : Build} {pacing : Pacing} {me : Thread} {first middle last : Plant}
  {beats others : List Beat} {beat : Beat}

theorem Beat.countP_singleton (kind : Beat → Bool) (beat : Beat) :
    [beat].countP kind = (kind beat).toNat := by
  rw [List.countP_singleton]
  cases kind beat <;> rfl

/-- The loop returns by a step of its own. -/
theorem Beat.Happens.leaves (h : beat.Happens build pacing me)
    (hwork : beat.before.IsAtWork build me) (hreturns : beat.Returns) :
    beat.move = .loop ∧ Leaves me beat.before beat.after := by
  obtain ⟨before, move, after⟩ := beat
  obtain ⟨hbefore, hnext⟩ := hreturns
  cases move with
  | loop => exact ⟨rfl, leaves_of_loop? h hwork hbefore hnext⟩
  | launch =>
    obtain ⟨_, hafter⟩ := of_move?_launch h
    cases (congrArg Plant.stage hafter).symm.trans hnext
  | beside move =>
    obtain ⟨_, _, world, _, _, hafter⟩ := of_move?_beside h
    exact absurd ((congrArg Plant.stage hafter).symm.trans hnext) hbefore

/-- What happens is a turn of the world, or it leaves the world as it is. -/
theorem Beat.Happens.turn? (h : beat.Happens build pacing me) :
    beat.turn? build pacing me = none ∧ beat.after.world = beat.before.world ∨
      ∃ turn, beat.turn? build pacing me = some turn ∧ turn.before = beat.before.world ∧
        turn.after = beat.after.world ∧ turn.IsMove build := by
  have hmade {move : YieldLock.Move Machine} {events : List (Event Machine)}
      (hsome : beat.worldMove? pacing me = some move)
      (hmove : beat.before.world.move? build move = some (beat.after.world, events)) :
      ∃ turn, beat.turn? build pacing me = some turn ∧ turn.before = beat.before.world ∧
        turn.after = beat.after.world ∧ turn.IsMove build := by
    refine ⟨⟨beat.before.world, move, beat.after.world, events⟩, ?_, rfl, rfl, hmove⟩
    rw [Beat.turn?, hsome, Option.bind_some, World.turn?, hmove]
    rfl
  obtain ⟨before, move, after⟩ := beat
  cases move with
  | loop =>
    obtain ⟨hnone, hworld⟩ | ⟨move, events, hsome, _, hmove⟩ := move?_of_loop? h
    · refine .inl ⟨?_, hworld⟩
      rw [Beat.turn?, show Beat.worldMove? pacing me ⟨before, .loop, after⟩ = none from hnone]
      rfl
    · exact .inr (hmade hsome hmove)
  | launch =>
    have hafter : after = { before with stage := .loading } := (of_move?_launch h).2
    subst hafter
    exact .inl ⟨rfl, rfl⟩
  | beside move =>
    obtain ⟨_, _, world, events, hmove, hnext⟩ := of_move?_beside h
    have hafter : after = { before with world } := hnext
    subst hafter
    exact .inr (hmade rfl hmove)

theorem Course.append (course : Course build pacing me first beats middle)
    (more : Course build pacing me middle others last) :
    Course build pacing me first (beats ++ others) last := by
  induction more with
  | nil => rwa [List.append_nil]
  | snoc more hhappens ih =>
    rw [← List.append_assoc]
    exact .snoc ih hhappens

/-- A course ends with the last thing that has happened in it. -/
theorem Course.of_snoc (course : Course build pacing me first (beats ++ [beat]) last) :
    Course build pacing me first beats beat.before ∧ beat.Happens build pacing me ∧
      last = beat.after := by
  generalize hall : beats ++ [beat] = all at course
  cases course with
  | nil => simp at hall
  | snoc course hhappens =>
    obtain ⟨rfl, hlast⟩ := List.append_inj' hall rfl
    obtain rfl := List.singleton_inj.mp hlast
    exact ⟨course, hhappens, rfl⟩

/-- A course is two courses, one after the other. -/
theorem Course.split (course : Course build pacing me first (beats ++ others) last) :
    ∃ middle, Course build pacing me first beats middle ∧
      Course build pacing me middle others last := by
  induction others using List.reverseRecOn generalizing last with
  | nil =>
    rw [List.append_nil] at course
    exact ⟨last, course, .nil⟩
  | append_singleton others beat ih =>
    rw [← List.append_assoc] at course
    obtain ⟨hearlier, hhappens, rfl⟩ := course.of_snoc
    obtain ⟨middle, hfirst, hlater⟩ := ih hearlier
    exact ⟨middle, hfirst, .snoc hlater hhappens⟩

theorem course_of_course? {moves : List Move}
    (h : first.course? build pacing me moves = some (beats, last)) :
    Course build pacing me first beats last := by
  induction moves generalizing first beats with
  | nil =>
    cases h
    exact .nil
  | cons move moves ih =>
    obtain ⟨next, hmove, hlater⟩ := Option.bind_eq_some_iff.mp h
    obtain ⟨⟨beats, final⟩, hcourse, hlast⟩ := Option.map_eq_some_iff.mp hlater
    cases hlast
    let beat : Beat := ⟨first, move, next⟩
    have hhappens : beat.Happens build pacing me := hmove
    exact (Course.snoc .nil hhappens).append (ih hcourse)

theorem Course.isAtWork (course : Course build pacing me first beats last)
    (hwork : first.IsAtWork build me) : last.IsAtWork build me := by
  induction course with
  | nil => exact hwork
  | snoc _ hhappens ih => exact ih.happens (happens_of_move? hhappens)

/-- A loop that is over stays so in a course. -/
theorem Course.isOver (course : Course build pacing me first beats last)
    (hwork : first.IsAtWork build me) (hover : first.stage.isOver = true) :
    last.stage.isOver = true := by
  induction course with
  | nil => exact hover
  | snoc course hhappens ih =>
    exact (happens_of_move? hhappens).isOver (course.isAtWork hwork) ih

/-- All that happens in a course happens in a plant that a part of the course leads to. -/
theorem Course.exists_of_mem (course : Course build pacing me first beats last)
    (hmem : beat ∈ beats) :
    ∃ earlier, earlier <+: beats ∧ Course build pacing me first earlier beat.before ∧
      beat.Happens build pacing me := by
  induction course with
  | nil => cases hmem
  | @snoc beats latest course hhappens ih =>
    rw [List.mem_append, List.mem_singleton] at hmem
    obtain hmem | rfl := hmem
    · obtain ⟨earlier, hearlier, hcourse⟩ := ih hmem
      exact ⟨earlier, hearlier.trans (List.prefix_append beats [latest]), hcourse⟩
    · exact ⟨beats, List.prefix_append beats [beat], course, hhappens⟩

/-- The turns of the world in a course are a run. -/
theorem Course.run (course : Course build pacing me first beats last) :
    YieldLock.Run build first.world (beats.filterMap (Beat.turn? build pacing me)) last.world := by
  induction course with
  | nil => exact .nil
  | @snoc beats beat _ hhappens ih =>
    rw [List.filterMap_append]
    obtain ⟨hnone, hworld⟩ | ⟨turn, hturn, hbefore, hafter, hmove⟩ := hhappens.turn?
    · rw [List.filterMap_cons_none hnone, List.filterMap_nil, List.append_nil, hworld]
      exact ih
    · rw [List.filterMap_cons_some hturn, List.filterMap_nil, ← hafter]
      rw [← hbefore] at ih
      exact .snoc ih hmove

end

end Plant

end Demo

end YieldLock
