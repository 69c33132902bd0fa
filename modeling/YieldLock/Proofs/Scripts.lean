import Mathlib.Data.List.Nodup
import YieldLock.Proofs.Builds
import YieldLock.Script.Run

/-!
# Scripts in the two builds

A step of a script lets all threads move in a fixed order until none can. What a
move changes of a stage concerns one actor, and an actor that has replied makes
no further move in that step, so every assertion that is raised shows up in the
outcome. Main statements: `Stage.settleWithin_agrees`, `Stage.run_agrees`, and
`builds_agree_on_clean_runs`.
-/

namespace YieldLock.Script

/-- The reply tells that an assertion was raised. -/
def Reply.asserts : Reply → Bool
  | .panicked panic => panic.isAssertion
  | _ => false

def Progress.asserts : Progress → Bool
  | .replied reply _ => reply.asserts
  | _ => false

/-- The outcome of a step tells that an assertion was raised in it, by whatever actor. -/
def Outcome.asserts : Outcome → Bool
  | .report progress woken _ => progress.asserts || woken.any (·.reply.asserts)
  | _ => false

namespace Stage

/-- The stages differ in what is remembered of one actor at most, and there may be one more reply,
after which that actor has no further call to make. -/
structure Hears (actor : Thread) (stage after : Stage) : Prop where
  world : after.world = stage.world
  others : ∀ other, other ≠ actor → after.actors.get other = stage.actors.get other
  replies : after.replies = stage.replies ∨
    ∃ woken, woken.actor = actor ∧ after.replies = stage.replies ++ [woken] ∧
      (after.actors.get actor).next = none

section

variable {stage middle after : Stage} {actor : Thread}

theorem Hears.of_quiet (hquiet : Hears actor stage middle)
    (hreplies : middle.replies = stage.replies) (h : Hears actor middle after) :
    Hears actor stage after where
  world := h.world.trans hquiet.world
  others other hne := (h.others other hne).trans (hquiet.others other hne)
  replies := by
    rw [← hreplies]
    exact h.replies

/-- Nothing but what is remembered of the actor changes. -/
theorem hears_set (stage : Stage) (actor : Thread) (entry : Actor) :
    Hears actor stage { stage with actors := stage.actors.set actor entry } where
  world := rfl
  others _ hne := Roster.get_set_of_ne _ _ hne
  replies := .inl rfl

theorem hears_plan (stage : Stage) (actor : Thread) (task : Task) (call : Call Int64) :
    Hears actor stage (stage.plan actor task call) := hears_set ..

theorem hears_setClosure (stage : Stage) (actor : Thread) (isInClosure : Bool) :
    Hears actor stage (stage.setClosure actor isInClosure) := hears_set ..

theorem hears_reply (stage : Stage) (actor : Thread) (reply : Reply) :
    Hears actor stage (stage.reply actor reply) where
  world := rfl
  others _ hne := Roster.get_set_of_ne _ _ hne
  replies := .inr ⟨_, rfl, rfl, by simp [Stage.reply]⟩

theorem hears_closure_reply (stage : Stage) (actor : Thread) (isInClosure : Bool) (reply : Reply) :
    Hears actor stage ((stage.setClosure actor isInClosure).reply actor reply) :=
  (hears_setClosure ..).of_quiet rfl (hears_reply ..)

theorem hears_guardOp (stage : Stage) (actor : Thread) (call : Call Int64) :
    Hears actor stage (stage.guardOp actor call) := by
  unfold guardOp
  split
  · exact hears_plan ..
  · exact hears_reply ..

theorem hears_sessionOp (stage : Stage) (actor : Thread) (session : Session) (isSpawned : Bool)
    (op : Op) : Hears actor stage (stage.sessionOp actor session isSpawned op) := by
  cases op with
  | yieldNow | openWindow | closeWindow | endSession | sharedGet | sharedSet | openClosure =>
    exact hears_plan ..
  | yieldMany count =>
    cases count with
    | zero => exact hears_reply ..
    | succ => exact hears_plan ..
  | dropSession | panicWithSession =>
    cases isSpawned with
    | true => exact hears_reply ..
    | false => exact hears_plan ..
  | _ => exact hears_reply ..

theorem hears_otherOp (stage : Stage) (actor : Thread) (op : Op) :
    Hears actor stage (stage.otherOp actor op) := by
  unfold otherOp
  generalize (stage.actors.get actor).isInClosure = isInClosure
  generalize stage.thread actor = self
  obtain ⟨title, isSpawned, guards, session, handles, activity⟩ := self
  cases isInClosure with
  | true =>
    cases op with
    | closeClosure => exact (hears_setClosure ..).of_quiet rfl (hears_plan ..)
    | panicInClosure => exact hears_closure_reply ..
    | _ => exact hears_reply ..
  | false =>
    cases op with
    | returnFromBody | panicInBody =>
      cases isSpawned with
      | true => exact hears_plan ..
      | false =>
        cases session with
        | none => exact hears_reply ..
        | some => exact hears_sessionOp ..
    | _ =>
      cases session with
      | none => exact hears_reply ..
      | some => exact hears_sessionOp ..

/-- To begin an operation is a matter of its actor alone. -/
theorem hears_begin (stage : Stage) (actor : Thread) (op : Op) :
    Hears actor stage (stage.begin actor op) := by
  unfold begin
  cases op with
  | acquire | tryAcquire | requestShutdown | adopt | spawn => exact hears_plan ..
  | describeGuard | query | describeLock | stats | handle => exact hears_reply ..
  | get | set => exact hears_guardOp ..
  | release index =>
    cases index with
    | none => exact hears_guardOp ..
    | some index =>
      simp only
      split
      · exact hears_plan ..
      · exact hears_reply ..
  | join child =>
    simp only
    split
    · exact hears_plan ..
    · exact hears_reply ..
  | _ => exact hears_otherOp ..

theorem hears_respond (stage : Stage) (actor : Thread) (answer : Answer Int64) :
    Hears actor stage (stage.respond actor answer) := by
  unfold respond
  split
  · split
    · exact hears_reply ..
    · exact hears_plan ..
  · exact hears_reply ..
  · exact hears_closure_reply ..
  · exact hears_reply ..
  · exact hears_reply ..

theorem hears_observe (stage : Stage) (actor : Thread) (event : Event Int64) :
    Hears actor stage (stage.observe actor event) ∧
      (stage.observe actor event).replies = stage.replies := by
  cases event with
  | entry line => exact ⟨hears_set .., rfl⟩
  | tornDown | answered => exact ⟨⟨rfl, fun _ _ ↦ rfl, .inl rfl⟩, rfl⟩

theorem hears_foldl_observe (stage : Stage) (actor : Thread) (events : List (Event Int64)) :
    Hears actor stage (events.foldl (fun stage event ↦ stage.observe actor event) stage) ∧
      (events.foldl (fun stage event ↦ stage.observe actor event) stage).replies =
        stage.replies := by
  induction events generalizing stage with
  | nil => exact ⟨⟨rfl, fun _ _ ↦ rfl, .inl rfl⟩, rfl⟩
  | cons event events ih =>
    obtain ⟨hfirst, hreplies⟩ := hears_observe stage actor event
    obtain ⟨hrest, hkept⟩ := ih (stage.observe actor event)
    exact ⟨hfirst.of_quiet hreplies hrest, hkept.trans hreplies⟩

/-- What a move has shown is heard of its thread only, and there is a reply only to an answer. -/
theorem hears_absorb (stage : Stage) (actor : Thread) (world : World Int64)
    (events : List (Event Int64)) :
    Hears actor { stage with world } (stage.absorb actor world events) ∧
      (events.findSome? Event.answer? = none →
        (stage.absorb actor world events).replies = stage.replies) := by
  obtain ⟨hseen, hreplies⟩ := hears_foldl_observe { stage with world } actor events
  unfold absorb
  simp only
  split
  · rename_i hanswer
    refine ⟨hseen.of_quiet hreplies (hears_respond ..), fun hnone ↦ ?_⟩
    rw [hnone] at hanswer
    cases hanswer
  · exact ⟨hseen, fun _ ↦ hreplies⟩

/-- The actor has a thread that is not inside a call, and no call to make. -/
structure Rests (stage : Stage) (actor : Thread) : Prop where
  known : stage.world.threads.contains actor = true
  away : (stage.thread actor).activity.isBusy = false
  next : (stage.actors.get actor).next = none

/-- Every thread fits the lock, an actor with a call to make has a thread, and every actor that has
replied has done so once and rests. -/
structure IsSound (stage : Stage) : Prop where
  allFit : stage.world.AllFit
  planned : ∀ actor, (stage.actors.get actor).next.isSome = true →
    stage.world.threads.contains actor = true
  nodup : (stage.replies.map Woken.actor).Nodup
  rests : ∀ woken ∈ stage.replies, stage.Rests woken.actor

theorem advance?_of_rests (build : Build) (h : stage.Rests actor) :
    stage.advance? build actor = none := by
  have hstep : stage.world.step? build actor = none := by
    have haway := h.away
    rw [thread] at haway
    unfold World.step?
    cases hactivity : (stage.world.thread actor).activity with
    | busy call point =>
      rw [hactivity] at haway
      cases haway
    | idle | finished =>
      simp only [hactivity, ThreadState.step?]
      rfl
  unfold advance?
  simp only [h.next, hstep]
  rfl

theorem Hears.rests (hears : Hears actor stage after) {other : Thread} (hne : other ≠ actor)
    (h : stage.Rests other) : after.Rests other where
  known := by
    rw [hears.world]
    exact h.known
  away := by
    rw [thread, hears.world]
    exact h.away
  next := by
    rw [hears.others other hne]
    exact h.next

theorem Hears.known_of_planned (hears : Hears actor stage after) (h : stage.IsSound)
    (hknown : stage.world.threads.contains actor = true) {other : Thread}
    (hnext : (after.actors.get other).next.isSome = true) :
    after.world.threads.contains other = true := by
  rw [hears.world]
  by_cases hother : other = actor
  · rw [hother]
    exact hknown
  · rw [hears.others other hother] at hnext
    exact h.planned other hnext

/-- A known actor that rests when it replies leaves the stage sound. -/
theorem IsSound.hears (h : stage.IsSound) (hears : Hears actor stage after)
    (hknown : stage.world.threads.contains actor = true)
    (hactor : ∀ woken ∈ stage.replies, woken.actor ≠ actor)
    (haway : after.replies = stage.replies ∨ (stage.thread actor).activity.isBusy = false) :
    after.IsSound := by
  have hallFit : after.world.AllFit := hears.world ▸ h.allFit
  have hkept : ∀ woken ∈ stage.replies, after.Rests woken.actor :=
    fun woken hmem ↦ hears.rests (hactor woken hmem) (h.rests woken hmem)
  obtain hreplies | ⟨woken, rfl, hreplies, hnext⟩ := hears.replies
  · refine ⟨hallFit, fun _ ↦ hears.known_of_planned h hknown, ?_, ?_⟩
    · rw [hreplies]
      exact h.nodup
    · rw [hreplies]
      exact hkept
  · have hidle : (stage.thread woken.actor).activity.isBusy = false := by
      apply haway.resolve_left
      rw [hreplies]
      simp
    have hrests : after.Rests woken.actor :=
      ⟨hears.world ▸ hknown, by rwa [thread, hears.world], hnext⟩
    refine ⟨hallFit, fun _ ↦ hears.known_of_planned h hknown, ?_, ?_⟩
    · rw [hreplies, List.map_append, List.nodup_append]
      refine ⟨h.nodup, List.nodup_singleton _, fun name hname other hother ↦ ?_⟩
      obtain ⟨earlier, hmem, rfl⟩ := List.mem_map.mp hname
      rw [List.mem_singleton.mp hother]
      exact hactor earlier hmem
    · rw [hreplies]
      intro other hother
      rw [List.mem_append, List.mem_singleton] at hother
      obtain hother | rfl := hother
      · exact hkept other hother
      · exact hrests

section

variable {build : Build} {world : World Int64} {move : Move Int64} {events : List (Event Int64)}

/-- A move that belongs to no actor that has replied leaves those at rest. -/
theorem IsSound.moved (h : stage.IsSound)
    (change : World.Change build stage.world move world events)
    (hothers : ∀ woken ∈ stage.replies, move.thread? ≠ some woken.actor) :
    IsSound { stage with world } where
  allFit := change.allFit h.allFit
  planned other hnext := change.contains_kept (h.planned other hnext)
  nodup := h.nodup
  rests woken hmem := by
    have hrests := h.rests woken hmem
    refine ⟨change.contains_kept hrests.known, ?_, hrests.next⟩
    obtain hkept | ⟨hunknown, _⟩ := change.thread_of_others (hothers woken hmem)
    · rw [thread, hkept]
      exact hrests.away
    · rw [hrests.known] at hunknown
      cases hunknown

theorem IsSound.absorb (h : stage.IsSound)
    (change : World.Change build stage.world move world events)
    (hmine : move.thread? = some actor) (hknown : stage.world.threads.contains actor = true)
    (hactor : ∀ woken ∈ stage.replies, woken.actor ≠ actor) :
    (stage.absorb actor world events).IsSound := by
  have hothers : ∀ woken ∈ stage.replies, move.thread? ≠ some woken.actor := by
    intro woken hmem hsame
    exact hactor woken hmem (Option.some_inj.mp (hsame.symm.trans hmine))
  obtain ⟨hears, hsilent⟩ := hears_absorb stage actor world events
  refine (h.moved change hothers).hears hears (change.contains_kept hknown) hactor ?_
  by_cases hanswers : events.filterMap Event.answer? = []
  · left
    apply hsilent
    rw [List.findSome?_eq_none_iff]
    exact List.filterMap_eq_nil_iff.mp hanswers
  · exact .inr (change.isBusy_of_answers hmine hanswers)

theorem IsSound.advance? {next : Stage} (h : stage.IsSound)
    (hadvance : stage.advance? build actor = some next) : next.IsSound := by
  have hactor : ∀ woken ∈ stage.replies, woken.actor ≠ actor := by
    rintro woken hmem rfl
    rw [advance?_of_rests build (h.rests woken hmem)] at hadvance
    cases hadvance
  unfold Stage.advance? at hadvance
  simp only at hadvance
  split at hadvance
  · rename_i call hcall
    obtain ⟨⟨world, events⟩, hmove, rfl⟩ := Option.map_eq_some_iff.mp hadvance
    have hknown := h.planned actor (by rw [hcall]; rfl)
    have hplanned := h.hears (hears_set stage actor
      { stage.actors.get actor with next := none }) hknown hactor (.inl rfl)
    have change : World.Change build stage.world (.call actor call) world events :=
      World.change_of_call? hmove
    exact hplanned.absorb change rfl hknown hactor
  · obtain ⟨⟨world, events⟩, hmove, rfl⟩ := Option.map_eq_some_iff.mp hadvance
    obtain ⟨effect, rule, _⟩ := World.exists_rule_of_step? hmove
    exact h.absorb (World.change_of_step? hmove) rfl (World.contains_of_rule rule) hactor

end

/-- A reply tells that an assertion was raised since the step began. -/
def HasAsserted (stage : Stage) : Prop := stage.replies.any (·.reply.asserts) = true

theorem Hears.hasAsserted (hears : Hears actor stage after) (h : stage.HasAsserted) :
    after.HasAsserted := by
  obtain hreplies | ⟨woken, _, hreplies, _⟩ := hears.replies
  · rw [HasAsserted, hreplies]
    exact h
  · rw [HasAsserted, hreplies, List.any_append, Bool.or_eq_true]
    exact .inl h

/-- Whatever the operation would have made of an answer, a panic is its reply. -/
theorem respond_panicked (stage : Stage) (actor : Thread) (panic : Panic) :
    stage.respond actor (.panicked panic) = stage.reply actor (.panicked panic) := by
  unfold respond
  cases (stage.actors.get actor).task with
  | single | yields | opening | closing => rfl

theorem hasAsserted_absorb (stage : Stage) (actor : Thread) {result : World Int64 × _}
    (h : Asserts result.2) : (stage.absorb actor result.1 result.2).HasAsserted := by
  obtain ⟨world, events⟩ := result
  obtain ⟨call, panic, rfl, _, hpanic⟩ := h
  have habsorb : stage.absorb actor world [.answered call (.panicked panic)] =
      Stage.reply { stage with world } actor (.panicked panic) :=
    respond_panicked ..
  rw [habsorb, HasAsserted, Stage.reply, List.any_append, Bool.or_eq_true]
  right
  rw [List.any_cons, Reply.asserts, hpanic]
  rfl

section

variable {build : Build} {first : Thread} {next : Stage}

theorem HasAsserted.advance? (h : stage.HasAsserted)
    (hadvance : stage.advance? build actor = some next) : next.HasAsserted := by
  unfold Stage.advance? at hadvance
  simp only at hadvance
  split at hadvance
  all_goals
    obtain ⟨⟨world, events⟩, _, rfl⟩ := Option.map_eq_some_iff.mp hadvance
    exact (hears_absorb _ actor world events).1.hasAsserted h

/-- An actor gets the same way in both builds unless an assertion is raised. -/
theorem advance?_agrees (h : stage.IsSound) (actor : Thread) :
    AgreesUnless HasAsserted (stage.advance? .checked actor) (stage.advance? .unchecked actor) := by
  unfold advance?
  simp only
  split
  · exact (World.call?_agrees ..).map _ fun _ ↦ hasAsserted_absorb _ actor
  · exact (World.step?_agrees (h.allFit actor)).map _ fun _ ↦ hasAsserted_absorb _ actor

theorem exists_advance?_of_stir? (hstir : stage.stir? build first = some next) :
    ∃ actor, stage.advance? build actor = some next := by
  unfold stir? at hstir
  simp only at hstir
  split at hstir
  · rename_i hawake
    cases hstir
    obtain ⟨actor, _, hadvance⟩ := List.exists_of_findSome?_eq_some hawake
    split at hadvance
    · cases hadvance
    · exact ⟨actor, hadvance⟩
  · split at hstir
    · obtain ⟨actor, _, hadvance⟩ := List.exists_of_findSome?_eq_some hstir
      split at hadvance
      · exact ⟨actor, hadvance⟩
      · cases hadvance
    · cases hstir

theorem stir?_eq (build : Build) (stage : Stage) (first : Thread) :
    stage.stir? build first =
      ((stage.order first).findSome? fun actor ↦
        if stage.isSleeping actor then none else stage.advance? build actor).or
      (if stage.wakesSleepers then
        (stage.order first).findSome? fun actor ↦
          if stage.isSleeping actor then stage.advance? build actor else none
      else none) := by
  unfold stir?
  simp only
  split
  · rename_i hawake
    rw [hawake]
    rfl
  · rename_i hnone
    rw [hnone, Option.none_or]

/-- In both builds the same thread gets to move next. -/
theorem stir?_agrees (h : stage.IsSound) (first : Thread) :
    AgreesUnless HasAsserted (stage.stir? .checked first) (stage.stir? .unchecked first) := by
  rw [stir?_eq, stir?_eq]
  apply AgreesUnless.or
  · apply AgreesUnless.findSome?
    intro actor _
    split
    · exact .same none
    · exact advance?_agrees h actor
  · split
    · apply AgreesUnless.findSome?
      intro actor _
      split
      · exact advance?_agrees h actor
      · exact .same none
    · exact .same none

/-- What every move of an actor keeps is kept until all threads have settled. -/
theorem settleWithin_induct {P : Stage → Prop} (h : P stage)
    (hadvance : ∀ stage next actor, P stage → stage.advance? build actor = some next → P next)
    (first : Thread) (fuel : Nat) : P (settleWithin build first fuel stage) := by
  induction fuel generalizing stage with
  | zero => exact h
  | succ fuel ih =>
    unfold settleWithin
    split
    · rename_i next hstir
      obtain ⟨actor, hnext⟩ := exists_advance?_of_stir? hstir
      exact ih (hadvance stage next actor h hnext)
    · exact h

theorem IsSound.settleWithin (h : stage.IsSound) (build : Build) (first : Thread) (fuel : Nat) :
    (settleWithin build first fuel stage).IsSound :=
  settleWithin_induct h (fun _ _ _ ↦ IsSound.advance?) first fuel

theorem HasAsserted.settleWithin (h : stage.HasAsserted) (build : Build) (first : Thread)
    (fuel : Nat) : (settleWithin build first fuel stage).HasAsserted :=
  settleWithin_induct h (fun _ _ _ ↦ HasAsserted.advance?) first fuel

/-- The threads settle alike in both builds unless an assertion is raised on the way. -/
theorem settleWithin_agrees (h : stage.IsSound) (first : Thread) (fuel : Nat) :
    settleWithin .unchecked first fuel stage = settleWithin .checked first fuel stage ∨
      (settleWithin .checked first fuel stage).HasAsserted := by
  induction fuel generalizing stage with
  | zero => exact .inl rfl
  | succ fuel ih =>
    unfold Stage.settleWithin
    obtain hsame | ⟨next, other, hchecked, hunchecked, hasserted⟩ := (stir?_agrees h first).eq_or
    · rw [← hsame]
      cases hstir : stage.stir? .checked first with
      | none => exact .inl rfl
      | some next =>
        obtain ⟨actor, hadvance⟩ := exists_advance?_of_stir? hstir
        exact ih (h.advance? hadvance)
    · rw [hchecked, hunchecked]
      exact .inr (hasserted.settleWithin .checked first fuel)

/-- Since no actor replies twice in a step, an assertion that was raised shows up in the outcome. -/
theorem asserts_report (h : stage.IsSound) (hasserted : stage.HasAsserted) (actor : Thread) :
    (stage.report actor).asserts = true := by
  obtain ⟨woken, hmem, hreply⟩ := List.any_eq_true.mp hasserted
  rw [report, Outcome.asserts, Bool.or_eq_true]
  by_cases hactor : woken.actor = actor
  · left
    have hfind : stage.replies.find? (·.actor == actor) = some woken := by
      cases hfind : stage.replies.find? (·.actor == actor) with
      | none =>
        rw [List.find?_eq_none] at hfind
        exact absurd (beq_iff_eq.mpr hactor) (hfind woken hmem)
      | some other =>
        have hother : other.actor = actor := by simpa using List.find?_some hfind
        have hsame : other = woken :=
          List.inj_on_of_nodup_map h.nodup (List.mem_of_find?_eq_some hfind) hmem
            (hother.trans hactor.symm)
        rw [hsame]
    rw [progress, hfind]
    exact hreply
  · right
    rw [List.any_eq_true]
    refine ⟨woken, ?_, hreply⟩
    rw [List.mem_mergeSort, List.mem_filter]
    exact ⟨hmem, bne_iff_ne.mpr hactor⟩

/-- A stage at which a step can begin. -/
structure IsReady (stage : Stage) : Prop where
  sound : stage.IsSound
  silent : stage.replies = []

theorem isReady_conclude (h : stage.IsSound) (build : Build) (actor : Thread) :
    (conclude build stage actor).2.IsReady := by
  have hsettled : (stage.settle build actor).IsSound := h.settleWithin build actor _
  exact ⟨⟨hsettled.allFit, hsettled.planned, List.nodup_nil, List.forall_mem_nil _⟩, rfl⟩

theorem asserts_conclude (h : stage.IsSound) (hasserted : stage.HasAsserted) (build : Build)
    (actor : Thread) : (conclude build stage actor).1.asserts = true :=
  asserts_report (h.settleWithin build actor _) (hasserted.settleWithin build actor _) actor

theorem conclude_agrees (h : stage.IsSound) (actor : Thread) :
    conclude .unchecked stage actor = conclude .checked stage actor ∨
      (conclude .checked stage actor).1.asserts = true := by
  obtain hsame | hasserted := settleWithin_agrees h actor stage.workLeft
  · left
    rw [conclude, conclude, settle, settle, hsame]
  · exact .inr (asserts_report (h.settleWithin .checked actor _) hasserted actor)

theorem IsReady.enlist (h : stage.IsReady) (actor : Thread) : (stage.enlist actor).IsReady := by
  unfold Stage.enlist
  split
  · exact h
  · rename_i hunknown
    rw [Bool.not_eq_true] at hunknown
    refine ⟨⟨h.sound.allFit.enlist hunknown _, fun other hnext ↦ ?_, h.sound.nodup, ?_⟩, h.silent⟩
    · rw [World.enlist, Roster.contains_set, h.sound.planned other hnext, Bool.or_true]
    · rw [h.silent]
      exact List.forall_mem_nil _

theorem contains_enlist (stage : Stage) (actor : Thread) :
    (stage.enlist actor).world.threads.contains actor = true := by
  unfold enlist
  split
  · assumption
  · rw [World.enlist, Roster.contains_set, beq_self_eq_true, Bool.true_or]

theorem thread_enlist_idle (hidle : (stage.thread actor).activity = .idle) :
    ((stage.enlist actor).thread actor).activity = .idle := by
  unfold enlist
  split
  · exact hidle
  · rw [thread, World.thread_enlist, if_pos rfl]

/-- An idle actor may begin any operation. -/
theorem IsReady.isSound_begin (h : stage.IsReady) (hidle : (stage.thread actor).activity = .idle)
    (op : Op) : ((stage.enlist actor).begin actor op).IsSound := by
  have hready := h.enlist actor
  apply hready.sound.hears (hears_begin ..) (contains_enlist stage actor)
  · rw [hready.silent]
    exact List.forall_mem_nil _
  · rw [thread_enlist_idle hidle]
    exact .inr rfl

/-- An operation is refused, or it wakes its actor, or it is begun; then all threads settle. -/
theorem act_cases (h : stage.IsReady) (actor : Thread) (op : Op) :
    (∃ outcome, ∀ build, stage.act build actor op = (outcome, stage)) ∨
      (∀ build, stage.act build actor op =
        conclude build ((stage.advance? build actor).getD stage) actor) ∨
      ∃ begun, begun.IsSound ∧
        ∀ build, stage.act build actor op = conclude build begun actor := by
  unfold act
  split
  · exact .inr (.inl fun _ ↦ rfl)
  · exact .inl ⟨_, fun _ ↦ rfl⟩
  · exact .inl ⟨_, fun _ ↦ rfl⟩
  · exact .inl ⟨_, fun _ ↦ rfl⟩
  · rename_i hidle
    split
    · exact .inl ⟨_, fun _ ↦ rfl⟩
    · exact .inr (.inr ⟨_, h.isSound_begin hidle _, fun _ ↦ rfl⟩)
  · rename_i hidle
    exact .inr (.inr ⟨_, h.isSound_begin hidle _, fun _ ↦ rfl⟩)

theorem IsSound.getD_advance? (h : stage.IsSound) (build : Build) (actor : Thread) :
    ((stage.advance? build actor).getD stage).IsSound := by
  cases hadvance : stage.advance? build actor with
  | none => exact h
  | some next => exact h.advance? hadvance

theorem act_agrees (h : stage.IsReady) (actor : Thread) (op : Op) :
    stage.act .unchecked actor op = stage.act .checked actor op ∨
      (stage.act .checked actor op).1.asserts = true := by
  obtain ⟨outcome, hact⟩ | hact | ⟨begun, hbegun, hact⟩ := act_cases h actor op
  · exact .inl ((hact .unchecked).trans (hact .checked).symm)
  · rw [hact, hact]
    obtain hsame | ⟨next, other, hchecked, _, hasserted⟩ := (advance?_agrees h.sound actor).eq_or
    · rw [← hsame]
      exact conclude_agrees (h.sound.getD_advance? .checked actor) actor
    · rw [hchecked]
      exact .inr (asserts_conclude (h.sound.advance? hchecked) hasserted .checked actor)
  · rw [hact, hact]
    exact conclude_agrees hbegun actor

theorem isReady_act (h : stage.IsReady) (build : Build) (actor : Thread) (op : Op) :
    (stage.act build actor op).2.IsReady := by
  obtain ⟨outcome, hact⟩ | hact | ⟨begun, hbegun, hact⟩ := act_cases h actor op
  · rw [hact]
    exact h
  · rw [hact]
    exact isReady_conclude (h.sound.getD_advance? build actor) build actor
  · rw [hact]
    exact isReady_conclude hbegun build actor

theorem step_agrees (h : stage.IsReady) (step : Step) :
    stage.step .unchecked step = stage.step .checked step ∨
      (stage.step .checked step).1.asserts = true := by
  cases step with
  | act actor op => exact act_agrees h actor op
  | coordinate => exact .inl rfl

theorem IsReady.pass (h : stage.IsReady) (nanos : Nat) :
    IsReady { stage with world := { stage.world with clock := stage.world.clock + nanos } } where
  sound := by
    have change : World.Change .checked stage.world (.pass nanos) _ [] := .pass nanos
    exact h.sound.moved change fun _ _ ↦ (Option.some_ne_none _).symm
  silent := h.silent

theorem isReady_step (h : stage.IsReady) (build : Build) (step : Step) :
    (stage.step build step).2.IsReady := by
  cases step with
  | act actor op => exact isReady_act h build actor op
  | coordinate coordination =>
    cases coordination with
    | pause => exact h.pass _
    | longestAtLeast | config | unknown => exact h

/-- A script whose steps in the checked build tell of no assertion runs alike in both builds. -/
theorem run_agrees (h : stage.IsReady) (steps : List Step)
    (hclean : ∀ outcome ∈ (stage.run .checked steps).1, outcome.asserts = false) :
    stage.run .unchecked steps = stage.run .checked steps := by
  induction steps generalizing stage with
  | nil => rfl
  | cons step steps ih =>
    have hfirst : (stage.step .checked step).1.asserts = false := hclean _ List.mem_cons_self
    have hsame : stage.step .unchecked step = stage.step .checked step := by
      apply (step_agrees h step).resolve_right
      rw [hfirst]
      exact Bool.false_ne_true
    have hrest := ih (isReady_step h .checked step)
      fun outcome hmem ↦ hclean outcome (List.mem_cons_of_mem _ hmem)
    unfold run
    simp only [hsame, hrest]

theorem isReady_of_new {lock : Lock Int64} (hnew : lock.IsNew) (wakesSleepers : Bool) :
    IsReady { world := { lock }, wakesSleepers } where
  sound := ⟨World.allFit_of_new ⟨hnew, rfl⟩, fun _ hnext ↦ absurd hnext Bool.false_ne_true,
    List.nodup_nil, List.forall_mem_nil _⟩
  silent := rfl

end

end

end Stage

/-- Any moves that raise no assertion in the checked build are made in the same way by the unchecked
one, with the same answers and lines, and then the same threads can go on. A script that tells of no
assertion in the checked build has the same outcomes in the unchecked one, and it leaves the same
threads, lock and counters behind. Both builds start from one lock, so from one configuration. -/
theorem builds_agree_on_clean_runs :
    (∀ (σ : Type) (start world : World σ) (turns : List (Turn σ)), start.IsNew →
      Run .checked start turns world →
      (∀ turn ∈ turns, turn.raises Panic.isAssertion = false) →
      Run .unchecked start turns world ∧
        ∀ move, (world.move? .unchecked move).isSome = (world.move? .checked move).isSome) ∧
    ∀ (lock : Lock Int64) (wakesSleepers : Bool) (steps : List Step), lock.IsNew →
      (∀ outcome ∈ (Stage.run .checked { world := { lock }, wakesSleepers } steps).1,
        outcome.asserts = false) →
      Stage.run .unchecked { world := { lock }, wakesSleepers } steps =
        Stage.run .checked { world := { lock }, wakesSleepers } steps := by
  constructor
  · intro σ start world turns hnew run hclean
    refine ⟨run.unchecked hnew hclean, fun move ↦ ?_⟩
    exact (World.move?_agrees (run.reachable hnew).fits move).isSome_eq.symm
  · intro lock wakesSleepers steps hnew hclean
    exact Stage.run_agrees (Stage.isReady_of_new hnew wakesSleepers) steps hclean

/-- A worker that is warned takes the lock again, another thread panics as it comes too late to be
the worker, and a third gets the lock in a yield and ends the protocol. -/
theorem builds_agree_on_handover :
    ∃ (lock : Lock Int64) (steps : List Step), lock.IsNew ∧
      lock.config.warnOnWorkerAcquire = true ∧
      (∃ woken status, .report (.replied (.panicked .alreadyAdopted) []) woken status ∈
        (Stage.run .checked { world := { lock } } steps).1) ∧
      Stage.run .unchecked { world := { lock } } steps =
        Stage.run .checked { world := { lock } } steps ∧
      ∃ (start world : World Int64) (turns : List (Turn Int64)), start.lock = lock ∧
        Run .checked start turns world ∧ Run .unchecked start turns world ∧
        (world.thread "worker").activity.isSleeping = true := by
  let config : Config :=
    { yieldSleep := .hundredMicros, workerName := "worker", warnOnWorkerAcquire := true }
  let lock : Lock Int64 := { value := 0, config }
  let steps : List Step :=
    [.act "worker" .adopt, .act "worker" .acquire, .act "worker" (.release none),
      .act "other" .acquire, .act "late" .adopt, .act "worker" .yieldNow, .act "other" (.set 1),
      .act "worker" .wake, .act "other" (.release none), .act "other" .requestShutdown,
      .act "worker" .yieldNow]
  let start : World Int64 := { lock }
  let moves : List (Move Int64) :=
    [.call "worker" .adopt, .step "worker", .call "other" .acquire, .step "other",
      .call "late" .adopt, .call "worker" .yieldNow, .step "worker", .step "other"]
  have hnew : lock.IsNew := .withConfig (show Lock.withConfig 0 config = .ok lock from rfl)
  have hclean : ∀ outcome ∈ (Stage.run .checked { world := { lock } } steps).1,
      outcome.asserts = false := by
    decide +kernel
  have hplay : ∃ ready ∈ start.play? .checked moves,
      (∀ turn ∈ ready.1, turn.raises Panic.isAssertion = false) ∧
      (ready.2.thread "worker").activity.isSleeping = true := by
    decide +kernel
  obtain ⟨⟨turns, world⟩, hturns, hquiet, hsleeping⟩ := hplay
  have run : Run .checked start turns world := run_of_play? hturns
  obtain ⟨hmoves, hscripts⟩ := builds_agree_on_clean_runs
  have hlate : .report (.replied (.panicked .alreadyAdopted) []) []
      { keepAlive := true, isControllerWaiting := true, waiting := 1, isTerminated := false,
        isLocked := true } ∈ (Stage.run .checked { world := { lock } } steps).1 := by
    decide +kernel
  exact ⟨lock, steps, hnew, rfl, ⟨_, _, hlate⟩, hscripts lock false steps hnew hclean, start, world,
    turns, rfl, run, (hmoves Int64 start world turns ⟨hnew, rfl⟩ run hquiet).1, hsleeping⟩

end YieldLock.Script
