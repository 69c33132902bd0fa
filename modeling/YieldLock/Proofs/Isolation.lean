import Mathlib.Algebra.Ring.Int.Defs
import YieldLock.Proofs.Phase

/-!
# Sections

A section of a thread reaches from the step that gives it its first level of the
lock to the step that gives up its last one. Within it the value changes by
writes of that thread alone, so what the thread has read stays true until it
writes itself or the section ends. Main statements: `Run.value_of_lastRead?`,
`Run.value_eq_iterate`, and `sections_are_isolated`.
-/

namespace YieldLock

variable {σ : Type}

/-- The worker is told that it may go on, for the first time or once more. -/
def Event.proceeds : Event σ → Bool
  | .answered .adopt .adopted | .answered .start .started => true
  | .answered .yieldNow (.flow .proceed) | .answered .closeWindow (.flow .proceed) => true
  | _ => false

/-- The value that a call has read, as what it showed tells. -/
def Call.read? (call : Call σ) (events : List (Event σ)) : Option σ :=
  match call, events with
  | .read _, [.answered _ (.value value)] => some value
  | _, _ => none

/-- The value that a call has written, as what it showed tells. -/
def Call.written? (call : Call σ) (events : List (Event σ)) : Option σ :=
  match call, events with
  | .write _ value, [.answered _ (.value _)] => some value
  | _, _ => none

namespace ThreadState

theorem sessionLevel_congr {self after : ThreadState σ} (hsession : after.session = self.session)
    (hreleased : after.activity.isReleased = self.activity.isReleased) :
    after.sessionLevel = self.sessionLevel := by
  rw [sessionLevel, sessionLevel, hsession, hreleased]

theorem sessionLevel_of_holdsNoLevel {self : ThreadState σ} (h : self.HoldsNoLevel) :
    self.sessionLevel = 0 := by
  have hlevels := levels_of_holdsNoLevel h
  rw [levels] at hlevels
  omega

theorem sessionLevel_of_released {self : ThreadState σ}
    (h : self.activity.isReleased = true) : self.sessionLevel = 0 := by
  have hlevels := levels_of_released h
  rw [levels] at hlevels
  omega

section

variable {self : ThreadState σ} {call : Call σ}

theorem sessionLevel_conclude (lock : Lock σ) (call : Call σ) (h : self.HoldsNoLevel) :
    (conclude lock self call).self.sessionLevel = self.sessionLevel := by
  have hbefore := levels_of_holdsNoLevel h
  have hafter := levels_conclude lock call h
  rw [levels] at hbefore hafter
  rw [guards_conclude] at hafter
  omega

theorem sessionLevel_fail (lock : Lock σ) (call : Call σ) (panic : Panic) (entries : List Entry)
    (h : self.HoldsNoLevel) :
    (fail lock self call panic entries).self.sessionLevel = self.sessionLevel := by
  have hbefore := levels_of_holdsNoLevel h
  have hafter := levels_fail lock call panic entries h
  rw [levels] at hbefore hafter
  rw [guards_fail] at hafter
  omega

/-- After a check the worker goes on, or it is about to end its session. -/
theorem proceeds_or_lowering_check (me : Thread) (lock : Lock σ) (self : ThreadState σ)
    (entries : List Entry) (hcall : call = .yieldNow ∨ call = .closeWindow) :
    (check me lock self call entries).events.any Event.proceeds = true ∨
      ∃ other, (check me lock self call entries).self.activity = .busy other .lowering := by
  unfold check
  split
  · exact .inr ⟨call, rfl⟩
  · left
    obtain rfl | rfl := hcall
    all_goals simp [answer, Event.proceeds]

end

section

variable {build : Build} {now : Nat} {me : Thread} {lock : Lock σ} {self : ThreadState σ}
  {call? : Option (Call σ)} {effect : Effect σ}

/-- A step leaves the session's level as it is, or it takes the level when the worker is told to go
on or is about to end its session, or it gives the level up for a yield, a window or the end. -/
theorem Rule.sessionLevel_cases (rule : Rule build now me lock self call? effect)
    (h : self.Fits lock me) :
    effect.self.sessionLevel = self.sessionLevel ∨
      self.sessionLevel = 0 ∧
        (effect.events.any Event.proceeds = true ∨
          ∃ call, effect.self.activity = .busy call .lowering) ∨
      effect.self.sessionLevel = 0 ∧
        (call? = some .openWindow ∨
          call? = none ∧ (self.activity = .busy .yieldNow .polling ∨
            ∃ call, self.activity = .busy call .lowering)) := by
  cases rule with
  | adoptWon hbusy =>
    obtain ⟨hcall, hsession⟩ := h.sound.place _ _ hbusy
    refine .inr (.inl ⟨sessionLevel_of_holdsNoLevel (holdsNoLevel_of_none hsession), .inl ?_⟩)
    obtain rfl | rfl := hcall
    all_goals simp [answer, adoptedAnswer, Event.proceeds]
  | retake hbusy =>
    obtain ⟨hcall, hsession⟩ := h.sound.place _ _ hbusy
    refine .inr (.inl ⟨sessionLevel_of_released (by rw [hbusy]; rfl), ?_⟩)
    exact proceeds_or_lowering_check _ _ _ _ (.inl hcall)
  | close hbusy =>
    obtain ⟨hcall, hsession⟩ := h.sound.place _ _ hbusy
    refine .inr (.inl ⟨sessionLevel_of_holdsNoLevel (holdsNoLevel_of_some hsession rfl), ?_⟩)
    exact proceeds_or_lowering_check _ _ _ _ (.inr hcall)
  | openNested | openWindow =>
    exact .inr (.inr ⟨sessionLevel_of_holdsNoLevel (holdsNoLevel_of_some rfl rfl), .inl rfl⟩)
  | pollSleep hbusy =>
    obtain ⟨rfl, _⟩ := h.sound.place _ _ hbusy
    exact .inr (.inr ⟨sessionLevel_of_released rfl, .inr ⟨rfl, .inl hbusy⟩⟩)
  | giveUp hbusy =>
    exact .inr (.inr ⟨sessionLevel_of_holdsNoLevel (holdsNoLevel_of_some rfl rfl),
      .inr ⟨rfl, .inr ⟨_, hbusy⟩⟩⟩)
  | @giveUpNested _ session hbusy =>
    have hnone : HoldsNoLevel { self with session := some { session with holds := false } } :=
      holdsNoLevel_of_some rfl rfl
    refine .inr (.inr ⟨?_, .inr ⟨rfl, .inr ⟨_, hbusy⟩⟩⟩)
    exact (sessionLevel_fail _ _ _ _ hnone).trans (sessionLevel_of_holdsNoLevel hnone)
  | dropEnded _ _ _ hsession hphase =>
    have hnone : self.HoldsNoLevel :=
      holdsNoLevel_of_some hsession (h.sound.holds _ hsession (by rw [hphase]; decide))
    exact .inl (sessionLevel_conclude _ _ hnone)
  | finishEnded _ _ hended =>
    have hnone : HoldsNoLevel { self with guards := 0 } := h.sound.holdsNoLevel_of_ended hended
    exact .inl (sessionLevel_conclude _ _ hnone)
  | mark hbusy =>
    exact .inl (sessionLevel_conclude _ _ (holdsNoLevel_of_some (h.sound.place _ _ hbusy).2 rfl))
  | adoptLost hbusy | startLate hbusy =>
    have hnone : self.HoldsNoLevel := holdsNoLevel_of_none (h.sound.place _ _ hbusy).2
    exact .inl (sessionLevel_fail _ _ _ _ hnone)
  | tearDownFailed hbusy =>
    have hnone : self.HoldsNoLevel := holdsNoLevel_of_some (h.sound.place _ _ hbusy).2 rfl
    exact .inl (sessionLevel_fail _ _ _ _ hnone)
  | obtainUnmatched hbusy =>
    obtain rfl : _ = Call.acquire := h.sound.place _ _ hbusy
    exact .inl (sessionLevel_congr rfl (by rw [hbusy]; rfl))
  | closeRunning hstands | recheck hstands =>
    exact .inl (sessionLevel_congr (session_check ..)
      ((isReleased_check ..).trans (by rw [hstands]; rfl)))
  | park => exact .inl rfl
  | _ hstands => exact .inl (sessionLevel_congr rfl (by rw [hstands]; rfl))

/-- A thread that has a hold of the value owns the lock. -/
theorem Fits.isHeldBy_of_reaches (h : self.Fits lock me) (hidle : self.activity = .idle)
    {access : Access} (hreach : self.Reaches access) : lock.mutex.isHeldBy me = true := by
  rw [Mutex.isHeldBy, h.depth]
  apply decide_eq_true
  cases access with
  | guard => exact Nat.add_pos_left hreach _
  | session =>
    obtain ⟨session, hsession, hholds⟩ := hreach
    rw [levels_of_holds hsession hholds (by rw [hidle]; rfl)]
    exact Nat.succ_pos _

/-- After a step the value is the one that the step has written, if it has written any. -/
theorem Rule.value_eq (rule : Rule build now me lock self call? effect) :
    effect.lock.value = (call?.bind (·.written? effect.events)).getD lock.value := by
  cases rule with
  | request =>
    rw [lock_answer, Lock.lock_requestShutdown]
    rfl
  | obtainUnmatched | startLate | adoptLost | giveUpNested | tearDownFailed =>
    rw [lock_fail]
    rfl
  | closeRunning | retake | recheck | close =>
    rw [lock_check]
    rfl
  | outOfReach _ hcall | dropBegin _ hcall | dropEnded _ hcall =>
    obtain rfl | ⟨_, rfl⟩ := hcall
    all_goals rfl
  | mark =>
    rw [lock_conclude]
    rfl
  | _ => rfl

/-- Only the owner of the lock reads the value, and it reads the value that is there. -/
theorem Rule.of_read (rule : Rule build now me lock self call? effect) (h : self.Fits lock me)
    {value : σ} (hread : call?.bind (·.read? effect.events) = some value) :
    lock.mutex.isHeldBy me = true ∧ lock.value = value := by
  cases rule with
  | read hidle hreach => exact ⟨h.isHeldBy_of_reaches hidle hreach, Option.some_inj.mp hread⟩
  | outOfReach _ hcall | dropBegin _ hcall | dropEnded _ hcall =>
    obtain rfl | ⟨_, rfl⟩ := hcall
    all_goals cases hread
  | _ => cases hread

/-- Only the owner of the lock writes the value. -/
theorem Rule.of_written (rule : Rule build now me lock self call? effect) (h : self.Fits lock me)
    {value : σ} (hwritten : call?.bind (·.written? effect.events) = some value) :
    lock.mutex.isHeldBy me = true := by
  cases rule with
  | write hidle hreach => exact h.isHeldBy_of_reaches hidle hreach
  | outOfReach _ hcall | dropBegin _ hcall | dropEnded _ hcall =>
    obtain rfl | ⟨_, rfl⟩ := hcall
    all_goals cases hwritten
  | _ => cases hwritten

end

end ThreadState

namespace Turn

/-- The value that is read in a turn. -/
def read? (turn : Turn σ) : Option σ :=
  match turn.move with
  | .call _ call => call.read? turn.events
  | _ => none

/-- The value that is written in a turn. -/
def written? (turn : Turn σ) : Option σ :=
  match turn.move with
  | .call _ call => call.written? turn.events
  | _ => none

end Turn

/-- What a thread has read in the section that it is in and not written over since, as a history
tells that has the newest turn first. -/
def lastRead? (me : Thread) : List (Turn σ) → Option σ
  | [] => none
  | turn :: earlier =>
    if !turn.before.lock.mutex.isHeldBy me then none
    else if turn.move.thread? ≠ some me then lastRead? me earlier
    else if turn.written?.isSome then none
    else turn.read?.or (lastRead? me earlier)

/-- Every write of a history, the newest turn first, writes what a function makes of the value that
its thread has read before in the same section. -/
def Updates (update : σ → σ) : List (Turn σ) → Prop
  | [] => True
  | turn :: earlier =>
    (∀ value ∈ turn.written?, ∀ writer ∈ turn.move.thread?,
      (lastRead? writer earlier).map update = some value) ∧ Updates update earlier

instance decidableUpdates [DecidableEq σ] (update : σ → σ) :
    (history : List (Turn σ)) → Decidable (Updates update history)
  | [] => .isTrue trivial
  | _ :: earlier => @instDecidableAnd _ _ inferInstance (decidableUpdates update earlier)

/-- Turns in a row of which the first gives a thread its first level of the lock; in all that follow
the thread still has a level when the turn begins. -/
structure IsSection (me : Thread) (opening : Turn σ) (turns : List (Turn σ)) : Prop where
  free : opening.before.lock.mutex.isHeldBy me = false
  taken : opening.after.lock.mutex.isHeldBy me = true
  held : ∀ turn ∈ turns, turn.before.lock.mutex.isHeldBy me = true

section

variable {build : Build} {start world next : World σ} {turns : List (Turn σ)} {turn : Turn σ}
  {move : Move σ} {events : List (Event σ)} {me : Thread} {value : σ} {update : σ → σ}

/-- The value after a turn is the one written in it, if one was. -/
theorem Turn.IsMove.value_eq (hmove : turn.IsMove build) :
    turn.after.lock.value = turn.written?.getD turn.before.lock.value := by
  obtain ⟨before, move, after, events⟩ := turn
  have change : World.Change build before move after events := World.change_of_move? hmove
  cases change with
  | enter | pass | spawn | spawnRefused => rfl
  | own name call? effect _ rule =>
    apply rule.value_eq.trans
    cases call? with
    | none | some => rfl

/-- The value is read by the owner of the lock. -/
theorem Turn.IsMove.of_read (hmove : turn.IsMove build) (h : Reachable build turn.before)
    (hread : turn.read? = some value) :
    ∃ reader, turn.move.thread? = some reader ∧ turn.before.lock.mutex.isHeldBy reader = true ∧
      turn.before.lock.value = value := by
  obtain ⟨before, move, after, events⟩ := turn
  have change : World.Change build before move after events := World.change_of_move? hmove
  cases change with
  | enter | pass | spawn | spawnRefused => cases hread
  | own name call? effect _ rule =>
    cases call? with
    | none => cases hread
    | some call => exact ⟨name, rfl, rule.of_read (h.fits name) hread⟩

/-- The value is written by the owner of the lock. -/
theorem Turn.IsMove.of_written (hmove : turn.IsMove build) (h : Reachable build turn.before)
    (hwritten : turn.written? = some value) :
    ∃ writer, turn.move.thread? = some writer ∧
      turn.before.lock.mutex.isHeldBy writer = true := by
  obtain ⟨before, move, after, events⟩ := turn
  have change : World.Change build before move after events := World.change_of_move? hmove
  cases change with
  | enter | pass | spawn | spawnRefused => cases hwritten
  | own name call? effect _ rule =>
    cases call? with
    | none => cases hwritten
    | some call => exact ⟨name, rfl, rule.of_written (h.fits name) hwritten⟩

/-- In a turn that its thread begins as the owner of the lock, no other thread writes the value. -/
theorem Turn.IsMove.value_of_others (hmove : turn.IsMove build) (h : Reachable build turn.before)
    (hheld : turn.before.lock.mutex.isHeldBy me = true) (hother : turn.move.thread? ≠ some me) :
    turn.after.lock.value = turn.before.lock.value := by
  rw [hmove.value_eq]
  cases hwritten : turn.written? with
  | none => rfl
  | some value =>
    obtain ⟨writer, hwriter, howner⟩ := hmove.of_written h hwritten
    have hme : writer = me :=
      Mutex.depth_pos_unique (of_decide_eq_true howner) (of_decide_eq_true hheld)
    exact absurd (hme ▸ hwriter) hother

/-- What a thread has read last in its section is still the value. -/
theorem Run.value_of_lastRead? (run : Run build start turns world) (h : Reachable build start)
    (hlast : lastRead? me turns.reverse = some value) : world.lock.value = value := by
  induction run with
  | nil => cases hlast
  | @snoc turns turn run hmove ih =>
    have hbefore := h.run run
    rw [List.reverse_append, List.reverse_singleton, List.singleton_append, lastRead?] at hlast
    split at hlast
    · cases hlast
    rename_i hheld
    replace hheld : turn.before.lock.mutex.isHeldBy me = true := by simpa using hheld
    split at hlast
    · rename_i hother
      rw [hmove.value_of_others hbefore hheld hother]
      exact ih hlast
    split at hlast
    · cases hlast
    · rename_i hwritten
      rw [Option.not_isSome_iff_eq_none] at hwritten
      rw [hmove.value_eq, hwritten, Option.getD_none]
      obtain hread | ⟨_, hearlier⟩ := Option.or_eq_some_iff.mp hlast
      · obtain ⟨_, _, _, hvalue⟩ := hmove.of_read hbefore hread
        exact hvalue
      · exact ih hearlier

/-- No update is lost: the value is the initial one updated as often as it was written. -/
theorem Run.value_eq_iterate (run : Run build start turns world) (h : Reachable build start)
    (hupdates : Updates update turns.reverse) :
    world.lock.value = update^[turns.countP (·.written?.isSome)] start.lock.value := by
  induction run with
  | nil => rfl
  | @snoc turns turn run hmove ih =>
    rw [List.reverse_append, List.reverse_singleton, List.singleton_append] at hupdates
    obtain ⟨hlast, hearlier⟩ := hupdates
    rw [hmove.value_eq, List.countP_append, List.countP_singleton]
    cases hwritten : turn.written? with
    | none => exact ih hearlier
    | some value =>
      obtain ⟨writer, hwriter, _⟩ := hmove.of_written (h.run run) hwritten
      obtain ⟨old, hold, rfl⟩ := Option.map_eq_some_iff.mp (hlast value hwritten writer hwriter)
      calc
        update old = update turn.before.lock.value := by rw [run.value_of_lastRead? h hold]
        _ = update (update^[turns.countP (·.written?.isSome)] start.lock.value) := by
          rw [ih hearlier]
        _ = update^[turns.countP (·.written?.isSome) + 1] start.lock.value :=
          (Function.iterate_succ_apply' update _ _).symm

/-- In a section of a thread the value changes by steps of that thread only. -/
theorem IsSection.thread?_of_changed {opening : Turn σ} {inner : List (Turn σ)}
    (hsection : IsSection me opening inner) (run : Run build start turns world)
    (h : Reachable build start) (hmem : ∀ turn ∈ opening :: inner, turn ∈ turns)
    (hturn : turn ∈ opening :: inner)
    (hchanged : turn.after.lock.value ≠ turn.before.lock.value) :
    turn.move.thread? = some me := by
  obtain ⟨_, _, earlier, hmove⟩ := run.exists_of_mem (hmem turn hturn)
  apply Classical.byContradiction
  intro hother
  obtain rfl | hinner := List.mem_cons.mp hturn
  · have hkept := (World.change_of_move? hmove).depth_of_ne hother
    have htaken := hsection.taken
    rw [Mutex.isHeldBy, hkept, ← Mutex.isHeldBy, hsection.free] at htaken
    cases htaken
  · exact hchanged (hmove.value_of_others (h.run earlier) (hsection.held turn hinner) hother)

/-- A move leaves the level of a thread's session as it is, or the thread takes that level when it
is told to go on or is about to end its session, or it gives the level up for a yield, a window or
the end. -/
theorem World.Change.sessionLevel_cases (change : World.Change build world move next events)
    (h : Reachable build world) (me : Thread) :
    (next.thread me).sessionLevel = (world.thread me).sessionLevel ∨
      (world.thread me).sessionLevel = 0 ∧ move.thread? = some me ∧
        (events.any Event.proceeds = true ∨
          ∃ call, (next.thread me).activity = .busy call .lowering) ∨
      (next.thread me).sessionLevel = 0 ∧
        (move = .call me .openWindow ∨
          move = .step me ∧ ((world.thread me).activity = .busy .yieldNow .polling ∨
            ∃ call, (world.thread me).activity = .busy call .lowering)) := by
  by_cases hmine : move.thread? = some me
  · cases change with
    | enter name title hunknown =>
      cases hmine
      left
      rw [World.thread_enlist, if_pos rfl, World.thread, Roster.get_of_not_contains hunknown]
      rfl
    | pass => cases hmine
    | own name call? effect _ rule =>
      rw [Move.thread?_ofThread, Option.some_inj] at hmine
      subst hmine
      rw [World.thread_after_self]
      obtain hkept | ⟨hzero, hopens⟩ | ⟨hzero, hcloses⟩ := rule.sessionLevel_cases (h.fits name)
      · exact .inl hkept
      · exact .inr (.inl ⟨hzero, Move.thread?_ofThread name call?, hopens⟩)
      · obtain rfl | ⟨rfl, hplace⟩ := hcloses
        · exact .inr (.inr ⟨hzero, .inl rfl⟩)
        · exact .inr (.inr ⟨hzero, .inr ⟨rfl, hplace⟩⟩)
    | spawn name child =>
      cases hmine
      simp only [World.thread, Roster.get_set_self]
      exact .inl rfl
    | spawnRefused => exact .inl rfl
  · obtain hkept | ⟨hunknown, title, hborn⟩ := change.thread_of_others hmine
    · exact .inl (by rw [hkept])
    · left
      rw [hborn, World.thread, Roster.get_of_not_contains hunknown]
      rfl

/-- In a run without an assertion against guards, a worker that is told to go on and whose session
is running owns the lock. -/
theorem Run.isHeldBy_of_proceeds {session : Session} (run : Run build start turns turn.before)
    (hnew : start.IsNew) (hmove : turn.IsMove build)
    (hclean : ∀ other ∈ turns ++ [turn], other.raises Panic.isNesting = false)
    (hmine : turn.move.thread? = some me) (hproceeds : turn.events.any Event.proceeds = true)
    (hsession : (turn.after.thread me).session = some session) (hphase : session.phase = .running) :
    turn.after.lock.mutex.isHeldBy me = true := by
  have hafter : Run build start (turns ++ [turn]) turn.after := .snoc run hmove
  have hholds : session.holds = true :=
    hafter.holdsWhileRunning hnew hclean session hsession hphase
  have hreleased : (turn.after.thread me).activity.isReleased = false := by
    apply Bool.eq_false_iff.mpr
    intro hreleased
    -- A thread that gives up its level in a yield has not been answered.
    have hnone := ((World.change_of_move? hmove).handoffs_of_yield (run.reachable hnew)
      (Activity.handoffs?_of_isReleased hreleased)).1 hmine
    obtain ⟨event, hevent, htold⟩ := List.any_eq_true.mp hproceeds
    have hanswer := List.filterMap_eq_nil_iff.mp hnone event hevent
    cases event with
    | entry | tornDown => cases htold
    | answered => cases hanswer
  rw [Mutex.isHeldBy, ((hafter.reachable hnew).fits me).depth,
    ThreadState.levels_of_holds hsession hholds hreleased]
  exact decide_eq_true (Nat.succ_pos _)

/-- From the move that gives a thread its first level of the lock to the one that gives up its last,
the value changes by moves of that thread only. The level of a worker's session begins when the
worker is told to go on, or is about to end its session, and lasts until a yield, a window or the
end. So if every write adds one to what its thread has read in the same section, none is lost. -/
theorem sections_are_isolated (hnew : start.IsNew) (run : Run build start turns world) :
    (∀ me opening inner, opening :: inner <:+: turns → IsSection me opening inner →
      ∀ turn ∈ opening :: inner, turn.after.lock.value ≠ turn.before.lock.value →
        turn.move.thread? = some me) ∧
    (∀ turn ∈ turns, ∀ me,
      ((turn.before.thread me).sessionLevel < (turn.after.thread me).sessionLevel →
        turn.move.thread? = some me ∧
          (turn.events.any Event.proceeds = true ∨
            ∃ call, (turn.after.thread me).activity = .busy call .lowering)) ∧
      ((turn.after.thread me).sessionLevel < (turn.before.thread me).sessionLevel →
        turn.move = .call me .openWindow ∨
          turn.move = .step me ∧ ((turn.before.thread me).activity = .busy .yieldNow .polling ∨
            ∃ call, (turn.before.thread me).activity = .busy call .lowering)) ∧
      (0 < (turn.after.thread me).sessionLevel → turn.after.lock.mutex.isHeldBy me = true)) ∧
    ((∀ turn ∈ turns, turn.raises Panic.isNesting = false) →
      ∀ turn ∈ turns, ∀ me session, turn.move.thread? = some me →
        turn.events.any Event.proceeds = true →
        (turn.after.thread me).session = some session → session.phase = .running →
        turn.after.lock.mutex.isHeldBy me = true) ∧
    (∀ [AddMonoidWithOne σ], Updates (· + 1) turns.reverse →
      world.lock.intoInner =
        start.lock.intoInner + (turns.countP (·.written?.isSome) : σ)) := by
  have hreach : Reachable build start := Run.nil.reachable hnew
  refine ⟨?_, ?_, ?_, ?_⟩
  · intro me opening inner hinfix hsection turn hturn hchanged
    exact hsection.thread?_of_changed run hreach (fun _ hmem ↦ hinfix.subset hmem) hturn hchanged
  · intro turn hmem me
    obtain ⟨_, _, earlier, hmove⟩ := run.exists_of_mem hmem
    have hbefore := earlier.reachable hnew
    have hcases := (World.change_of_move? hmove).sessionLevel_cases hbefore me
    refine ⟨fun hmore ↦ ?_, fun hless ↦ ?_, fun hlevel ↦ ?_⟩
    · obtain hkept | ⟨_, hopens⟩ | ⟨hzero, _⟩ := hcases
      · omega
      · exact hopens
      · omega
    · obtain hkept | ⟨hzero, _⟩ | ⟨_, hcloses⟩ := hcases
      · omega
      · omega
      · exact hcloses
    · rw [Mutex.isHeldBy, ((hbefore.move hmove).fits me).depth, ThreadState.levels]
      exact decide_eq_true (Nat.add_pos_right _ hlevel)
  · intro hclean turn hmem me session hmine hproceeds hsession hphase
    obtain ⟨before, hpart, earlier, hmove⟩ := run.exists_of_mem hmem
    have hboth : ∀ other ∈ before ++ [turn], other.raises Panic.isNesting = false := by
      intro other hother
      rw [List.mem_append, List.mem_singleton] at hother
      obtain hother | rfl := hother
      · exact hclean other (hpart.subset hother)
      · exact hclean other hmem
    exact earlier.isHeldBy_of_proceeds hnew hmove hboth hmine hproceeds hsession hphase
  · intro _ hupdates
    calc
      world.lock.value
        = (· + 1)^[turns.countP (·.written?.isSome)] start.lock.value :=
          run.value_eq_iterate hreach hupdates
      _ = start.lock.value + turns.countP (·.written?.isSome) • (1 : σ) := by
          rw [add_right_iterate]
      _ = start.lock.value + (turns.countP (·.written?.isSome) : σ) := by rw [nsmul_one]

/-- A worker adds one before and after a yield in which another thread adds one. -/
theorem three_increments_across_yield :
    ∃ (start : World Int) (turns : List (Turn Int)) (world : World Int), start.IsNew ∧
      Run .checked start turns world ∧ Updates (· + 1) turns.reverse ∧
      start.lock.intoInner = 5 ∧ turns.countP (·.written?.isSome) = 3 ∧
      world.lock.intoInner = 8 := by
  let start : World Int := { lock := .standard .checked 5 }
  let moves : List (Move Int) :=
    [.call "worker" .adopt, .step "worker", .call "worker" (.read .session),
      .call "other" .acquire, .step "other", .call "worker" (.write .session 6),
      .call "worker" .yieldNow, .step "worker", .step "other", .call "other" (.read .guard),
      .call "other" (.write .guard 7), .call "other" .release, .step "worker", .step "worker",
      .call "worker" (.read .session), .call "worker" (.write .session 8)]
  have hnew : start.IsNew := ⟨.standard .checked 5, rfl⟩
  have hplay : ∃ ready ∈ start.play? .checked moves,
      Updates (· + 1) ready.1.reverse ∧ ready.1.countP (·.written?.isSome) = 3 := by
    decide +kernel
  obtain ⟨⟨turns, world⟩, hturns, hupdates, hcount⟩ := hplay
  have run : Run .checked start turns world := run_of_play? hturns
  have hvalue := (sections_are_isolated hnew run).2.2.2 hupdates
  rw [hcount] at hvalue
  exact ⟨start, turns, world, hnew, run, hupdates, rfl, hcount, hvalue⟩

end

end YieldLock
