import YieldLock.Proofs.Soundness

/-!
# What a run has shown

A step shows the lines that it logs, perhaps a teardown, and at most one answer.
Each way in which a step can go on or end comes with a lemma on all that it
shows. Main statements: `Rule.origin`, where the events of a step come from,
`Turn.exists_rule_of_answers`, a call is answered by a step that makes it or goes
on with it, and `Run.spent_add_countP_le`, events that use up something of the
world are no more than what has been used up.
-/

namespace YieldLock

variable {σ : Type}

/-- What the turns of a run showed, in order. -/
def shownIn (turns : List (Turn σ)) : List (Event σ) := turns.flatMap Turn.events

theorem countP_shownIn_snoc (p : Event σ → Bool) (turns : List (Turn σ)) (turn : Turn σ) :
    (shownIn (turns ++ [turn])).countP p = (shownIn turns).countP p + turn.events.countP p := by
  rw [shownIn, List.flatMap_append, List.flatMap_singleton, List.countP_append]
  rfl

/-- A teardown leaves notes, and the first request for shutdown may come from it. -/
theorem Teardown.entry_of_run (thread : Thread) (lock : Lock σ) (teardown : Teardown) :
    ∀ line ∈ (teardown.run thread lock).1, (∃ text, line = .noted text) ∨
      ∃ message ∈ (lock.requestShutdown thread).2.1, line = .logged message := by
  intro line hline
  cases teardown with
  | note text => exact .inl ⟨text, List.mem_singleton.mp hline⟩
  | probe =>
    obtain hlogged | hnoted := List.mem_append.mp hline
    · obtain ⟨message, hmessage, rfl⟩ := List.mem_map.mp hlogged
      exact .inr ⟨message, hmessage, rfl⟩
    · exact .inl ⟨_, List.mem_singleton.mp hnoted⟩
  | fail text => cases hline

/-- The line in which a worker notes that it sleeps. -/
def Entry.isSleep : Entry → Bool
  | slept _ => true
  | _ => false

namespace ThreadState

section

variable (lock : Lock σ) (self : ThreadState σ) (call : Call σ) (entries : List Entry)

theorem events_conclude :
    (conclude lock self call).events = [.answered call call.ending] := by
  unfold conclude
  cases call <;> rfl

theorem shown_fail (panic : Panic) :
    (fail lock self call panic entries).events =
      entries.map .entry ++ [.answered call (call.failure panic)] := by
  unfold fail
  cases call <;> rfl

theorem answered_conclude : .answered call call.ending ∈ (conclude lock self call).events := by
  rw [events_conclude]
  exact List.mem_singleton_self _

theorem answered_fail (panic : Panic) :
    .answered call (call.failure panic) ∈ (fail lock self call panic entries).events := by
  rw [shown_fail]
  exact List.mem_append_right _ (List.mem_singleton_self _)

theorem events_check (me : Thread) :
    (check me lock self call entries).events =
      entries.map .entry ++
        if lock.shouldExit me then [] else [.answered call (.flow .proceed)] := by
  unfold check
  split
  · exact (List.append_nil _).symm
  · rfl

variable (P : Event σ → Prop)

theorem forall_shown_answer (reply : Answer σ) :
    (∀ event ∈ (answer lock self call reply entries).events, P event) ↔
      (∀ line ∈ entries, P (.entry line)) ∧ P (.answered call reply) := by
  simp only [answer, List.forall_mem_append, List.forall_mem_map, List.forall_mem_singleton]

theorem forall_shown_goOn (point : Point) :
    (∀ event ∈ (goOn lock self call point entries).events, P event) ↔
      ∀ line ∈ entries, P (.entry line) :=
  List.forall_mem_map

theorem forall_shown_conclude :
    (∀ event ∈ (conclude lock self call).events, P event) ↔ P (.answered call call.ending) := by
  rw [events_conclude, List.forall_mem_singleton]

theorem forall_shown_fail (panic : Panic) :
    (∀ event ∈ (fail lock self call panic entries).events, P event) ↔
      (∀ line ∈ entries, P (.entry line)) ∧ P (.answered call (call.failure panic)) := by
  rw [shown_fail, List.forall_mem_append, List.forall_mem_map, List.forall_mem_singleton]

theorem forall_shown_check (me : Thread) :
    (∀ event ∈ (check me lock self call entries).events, P event) ↔
      (∀ line ∈ entries, P (.entry line)) ∧
        (lock.shouldExit me = false → P (.answered call (.flow .proceed))) := by
  rw [events_check, List.forall_mem_append, List.forall_mem_map]
  split <;> simp_all

end

/-- The call that a step of the thread makes, or goes on with if it makes none. -/
def IsIn (self : ThreadState σ) (call? : Option (Call σ)) (call : Call σ) : Prop :=
  call? = some call ∨ call? = none ∧ ∃ point, self.activity = .busy call point

/-- A step belongs to one call. -/
theorem IsIn.unique {self : ThreadState σ} {call? : Option (Call σ)} {call other : Call σ}
    (h : self.IsIn call? call) (hother : self.IsIn call? other) : call = other := by
  obtain rfl | ⟨rfl, point, hbusy⟩ := h
  · obtain hmade | ⟨hnone, _⟩ := hother
    · exact Option.some_inj.mp hmade
    · cases hnone
  · obtain hmade | ⟨_, later, hlater⟩ := hother
    · cases hmade
    · exact (Activity.busy.inj (hbusy.symm.trans hlater)).1

/-- What an event that a step shows tells of the place where its thread stood. -/
inductive Origin (self : ThreadState σ) (call? : Option (Call σ)) : Event σ → Prop where
  | logged (message : Message) : Origin self call? (.entry (.logged message))
  | noted (text : String) (call : Call σ) (teardown : Teardown)
      (hbusy : self.activity = .busy call (.tearingDown teardown)) :
      Origin self call? (.entry (.noted text))
  | slept (span : Duration) (call : Call σ) (hbusy : self.activity = .busy call .polling) :
      Origin self call? (.entry (.slept span))
  | tornDown (teardown : Teardown) (call : Call σ)
      (hbusy : self.activity = .busy call (.tearingDown teardown)) :
      Origin self call? (.tornDown teardown)
  | answered (call : Call σ) (reply : Answer σ) (hin : self.IsIn call? call) :
      Origin self call? (.answered call reply)

section

variable {build : Build} {now : Nat} {me : Thread} {lock : Lock σ} {self : ThreadState σ}
  {call? : Option (Call σ)} {effect : Effect σ}

theorem Rule.origin (rule : Rule build now me lock self call? effect) (hsound : self.IsSound) :
    ∀ event ∈ effect.events, Origin self call? event := by
  have hnone : ∀ line ∈ [], Origin self call? (.entry line) := List.forall_mem_nil _
  have hlogged (message : Message) :
      ∀ line ∈ [Entry.logged message], Origin self call? (.entry line) :=
    List.forall_mem_singleton.mpr (.logged message)
  have hrun {call : Call σ} {teardown : Teardown}
      (hbusy : self.activity = .busy call (.tearingDown teardown)) :
      ∀ line ∈ (teardown.run me lock).1, Origin self call? (.entry line) := by
    intro line hline
    obtain ⟨text, rfl⟩ | ⟨message, _, rfl⟩ := teardown.entry_of_run me lock line hline
    · exact .noted text call teardown hbusy
    · exact .logged message
  cases rule with
  | reenter | endBegin =>
    refine (forall_shown_goOn ..).mpr ?_
    split
    · exact hlogged _
    · exact hnone
  | enter | adopt | yieldToExit | yieldToPoll | closeBegin | dropBegin | finishBegin | joinBegin
  | start | wake | dispose | disposeNone =>
    exact (forall_shown_goOn ..).mpr hnone
  | pollFree | giveUp => exact (forall_shown_goOn ..).mpr (hlogged _)
  | pollSleep hbusy =>
    exact (forall_shown_goOn ..).mpr (List.forall_mem_singleton.mpr (.slept _ _ hbusy))
  | park => exact List.forall_mem_nil _
  | tearDown hbusy =>
    exact List.forall_mem_cons.mpr ⟨.tornDown _ _ hbusy, List.forall_mem_map.mpr (hrun hbusy)⟩
  | tearDownFailed hbusy =>
    refine List.forall_mem_cons.mpr ⟨.tornDown _ _ hbusy, (forall_shown_fail ..).mpr ?_⟩
    exact ⟨hrun hbusy, .answered _ _ (.inr ⟨rfl, _, hbusy⟩)⟩
  | obtainUnmatched hbusy | startLate hbusy | adoptLost hbusy | giveUpNested hbusy =>
    exact (forall_shown_fail ..).mpr ⟨hnone, .answered _ _ (.inr ⟨rfl, _, hbusy⟩)⟩
  | dropEnded | finishEnded => exact (forall_shown_conclude ..).mpr (.answered _ _ (.inl rfl))
  | mark hbusy =>
    exact (forall_shown_conclude ..).mpr (.answered _ _ (.inr ⟨rfl, _, hbusy⟩))
  | closeRunning =>
    exact (forall_shown_check ..).mpr ⟨hnone, fun _ ↦ .answered _ _ (.inl rfl)⟩
  | recheck hbusy | close hbusy =>
    exact (forall_shown_check ..).mpr ⟨hnone, fun _ ↦ .answered _ _ (.inr ⟨rfl, _, hbusy⟩)⟩
  | retake hbusy =>
    exact (forall_shown_check ..).mpr ⟨hlogged _, fun _ ↦ .answered _ _ (.inr ⟨rfl, _, hbusy⟩)⟩
  | obtain hbusy | reentered hbusy | pollNone hbusy | pollNested hbusy =>
    exact (forall_shown_answer ..).mpr ⟨hnone, .answered _ _ (.inr ⟨rfl, _, hbusy⟩)⟩
  | adoptWon hbusy =>
    exact (forall_shown_answer ..).mpr ⟨hlogged _, .answered _ _ (.inr ⟨rfl, _, hbusy⟩)⟩
  | joined hbusy =>
    obtain rfl := hsound.place _ _ hbusy
    exact (forall_shown_answer ..).mpr ⟨hnone, .answered _ _ (.inr ⟨rfl, _, hbusy⟩)⟩
  | request =>
    refine (forall_shown_answer ..).mpr ⟨List.forall_mem_map.mpr fun message _ ↦ ?_, ?_⟩
    · exact .logged message
    · exact .answered _ _ (.inl rfl)
  | yieldAfterExit | openAfterExit | closeAfterExit =>
    exact (forall_shown_answer ..).mpr ⟨hlogged _, .answered _ _ (.inl rfl)⟩
  | _ => exact (forall_shown_answer ..).mpr ⟨hnone, .answered _ _ (.inl rfl)⟩

/-- A step answers no call but the one that it makes or goes on with. -/
theorem Rule.isIn_of_answered (rule : Rule build now me lock self call? effect)
    (hsound : self.IsSound) {call : Call σ} {reply : Answer σ}
    (h : .answered call reply ∈ effect.events) : self.IsIn call? call := by
  cases rule.origin hsound _ h with
  | answered _ _ hin => exact hin

end

end ThreadState

section

variable {build : Build} {start world : World σ} {turns : List (Turn σ)}

/-- A call that is answered at once and leaves the lock as it is leaves everything as it is. -/
theorem World.call?_of_unchanged {me : Thread} {call : Call σ} {reply : Answer σ}
    (hspawn : call.isSpawn = false) (hidle : (world.thread me).activity = .idle)
    (hroom : world.hasRoomFor [me] = true)
    (hinvoke : (world.thread me).invoke? build world.clock me world.lock call =
      some (ThreadState.answer world.lock (world.thread me) call reply [])) :
    ∃ next, world.call? build me call = some (next, [.answered call reply]) ∧
      next.lock = world.lock ∧ ∀ name, next.thread name = world.thread name := by
  refine ⟨world.after me (ThreadState.answer world.lock (world.thread me) call reply []), ?_, rfl,
    fun name ↦ ?_⟩
  · rw [call?_of_not_spawn world me hspawn, if_pos hroom, hinvoke]
    rfl
  · rw [thread_after]
    split
    · subst name
      rw [ThreadState.self_answer, ← hidle]
    · rfl

theorem Turn.IsMove.call?_eq {turn : Turn σ} {me : Thread} {call : Call σ}
    (hmove : turn.IsMove build) (hcalls : turn.move = .call me call) :
    turn.before.call? build me call = some (turn.after, turn.events) := by
  rw [IsMove, hcalls] at hmove
  exact hmove

theorem Turn.IsMove.step?_eq {turn : Turn σ} {me : Thread} (hmove : turn.IsMove build)
    (hsteps : turn.move = .step me) :
    turn.before.step? build me = some (turn.after, turn.events) := by
  rw [IsMove, hsteps] at hmove
  exact hmove

/-- A call other than a spawn is answered by a step of its thread that makes the call or goes on
with it. -/
theorem Turn.exists_rule_of_answers {turn : Turn σ} {me : Thread} {call : Call σ}
    {reply : Answer σ} (hmove : turn.IsMove build)
    (hsound : (turn.before.thread me).IsSound) (hspawn : call.isSpawn = false)
    (h : turn.Answers me call reply) :
    ∃ call? effect,
      ThreadState.Rule build turn.before.clock me turn.before.lock (turn.before.thread me) call?
        effect ∧
      (turn.before.thread me).IsIn call? call ∧ turn.move = .ofThread me call? ∧
      turn.after = turn.before.after me effect ∧ turn.events = effect.events := by
  obtain ⟨before, move, after, events⟩ := turn
  obtain ⟨hmine, hevent⟩ := h
  have change : World.Change build before move after events := World.change_of_move? hmove
  cases change with
  | enter | pass => cases hevent
  | own name call? effect _ rule =>
    rw [Move.thread?_ofThread, Option.some_inj] at hmine
    subst hmine
    exact ⟨call?, effect, rule, rule.isIn_of_answered hsound hevent, rfl, rfl, rfl⟩
  | spawn | spawnRefused =>
    cases List.mem_singleton.mp hevent
    cases hspawn

/-- Every turn of a run splits it into a part before and a part after. -/
theorem Run.exists_split {turn : Turn σ} (run : Run build start turns world)
    (hmem : turn ∈ turns) :
    ∃ earlier later, turns = earlier ++ turn :: later ∧ Run build start earlier turn.before ∧
      turn.IsMove build ∧ Run build turn.after later world := by
  induction run with
  | nil => cases hmem
  | @snoc turns last run hmove ih =>
    rw [List.mem_append, List.mem_singleton] at hmem
    obtain hmem | rfl := hmem
    · obtain ⟨earlier, later, rfl, hbefore, hturn, hafter⟩ := ih hmem
      exact ⟨earlier, later ++ [last], List.append_assoc .., hbefore, hturn, .snoc hafter hmove⟩
    · exact ⟨turns, [], rfl, run, hmove, .nil⟩

/-- Every turn of a run is a move from a reachable world. -/
theorem Run.isMove_of_mem {turn : Turn σ} (run : Run build start turns world)
    (h : Reachable build start) (hmem : turn ∈ turns) :
    Reachable build turn.before ∧ turn.IsMove build := by
  obtain ⟨_, _, hbefore, hmove⟩ := run.exists_of_mem hmem
  exact ⟨h.run hbefore, hmove⟩

/-- If each event of a kind uses up one of something that a world has only more of used up later,
then a run has shown no more of them than were used up in it. -/
theorem Run.spent_add_countP_le (run : Run build start turns world) (h : Reachable build start)
    (p : Event σ → Bool) (spent : World σ → Nat)
    (step : ∀ turn : Turn σ, Reachable build turn.before → turn.IsMove build →
      spent turn.before + turn.events.countP p ≤ spent turn.after) :
    spent start + (shownIn turns).countP p ≤ spent world := by
  induction run with
  | nil => exact Nat.le_refl _
  | @snoc turns turn run hmove ih =>
    calc
      _ = spent start + (shownIn turns).countP p + turn.events.countP p := by
        rw [countP_shownIn_snoc, Nat.add_assoc]
      _ ≤ spent turn.before + turn.events.countP p := Nat.add_le_add_right ih _
      _ ≤ spent turn.after := step turn (h.run run) hmove

end

end YieldLock
