import YieldLock.Proofs.Acquiring
import YieldLock.Proofs.Adoption
import YieldLock.Proofs.Calls
import YieldLock.Proofs.Phase

/-!
# Threads that are started as workers

A thread that is started as a worker first tries to become the worker. If it does,
its body runs until it returns or panics, and then the session is dropped with
whatever guards the body has left. If it does not, the thread ends at once and its
body is never run. Main statements: `Run.career`, how far each thread of a run has
come, and `spawned_worker_cleans_up`.
-/

namespace YieldLock

variable {σ : Type}

/-- How a thread's body has ended, if the move is the call by which it does. -/
def Move.outcome? (me : Thread) : Move σ → Option (Option Panic)
  | .call name (.finish outcome) => if name = me then some outcome else none
  | _ => none

/-- How a thread's body has ended in the turns of a run; a body that runs on has no end yet. -/
def outcomesIn (me : Thread) (turns : List (Turn σ)) : List (Option Panic) :=
  turns.filterMap (·.move.outcome? me)

/-- The turn is a call that the body of a thread makes, the one that ends it among them. -/
def Turn.isBodyCall (me : Thread) (turn : Turn σ) : Bool :=
  turn.isCallBy me && (turn.before.thread me).isSpawned

/-- A run in which a thread became the worker that it was started as. -/
def Starts (me : Thread) (turns : List (Turn σ)) : Prop :=
  ∃ turn ∈ turns, turn.Answers me .start .started

namespace ThreadState

section

variable {build : Build} {now : Nat} {me : Thread} {lock : Lock σ} {self : ThreadState σ}
  {call? : Option (Call σ)} {effect : Effect σ}

/-- What a thread has from its start: its title, and whether it was started as a worker. -/
def birth (self : ThreadState σ) : Option String × Bool := (self.title, self.isSpawned)

theorem birth_conclude (lock : Lock σ) (self : ThreadState σ) (call : Call σ) :
    (conclude lock self call).self.birth = self.birth := by
  unfold conclude
  split <;> rfl

theorem birth_fail (lock : Lock σ) (self : ThreadState σ) (call : Call σ) (panic : Panic)
    (entries : List Entry) : (fail lock self call panic entries).self.birth = self.birth := by
  unfold fail
  split <;> rfl

theorem birth_check (me : Thread) (lock : Lock σ) (self : ThreadState σ) (call : Call σ)
    (entries : List Entry) : (check me lock self call entries).self.birth = self.birth := by
  unfold check
  split <;> rfl

/-- What a thread has from its start never changes. -/
theorem Rule.birth_eq (rule : Rule build now me lock self call? effect) :
    effect.self.birth = self.birth := by
  cases rule with
  | obtainUnmatched | startLate | adoptLost | giveUpNested | tearDownFailed => exact birth_fail ..
  | closeRunning | retake | recheck | close => exact birth_check ..
  | dropEnded | finishEnded | mark => exact birth_conclude ..
  | _ => rfl

theorem Rule.isSpawned_eq (rule : Rule build now me lock self call? effect) :
    effect.self.isSpawned = self.isSpawned :=
  congrArg Prod.snd rule.birth_eq

/-- Only a thread that was started as a worker ends by a call of its own, and such a thread never
drops its session otherwise. -/
theorem Rule.isSpawned_of_call {call : Call σ}
    (rule : Rule build now me lock self (some call) effect) :
    (∀ outcome, call = .finish outcome → self.isSpawned = true) ∧
      (call.IsDrop → self.isSpawned = false) := by
  cases rule with
  | finishBegin _ hspawned | finishEnded _ hspawned =>
    refine ⟨fun _ _ ↦ hspawned, ?_⟩
    rintro (h | ⟨_, h⟩) <;> cases h
  | dropBegin _ hcall hspawned | dropEnded _ hcall hspawned =>
    refine ⟨?_, fun _ ↦ hspawned⟩
    rintro outcome rfl
    obtain h | ⟨_, h⟩ := hcall <;> cases h
  | outOfReach _ hcall =>
    obtain rfl | ⟨_, rfl⟩ := hcall
    all_goals exact ⟨nofun, by rintro (h | ⟨_, h⟩) <;> cases h⟩
  | _ => exact ⟨nofun, by rintro (h | ⟨_, h⟩) <;> cases h⟩

/-- After a step a thread is inside the call that the step makes or goes on with. -/
theorem Rule.isIn_of_busy (rule : Rule build now me lock self call? effect) {call : Call σ}
    {point : Point} (hbusy : effect.self.activity = .busy call point) :
    self.IsIn call? call := by
  cases call? with
  | none =>
    obtain ⟨earlier, hearlier, _⟩ := rule.follows_step hbusy
    exact .inr ⟨rfl, earlier, hearlier⟩
  | some made =>
    left
    cases rule with
    | closeRunning => rw [(eq_lowering_of_check hbusy).1]
    | dropEnded | finishEnded => exact absurd hbusy (conclude_ne_busy _ _ _ _ _)
    | reenter | enter | adopt | yieldToExit | yieldToPoll | closeBegin | endBegin | dropBegin
    | finishBegin | joinBegin =>
      cases hbusy
      rfl
    | _ => cases hbusy

theorem outcome_of_conclude {call : Call σ} {outcome : Option Panic}
    (h : (conclude lock self call).self.activity = .finished outcome) :
    call = .finish outcome := by
  unfold conclude at h
  split at h <;> cases h
  rfl

theorem outcome_of_fail {call : Call σ} {panic : Panic} {entries : List Entry}
    {outcome : Option Panic}
    (h : (fail lock self call panic entries).self.activity = .finished outcome) :
    call.boundsLife = true ∧ outcome = some panic := by
  unfold fail at h
  split at h <;> cases h <;> exact ⟨rfl, rfl⟩

/-- A step ends a thread when its body has ended, or when it was started in vain, or when the
teardown panics. -/
theorem Rule.of_finished (rule : Rule build now me lock self call? effect) (h : self.Fits lock me)
    {outcome : Option Panic} (hfinished : effect.self.activity = .finished outcome) :
    self.IsIn call? (.finish outcome) ∨
      (∃ point, self.activity = .busy .start point) ∧ outcome = some .alreadyAdopted ∨
      (∃ call text, self.activity = .busy call (.tearingDown (.fail text))) ∧
        outcome.isSome = true := by
  cases rule with
  | mark hbusy =>
    obtain rfl := outcome_of_conclude hfinished
    exact .inl (.inr ⟨rfl, _, hbusy⟩)
  | dropEnded | finishEnded =>
    exact .inl (.inl (congrArg some (outcome_of_conclude hfinished)))
  | startLate hbusy =>
    obtain ⟨rfl, _⟩ := h.sound.place _ _ hbusy
    exact .inr (.inl ⟨⟨_, hbusy⟩, (outcome_of_fail hfinished).2⟩)
  | adoptLost hbusy =>
    obtain ⟨hlife, houtcome⟩ := outcome_of_fail hfinished
    obtain ⟨rfl | rfl, _⟩ := h.sound.place _ _ hbusy
    · cases hlife
    · exact .inr (.inl ⟨⟨_, hbusy⟩, houtcome⟩)
  | obtainUnmatched hbusy =>
    obtain rfl : _ = Call.acquire := h.sound.place _ _ hbusy
    cases (outcome_of_fail hfinished).1
  | giveUpNested hbusy hsession _ _ hheld =>
    have hlife := h.boundsLife_of_nested hbusy hsession hheld
    cases hlife.symm.trans (outcome_of_fail hfinished).1
  | tearDownFailed hbusy hpanic =>
    obtain ⟨text, rfl⟩ := Teardown.exists_fail_of_panic hpanic
    refine .inr (.inr ⟨⟨_, text, hbusy⟩, ?_⟩)
    rw [(outcome_of_fail hfinished).2]
    rfl
  | closeRunning | retake | recheck | close =>
    unfold check at hfinished
    split at hfinished <;> cases hfinished
  | park hbusy => cases hbusy.symm.trans hfinished
  | _ => cases hfinished

/-- A step that ends a thread answers the call that it is the end of. -/
theorem Rule.answers_of_finished (rule : Rule build now me lock self call? effect)
    {outcome : Option Panic} (hfinished : effect.self.activity = .finished outcome) :
    effect.answers = [.finished] := by
  have hfails (call : Call σ) (hlife : call.boundsLife = true) (panic : Panic) :
      call.failure panic = .finished := by
    cases call with
    | start | finish => rfl
    | _ => cases hlife
  cases rule with
  | obtainUnmatched | startLate | adoptLost | giveUpNested =>
    rw [answers_fail, hfails _ (outcome_of_fail hfinished).1]
  | tearDownFailed =>
    rw [Effect.answers_tornDown]
    exact (answers_fail ..).trans (by rw [hfails _ (outcome_of_fail hfinished).1])
  | dropEnded | finishEnded | mark =>
    rw [answers_conclude, outcome_of_conclude hfinished]
    rfl
  | closeRunning | retake | recheck | close =>
    unfold check at hfinished
    split at hfinished <;> cases hfinished
  | park hbusy => cases hbusy.symm.trans hfinished
  | _ => cases hfinished

/-- A thread whose call is answered is idle, if the call was not its last. -/
theorem Rule.idle_of_answers (rule : Rule build now me lock self call? effect)
    {reply : Answer σ} (hanswers : effect.answers = [reply]) (hreply : reply ≠ .finished) :
    effect.self.activity = .idle := by
  cases hactivity : effect.self.activity with
  | idle => rfl
  | busy call point =>
    have hbusy := rule.isBusy_of_answers (by rw [hanswers]; nofun)
    rw [hactivity] at hbusy
    cases hbusy
  | finished outcome =>
    have hfinished := rule.answers_of_finished hactivity
    rw [hanswers] at hfinished
    exact absurd (List.singleton_inj.mp hfinished) hreply

theorem session_of_conclude (lock : Lock σ) (self : ThreadState σ) (call : Call σ) :
    (conclude lock self call).self.session = self.session ∨
      (∃ outcome, (conclude lock self call).self.activity = .finished outcome) ∨ call.IsDrop := by
  cases call with
  | dropSession => exact .inr (.inr (.inl rfl))
  | unwindSession panic => exact .inr (.inr (.inr ⟨panic, rfl⟩))
  | finish outcome => exact .inr (.inl ⟨outcome, rfl⟩)
  | _ => exact .inl rfl

theorem session_of_fail (lock : Lock σ) (self : ThreadState σ) (call : Call σ) (panic : Panic)
    (entries : List Entry) :
    (fail lock self call panic entries).self.session = self.session ∨
      (∃ outcome, (fail lock self call panic entries).self.activity = .finished outcome) ∨
      call.IsDrop := by
  cases call with
  | dropSession => exact .inr (.inr (.inl rfl))
  | start | finish => exact .inr (.inl ⟨some panic, rfl⟩)
  | _ => exact .inl rfl

/-- A session goes away with its thread or by a call that drops it. -/
theorem Rule.of_session_gone (rule : Rule build now me lock self call? effect)
    (hsession : self.session.isSome = true) (hgone : effect.self.session = none) :
    (∃ outcome, effect.self.activity = .finished outcome) ∨
      ∃ call, self.IsIn call? call ∧ call.IsDrop := by
  have hkept (hsame : effect.self.session = self.session) : False := by
    rw [← hsame, hgone] at hsession
    cases hsession
  cases rule with
  | dropEnded | finishEnded =>
    obtain hsame | hfinished | hdrop := session_of_conclude _ _ _
    · exact (hkept hsame).elim
    · exact .inl hfinished
    · exact .inr ⟨_, .inl rfl, hdrop⟩
  | mark hbusy =>
    obtain hsame | hfinished | hdrop := session_of_conclude _ _ _
    · exact (hkept hsame).elim
    · exact .inl hfinished
    · exact .inr ⟨_, .inr ⟨rfl, _, hbusy⟩, hdrop⟩
  | obtainUnmatched hbusy | startLate hbusy | adoptLost hbusy | tearDownFailed hbusy =>
    obtain hsame | hfinished | hdrop := session_of_fail _ _ _ _ _
    · exact (hkept hsame).elim
    · exact .inl hfinished
    · exact .inr ⟨_, .inr ⟨rfl, _, hbusy⟩, hdrop⟩
  | giveUpNested hbusy =>
    obtain hsame | hfinished | hdrop := session_of_fail _ _ _ _ _
    · cases hsame.symm.trans hgone
    · exact .inl hfinished
    · exact .inr ⟨_, .inr ⟨rfl, _, hbusy⟩, hdrop⟩
  | closeRunning | retake | recheck => exact (hkept (session_check ..)).elim
  | close => cases (session_check ..).symm.trans hgone
  | openNested | openWindow | adoptWon | giveUp => cases hgone
  | _ => exact (hkept rfl).elim

/-- A thread that has ended makes no further step. -/
theorem Rule.ne_finished (rule : Rule build now me lock self call? effect)
    (outcome : Option Panic) : self.activity ≠ .finished outcome := by
  intro hfinished
  cases rule with
  | _ hstands => cases hstands.symm.trans hfinished

/-- A thread that was started as a worker waits, or ends because there is a worker, or becomes the
worker. -/
theorem Rule.of_starting (rule : Rule build now me lock self none effect) (hsound : self.IsSound)
    {point : Point} (hbusy : self.activity = .busy .start point) :
    (∃ point, effect.self.activity = .busy .start point) ∧ effect.events = [] ∨
      effect.self.activity = .finished (some .alreadyAdopted) ∧
        effect.events = [.answered .start .finished] ∨
      effect.self.activity = .idle ∧ effect.self.session = some {} ∧
        .answered .start .started ∈ effect.events ∧ effect.answers = [.started] := by
  obtain ⟨_, _, rfl | rfl⟩ := hsound.place_of_isAdopting (by rw [hbusy]; rfl) hbusy
  · cases rule with
    | start hstands =>
      cases hbusy.symm.trans hstands
      exact .inl ⟨⟨_, rfl⟩, rfl⟩
    | startLate hstands =>
      cases hbusy.symm.trans hstands
      exact .inr (.inl ⟨rfl, rfl⟩)
    | park hstands hwants =>
      cases hbusy.symm.trans hstands
      cases hwants
    | _ hstands => cases hbusy.symm.trans hstands
  · cases rule with
    | park => exact .inl ⟨⟨_, hbusy⟩, rfl⟩
    | adoptLost hstands =>
      cases hbusy.symm.trans hstands
      exact .inr (.inl ⟨rfl, rfl⟩)
    | adoptWon hstands =>
      cases hbusy.symm.trans hstands
      exact .inr (.inr ⟨rfl, rfl, .tail _ (.head _), rfl⟩)
    | _ hstands => cases hbusy.symm.trans hstands

/-- The end of a body goes on until its thread has ended. -/
theorem Rule.of_ending (rule : Rule build now me lock self none effect) (hsound : self.IsSound)
    {outcome : Option Panic} {point : Point}
    (hbusy : self.activity = .busy (.finish outcome) point) :
    (∃ point, effect.self.activity = .busy (.finish outcome) point) ∨
      ∃ ended, effect.self.activity = .finished ended := by
  have hplace := hsound.place _ _ hbusy
  cases rule with
  | giveUp hstands | dispose hstands | disposeNone hstands | tearDown hstands =>
    cases hbusy.symm.trans hstands
    exact .inl ⟨_, rfl⟩
  | giveUpNested hstands | tearDownFailed hstands | mark hstands =>
    cases hbusy.symm.trans hstands
    exact .inr ⟨_, rfl⟩
  | park => exact .inl ⟨point, hbusy⟩
  | obtain hstands | obtainUnmatched hstands | reentered hstands | joined hstands =>
    cases hbusy.symm.trans hstands
    cases hplace
  | adoptLost hstands | adoptWon hstands =>
    cases hbusy.symm.trans hstands
    obtain ⟨h | h, _⟩ := hplace <;> cases h
  | startLate hstands | start hstands | pollNone hstands | pollNested hstands | pollSleep hstands
  | pollFree hstands | wake hstands | retake hstands | recheck hstands | close hstands =>
    cases hbusy.symm.trans hstands
    cases hplace.1

/-- The call that ends a body begins to drop the session, or the session has ended before. -/
theorem Rule.of_finish {outcome : Option Panic}
    (rule : Rule build now me lock self (some (.finish outcome)) effect) :
    (∃ point, effect.self.activity = .busy (.finish outcome) point) ∧
        effect.self.session = self.session ∨
      effect.self.activity = .finished outcome := by
  cases rule with
  | finishBegin => exact .inl ⟨⟨_, rfl⟩, rfl⟩
  | finishEnded => exact .inr rfl
  | outOfReach _ hcall | dropBegin _ hcall | dropEnded _ hcall =>
    obtain h | ⟨_, h⟩ := hcall <;> cases h

/-- The end of a body leaves no guard behind. -/
theorem Rule.guards_of_finish (rule : Rule build now me lock self call? effect)
    (hsound : self.IsSound) {outcome : Option Panic} (hin : self.IsIn call? (.finish outcome)) :
    effect.self.guards = 0 := by
  obtain rfl | ⟨rfl, point, hbusy⟩ := hin
  · cases rule with
    | finishBegin => rfl
    | finishEnded => rw [guards_conclude]
    | outOfReach _ hcall | dropBegin _ hcall | dropEnded _ hcall =>
      obtain h | ⟨_, h⟩ := hcall <;> cases h
  · have hnone := hsound.bounds _ _ hbusy rfl
    have hplace := hsound.place _ _ hbusy
    cases rule with
    | giveUp | dispose | disposeNone | tearDown | park => exact hnone
    | giveUpNested | tearDownFailed => rw [guards_fail, hnone]
    | mark => rw [guards_conclude, hnone]
    | obtain hstands | obtainUnmatched hstands | reentered hstands | joined hstands =>
      cases hbusy.symm.trans hstands
      cases hplace
    | adoptLost hstands | adoptWon hstands =>
      cases hbusy.symm.trans hstands
      obtain ⟨h | h, _⟩ := hplace <;> cases h
    | startLate hstands | start hstands | pollNone hstands | pollNested hstands
    | pollSleep hstands | pollFree hstands | wake hstands | retake hstands | recheck hstands
    | close hstands =>
      cases hbusy.symm.trans hstands
      cases hplace.1

end

end ThreadState

/-- How far a thread has come: it was not started as a worker, or it is about to become the worker,
or it has ended because there is one, or its body runs, or its session is dropped after the end of
the body, or it has ended with its session. -/
inductive Career (installed : Option Teardown) (turns : List (Turn σ)) (world : World σ)
    (me : Thread) : Prop where
  | apart (hspawned : (world.thread me).isSpawned = false)
      (hbusy : ∀ call point, (world.thread me).activity = .busy call point →
        call.boundsLife = false)
      (hactive : ∀ outcome, (world.thread me).activity ≠ .finished outcome)
      (hidle : ∀ turn ∈ turns, turn.isBodyCall me = false) (hunstarted : ¬Starts me turns)
      (hended : outcomesIn me turns = [])
  | begins (hspawned : (world.thread me).isSpawned = true) {point : Point}
      (hbusy : (world.thread me).activity = .busy .start point)
      (hidle : ∀ turn ∈ turns, turn.isBodyCall me = false) (hunstarted : ¬Starts me turns)
      (hended : outcomesIn me turns = [])
  | refused (hspawned : (world.thread me).isSpawned = true)
      (hfinished : (world.thread me).activity = .finished (some .alreadyAdopted))
      (hidle : ∀ turn ∈ turns, turn.isBodyCall me = false) (hunstarted : ¬Starts me turns)
  | works (hspawned : (world.thread me).isSpawned = true)
      (hsession : (world.thread me).session.isSome = true)
      (hbusy : ∀ call point, (world.thread me).activity = .busy call point →
        call.dropsSession = false ∧ call ≠ .start)
      (hstarted : Starts me turns) (hended : outcomesIn me turns = [])
  | ends (hspawned : (world.thread me).isSpawned = true)
      (hsession : (world.thread me).session.isSome = true) {outcome : Option Panic} {point : Point}
      (hbusy : (world.thread me).activity = .busy (.finish outcome) point)
      (hstarted : Starts me turns) (hended : outcomesIn me turns = [outcome])
  | gone (hspawned : (world.thread me).isSpawned = true)
      (hguards : (world.thread me).guards = 0) (hworker : world.lock.worker = some me)
      {outcome : Option Panic}
      (hfinished : (world.thread me).activity = .finished outcome) (hstarted : Starts me turns)
      (hended : outcomesIn me turns = [outcome]) (hlowered : world.lock.keepAlive.isSet = false)
      (hagrees : Agrees installed world.lock (enteredIn turns) .complete)

section

variable {build : Build} {start world : World σ} {turns : List (Turn σ)} {me : Thread}
  {turn : Turn σ}

theorem outcomesIn_snoc (me : Thread) (turns : List (Turn σ)) (turn : Turn σ) :
    outcomesIn me (turns ++ [turn]) = outcomesIn me turns ++ (turn.move.outcome? me).toList := by
  rw [outcomesIn, List.filterMap_append, outcomesIn]
  cases houtcome : turn.move.outcome? me <;> simp [houtcome]

theorem Move.outcome?_of_ne {move : Move σ} (hne : move.thread? ≠ some me) :
    move.outcome? me = none := by
  cases move with
  | call name call =>
    cases call with
    | finish outcome =>
      apply if_neg
      rintro rfl
      exact hne rfl
    | _ => rfl
  | enter | step | pass => rfl

theorem starts_snoc (me : Thread) (turns : List (Turn σ)) (turn : Turn σ) :
    Starts me (turns ++ [turn]) ↔ Starts me turns ∨ turn.Answers me .start .started := by
  unfold Starts
  constructor
  · rintro ⟨other, hmem, hanswers⟩
    rw [List.mem_append, List.mem_singleton] at hmem
    obtain hmem | rfl := hmem
    · exact .inl ⟨other, hmem, hanswers⟩
    · exact .inr hanswers
  · rintro (⟨other, hmem, hanswers⟩ | hanswers)
    · exact ⟨other, List.mem_append_left _ hmem, hanswers⟩
    · exact ⟨turn, List.mem_append_right _ (List.mem_singleton_self turn), hanswers⟩

theorem Starts.snoc (h : Starts me turns) (turn : Turn σ) : Starts me (turns ++ [turn]) :=
  (starts_snoc me turns turn).mpr (.inl h)

/-- A move of another thread leaves a thread where it is in its career, or begins it. -/
theorem Career.of_others {installed : Option Teardown} (h : Career installed turns turn.before me)
    (hreach : Reachable build turn.before) (hmove : turn.IsMove build)
    (hne : turn.move.thread? ≠ some me) : Career installed (turns ++ [turn]) turn.after me := by
  have change := World.change_of_move? hmove
  have hended : outcomesIn me (turns ++ [turn]) = outcomesIn me turns := by
    rw [outcomesIn_snoc, Move.outcome?_of_ne hne]
    exact List.append_nil _
  have hunstarted (h : ¬Starts me turns) : ¬Starts me (turns ++ [turn]) := by
    rw [starts_snoc]
    rintro (hbefore | hanswers)
    · exact h hbefore
    · exact hne hanswers.1
  have hidle (h : ∀ other ∈ turns, other.isBodyCall me = false) :
      ∀ other ∈ turns ++ [turn], other.isBodyCall me = false := by
    rw [List.forall_mem_append, List.forall_mem_singleton]
    exact ⟨h, by rw [Turn.isBodyCall, Turn.isCallBy_of_ne hne]; rfl⟩
  obtain hkept | ⟨hnew, title, hborn⟩ := change.thread_of_others hne
  · cases h with
    | apart hspawned hbusy hactive hnone hfirst hopen =>
      exact .apart (hkept ▸ hspawned) (hkept ▸ hbusy) (hkept ▸ hactive) (hidle hnone)
        (hunstarted hfirst) (hended.trans hopen)
    | begins hspawned hbusy hnone hfirst hopen =>
      exact .begins (hkept ▸ hspawned) (hkept ▸ hbusy) (hidle hnone) (hunstarted hfirst)
        (hended.trans hopen)
    | refused hspawned hfinished hnone hfirst =>
      exact .refused (hkept ▸ hspawned) (hkept ▸ hfinished) (hidle hnone) (hunstarted hfirst)
    | works hspawned hsession hbusy hstarted hopen =>
      exact .works (hkept ▸ hspawned) (hkept ▸ hsession) (hkept ▸ hbusy) (hstarted.snoc turn)
        (hended.trans hopen)
    | ends hspawned hsession hbusy hstarted hone =>
      exact .ends (hkept ▸ hspawned) (hkept ▸ hsession) (hkept ▸ hbusy) (hstarted.snoc turn)
        (hended.trans hone)
    | gone hspawned hguards hworker hfinished hstarted hone hlowered hagrees =>
      have hgone := (hreach.fits me).sound.finished _ hfinished
      have hcomplete := (change.complete_kept hreach hworker hgone).2 hagrees
      refine .gone (hkept ▸ hspawned) (hkept ▸ hguards) (change.advances.worker me hworker)
        (hkept ▸ hfinished) (hstarted.snoc turn) (hended.trans hone)
        (change.advances.keepAlive hlowered) ?_
      rw [enteredIn_append, enteredIn_singleton]
      exact hcomplete
  · have hunknown : turn.before.thread me = {} := Roster.get_of_not_contains hnew
    cases h with
    | apart _ _ _ hnone hfirst hopen =>
      exact .begins (by rw [hborn]; rfl) (by rw [hborn]; rfl) (hidle hnone) (hunstarted hfirst)
        (hended.trans hopen)
    | begins hspawned | refused hspawned | works hspawned | ends hspawned | gone hspawned =>
      rw [hunknown] at hspawned
      cases hspawned

section

variable {installed : Option Teardown} {call? : Option (Call σ)} {effect : Effect σ}

/-- A step that ends a thread together with its session completes the end of the session. -/
theorem gone_of_finished (run : Run build start turns turn.before) (hnew : start.IsNew)
    (hmove : turn.IsMove build) (hafter : turn.after = turn.before.after me effect)
    (hevents : turn.events = effect.events)
    (rule : ThreadState.Rule build turn.before.clock me turn.before.lock (turn.before.thread me)
      call? effect) (hspawned : (turn.before.thread me).isSpawned = true)
    (hsession : (turn.before.thread me).session.isSome = true) {outcome : Option Panic}
    (hin : (turn.before.thread me).IsIn call? (.finish outcome))
    (hfinished : effect.self.activity = .finished outcome) (hstarted : Starts me turns)
    (hended : outcomesIn me (turns ++ [turn]) = [outcome]) :
    Career start.lock.teardown (turns ++ [turn]) turn.after me := by
  have change := World.change_of_move? hmove
  have hreach := run.reachable hnew
  have hfits := hreach.fits me
  obtain ⟨session, hsome⟩ := Option.isSome_iff_exists.mp hsession
  have hself : turn.after.thread me = effect.self := by rw [hafter, World.thread_after_self]
  have hgone : (turn.after.thread me).session = none := by
    rw [hself]
    exact (rule.isSound hfits.sound hfits.session_eq_none).finished _ hfinished
  obtain ⟨hlowered, hend⟩ := change.end_of_dropped hreach (run.endsWell hnew) hsome hgone
  have hagrees : Agrees start.lock.teardown turn.after.lock (enteredIn (turns ++ [turn]))
      .complete := by
    rw [enteredIn_append, enteredIn_singleton]
    refine hend.resolve_left ?_
    rintro ⟨_, _, hdropped⟩
    -- The step belongs to the end of the body, so it does not answer another call.
    have hmem : .answered .dropSession (.panicked .nestedExit) ∈ effect.events := by
      rw [← hevents, hdropped]
      exact List.mem_singleton_self _
    cases hin.unique (rule.isIn_of_answered hfits.sound hmem)
  refine .gone (hself ▸ rule.isSpawned_eq.trans hspawned)
    (hself ▸ rule.guards_of_finish hfits.sound hin) ?_ (hself ▸ hfinished) (hstarted.snoc turn)
    hended hlowered hagrees
  exact change.advances.worker me (hfits.worker hsession)

/-- A thread whose teardown does not panic is not stopped by it. -/
theorem not_tearingDown_fail (run : Run build start turns world) (hnew : start.IsNew)
    (hharmless : ∀ text, start.lock.teardown ≠ some (.fail text)) (call : Call σ)
    (text : String) : (world.thread me).activity ≠ .busy call (.tearingDown (.fail text)) := by
  intro hbusy
  have hsession := ((run.reachable hnew).fits me).sound.place _ _ hbusy
  have hstage : (world.thread me).endStage = some (.takenOut (.fail text)) := by
    rw [ThreadState.endStage, hsession.2, hbusy]
    rfl
  exact hharmless text ((run.endsWell hnew).threads me _ hstage).1

theorem outcomesIn_snoc_of_ne (me : Thread) (turns : List (Turn σ)) {turn : Turn σ}
    (hcalls : turn.move = .ofThread me call?) (hne : ∀ outcome, call? ≠ some (.finish outcome)) :
    outcomesIn me (turns ++ [turn]) = outcomesIn me turns := by
  rw [outcomesIn_snoc, hcalls]
  cases call? with
  | none => exact List.append_nil _
  | some call =>
    cases call with
    | finish outcome => exact absurd rfl (hne outcome)
    | _ => exact List.append_nil _

theorem outcomesIn_snoc_of_finish (me : Thread) (turns : List (Turn σ)) {turn : Turn σ}
    {outcome : Option Panic} (hcalls : turn.move = .call me (.finish outcome)) :
    outcomesIn me (turns ++ [turn]) = outcomesIn me turns ++ [outcome] := by
  have houtcome : turn.move.outcome? me = some outcome := by
    rw [hcalls]
    exact if_pos rfl
  rw [outcomesIn_snoc, houtcome]
  rfl

section

variable (run : Run build start turns turn.before) (hnew : start.IsNew) (hmove : turn.IsMove build)
  (hcalls : turn.move = .ofThread me call?) (hafter : turn.after = turn.before.after me effect)
  (hevents : turn.events = effect.events)
  (rule : ThreadState.Rule build turn.before.clock me turn.before.lock (turn.before.thread me)
    call? effect)

include run hnew hcalls hafter hevents rule

theorem career_of_apart (hharmless : ∀ text, start.lock.teardown ≠ some (.fail text))
    (hspawned : (turn.before.thread me).isSpawned = false)
    (hbusy : ∀ call point, (turn.before.thread me).activity = .busy call point →
      call.boundsLife = false)
    (hidle : ∀ turn ∈ turns, turn.isBodyCall me = false) (hunstarted : ¬Starts me turns)
    (hended : outcomesIn me turns = []) :
    Career start.lock.teardown (turns ++ [turn]) turn.after me := by
  have hfits := (run.reachable hnew).fits me
  have hself : turn.after.thread me = effect.self := by rw [hafter, World.thread_after_self]
  have hin {call : Call σ} (hcall : (turn.before.thread me).IsIn call? call) :
      call.boundsLife = false := by
    obtain rfl | ⟨_, point, hgoes⟩ := hcall
    · cases call with
      | start => exact absurd rfl rule.ne_start
      | finish outcome => cases hspawned.symm.trans (rule.isSpawned_of_call.1 outcome rfl)
      | _ => rfl
    · exact hbusy call point hgoes
  refine .apart ?_ ?_ ?_ ?_ ?_ ?_
  · rw [hself, rule.isSpawned_eq, hspawned]
  · intro call point hbusyAfter
    rw [hself] at hbusyAfter
    exact hin (rule.isIn_of_busy hbusyAfter)
  · intro outcome hfinished
    rw [hself] at hfinished
    obtain hends | ⟨⟨point, hstarts⟩, _⟩ | ⟨⟨call, text, hfails⟩, _⟩ :=
      rule.of_finished hfits hfinished
    · cases hin hends
    · cases hbusy _ _ hstarts
    · exact not_tearingDown_fail run hnew hharmless call text hfails
  · rw [List.forall_mem_append, List.forall_mem_singleton]
    refine ⟨hidle, ?_⟩
    rw [Turn.isBodyCall, hspawned, Bool.and_false]
  · rw [starts_snoc]
    rintro (hbefore | ⟨_, hanswered⟩)
    · exact hunstarted hbefore
    · rw [hevents] at hanswered
      cases hin (rule.isIn_of_answered hfits.sound hanswered)
  · refine (outcomesIn_snoc_of_ne me turns hcalls fun outcome hfinish ↦ ?_).trans hended
    cases hin (.inl hfinish)

theorem career_of_begins {installed : Option Teardown}
    (hspawned : (turn.before.thread me).isSpawned = true) {point : Point}
    (hbusy : (turn.before.thread me).activity = .busy .start point)
    (hidle : ∀ turn ∈ turns, turn.isBodyCall me = false) (hunstarted : ¬Starts me turns)
    (hended : outcomesIn me turns = []) : Career installed (turns ++ [turn]) turn.after me := by
  have hself : turn.after.thread me = effect.self := by rw [hafter, World.thread_after_self]
  have hspawnedAfter : (turn.after.thread me).isSpawned = true := by
    rw [hself, rule.isSpawned_eq, hspawned]
  obtain rfl : call? = none := by
    cases call? with
    | none => rfl
    | some call => cases rule.idle_of_call.symm.trans hbusy
  have hidleAfter : ∀ other ∈ turns ++ [turn], other.isBodyCall me = false := by
    rw [List.forall_mem_append, List.forall_mem_singleton]
    refine ⟨hidle, ?_⟩
    rw [Turn.isBodyCall, Turn.isCallBy, hcalls]
    rfl
  have hendedAfter := (outcomesIn_snoc_of_ne me turns hcalls (by simp)).trans hended
  have hunstartedAfter (hsilent : .answered .start .started ∉ effect.events) :
      ¬Starts me (turns ++ [turn]) := by
    rw [starts_snoc]
    rintro (hbefore | ⟨_, hanswered⟩)
    · exact hunstarted hbefore
    · exact hsilent (hevents ▸ hanswered)
  obtain ⟨⟨later, hlater⟩, hnone⟩ | ⟨hrefused, hshown⟩ | ⟨hactive, hsession, hshown, _⟩ :=
    rule.of_starting ((run.reachable hnew).fits me).sound hbusy
  · refine .begins hspawnedAfter (hself ▸ hlater) hidleAfter (hunstartedAfter ?_) hendedAfter
    rw [hnone]
    simp
  · refine .refused hspawnedAfter (hself ▸ hrefused) hidleAfter (hunstartedAfter ?_)
    rw [hshown, List.mem_singleton]
    simp
  · refine .works hspawnedAfter ?_ ?_ ?_ hendedAfter
    · rw [hself, hsession]
      rfl
    · intro call point hbusyAfter
      rw [hself, hactive] at hbusyAfter
      cases hbusyAfter
    · rw [starts_snoc, Turn.Answers, hevents, hcalls]
      exact .inr ⟨rfl, hshown⟩

include hmove

theorem career_of_works (hharmless : ∀ text, start.lock.teardown ≠ some (.fail text))
    (hspawned : (turn.before.thread me).isSpawned = true)
    (hsession : (turn.before.thread me).session.isSome = true)
    (hbusy : ∀ call point, (turn.before.thread me).activity = .busy call point →
      call.dropsSession = false ∧ call ≠ .start)
    (hstarted : Starts me turns) (hended : outcomesIn me turns = []) :
    Career start.lock.teardown (turns ++ [turn]) turn.after me := by
  have hfits := (run.reachable hnew).fits me
  have hself : turn.after.thread me = effect.self := by rw [hafter, World.thread_after_self]
  have hspawnedAfter : (turn.after.thread me).isSpawned = true := by
    rw [hself, rule.isSpawned_eq, hspawned]
  by_cases hfinish : ∃ outcome, call? = some (.finish outcome)
  · obtain ⟨outcome, rfl⟩ := hfinish
    have hendedAfter : outcomesIn me (turns ++ [turn]) = [outcome] := by
      rw [outcomesIn_snoc_of_finish me turns hcalls, hended]
      rfl
    obtain ⟨⟨point, hending⟩, hkept⟩ | hfinished := rule.of_finish
    · exact .ends hspawnedAfter (by rw [hself, hkept, hsession]) (hself ▸ hending)
        (hstarted.snoc turn) hendedAfter
    · exact gone_of_finished run hnew hmove hafter hevents rule hspawned hsession (.inl rfl)
        hfinished hstarted hendedAfter
  · have hother (outcome : Option Panic) : call? ≠ some (.finish outcome) :=
      fun hcall ↦ hfinish ⟨outcome, hcall⟩
    have hin {call : Call σ} (hcall : (turn.before.thread me).IsIn call? call) :
        call.dropsSession = false ∧ call ≠ .start := by
      obtain rfl | ⟨_, point, hgoes⟩ := hcall
      · refine ⟨?_, rule.ne_start⟩
        cases call with
        | finish outcome => exact absurd rfl (hother outcome)
        | dropSession => cases hspawned.symm.trans (rule.isSpawned_of_call.2 (.inl rfl))
        | unwindSession panic =>
          cases hspawned.symm.trans (rule.isSpawned_of_call.2 (.inr ⟨panic, rfl⟩))
        | _ => rfl
      · exact hbusy call point hgoes
    have hactive (outcome : Option Panic) : effect.self.activity ≠ .finished outcome := by
      intro hfinished
      obtain hends | ⟨⟨point, hstarts⟩, _⟩ | ⟨⟨call, text, hfails⟩, _⟩ :=
        rule.of_finished hfits hfinished
      · cases (hin hends).1
      · exact (hbusy _ _ hstarts).2 rfl
      · exact not_tearingDown_fail run hnew hharmless call text hfails
    refine .works hspawnedAfter ?_ ?_ (hstarted.snoc turn)
      ((outcomesIn_snoc_of_ne me turns hcalls hother).trans hended)
    · rw [hself, Option.isSome_iff_ne_none]
      intro hgone
      obtain ⟨outcome, hfinished⟩ | ⟨call, hcall, hdrop⟩ := rule.of_session_gone hsession hgone
      · exact hactive outcome hfinished
      · obtain rfl | ⟨panic, rfl⟩ := hdrop
        all_goals cases (hin hcall).1
    · intro call point hbusyAfter
      rw [hself] at hbusyAfter
      exact hin (rule.isIn_of_busy hbusyAfter)

theorem career_of_ends (hharmless : ∀ text, start.lock.teardown ≠ some (.fail text))
    (hspawned : (turn.before.thread me).isSpawned = true)
    (hsession : (turn.before.thread me).session.isSome = true) {outcome : Option Panic}
    {point : Point} (hbusy : (turn.before.thread me).activity = .busy (.finish outcome) point)
    (hstarted : Starts me turns) (hended : outcomesIn me turns = [outcome]) :
    Career start.lock.teardown (turns ++ [turn]) turn.after me := by
  have hfits := (run.reachable hnew).fits me
  have hself : turn.after.thread me = effect.self := by rw [hafter, World.thread_after_self]
  have hspawnedAfter : (turn.after.thread me).isSpawned = true := by
    rw [hself, rule.isSpawned_eq, hspawned]
  obtain rfl : call? = none := by
    cases call? with
    | none => rfl
    | some call => cases rule.idle_of_call.symm.trans hbusy
  have hendedAfter := (outcomesIn_snoc_of_ne me turns hcalls nofun).trans hended
  obtain ⟨later, hlater⟩ | ⟨ended, hfinished⟩ := rule.of_ending hfits.sound hbusy
  · refine .ends hspawnedAfter ?_ (hself ▸ hlater) (hstarted.snoc turn) hendedAfter
    rw [hself, Option.isSome_iff_ne_none]
    intro hgone
    obtain ⟨other, hfinished⟩ | ⟨call, hcall, hdrop⟩ := rule.of_session_gone hsession hgone
    · cases hlater.symm.trans hfinished
    · obtain hsome | ⟨_, other, hother⟩ := hcall
      · cases hsome
      · cases hbusy.symm.trans hother
        obtain h | ⟨_, h⟩ := hdrop <;> cases h
  · obtain hends | ⟨⟨other, hstarts⟩, _⟩ | ⟨⟨call, text, hfails⟩, _⟩ :=
      rule.of_finished hfits hfinished
    · obtain hsome | ⟨_, other, hother⟩ := hends
      · cases hsome
      · cases hbusy.symm.trans hother
        exact gone_of_finished run hnew hmove hafter hevents rule hspawned hsession
          (.inr ⟨rfl, point, hbusy⟩) hfinished hstarted hendedAfter
    · cases hbusy.symm.trans hstarts
    · exact absurd hfails (not_tearingDown_fail run hnew hharmless call text)

theorem Career.of_own (h : Career start.lock.teardown turns turn.before me)
    (hharmless : ∀ text, start.lock.teardown ≠ some (.fail text)) :
    Career start.lock.teardown (turns ++ [turn]) turn.after me := by
  cases h with
  | apart hspawned hbusy _ hidle hunstarted hended =>
    exact career_of_apart run hnew hcalls hafter hevents rule hharmless hspawned hbusy hidle
      hunstarted hended
  | begins hspawned hbusy hidle hunstarted hended =>
    exact career_of_begins run hnew hcalls hafter hevents rule hspawned hbusy hidle hunstarted
      hended
  | works hspawned hsession hbusy hstarted hended =>
    exact career_of_works run hnew hmove hcalls hafter hevents rule hharmless hspawned hsession
      hbusy hstarted hended
  | ends hspawned hsession hbusy hstarted hended =>
    exact career_of_ends run hnew hmove hcalls hafter hevents rule hharmless hspawned hsession
      hbusy hstarted hended
  | refused _ hfinished | gone _ _ _ hfinished => exact absurd hfinished (rule.ne_finished _)

end

end

/-- A thread that is idle or has not entered keeps its place when it enters or starts another. -/
theorem Career.of_idle {installed : Option Teardown} (h : Career installed turns turn.before me)
    (hidle : (turn.before.thread me).activity = .idle)
    (hidleAfter : (turn.after.thread me).activity = .idle)
    (hspawned : (turn.after.thread me).isSpawned = (turn.before.thread me).isSpawned)
    (hsession : (turn.after.thread me).session = (turn.before.thread me).session)
    (hsilent : .answered .start .started ∉ turn.events)
    (hended : turn.move.outcome? me = none) : Career installed (turns ++ [turn]) turn.after me := by
  have hendedAfter : outcomesIn me (turns ++ [turn]) = outcomesIn me turns := by
    rw [outcomesIn_snoc, hended]
    exact List.append_nil _
  cases h with
  | apart hapart _ _ hnone hunstarted hopen =>
    refine .apart (hspawned.trans hapart) (by rw [hidleAfter]; nofun) (by rw [hidleAfter]; nofun)
      ?_ ?_ (hendedAfter.trans hopen)
    · rw [List.forall_mem_append, List.forall_mem_singleton]
      refine ⟨hnone, ?_⟩
      rw [Turn.isBodyCall, hapart, Bool.and_false]
    · rw [starts_snoc]
      rintro (hbefore | hanswers)
      · exact hunstarted hbefore
      · exact hsilent hanswers.2
  | works hworks hsome _ hstarted hopen =>
    refine .works (hspawned.trans hworks) (hsession ▸ hsome) ?_ (hstarted.snoc turn)
      (hendedAfter.trans hopen)
    rw [hidleAfter]
    nofun
  | begins _ hbusy | ends _ _ hbusy => cases hidle.symm.trans hbusy
  | refused _ hfinished | gone _ _ _ hfinished => cases hidle.symm.trans hfinished

/-- Every thread of a run has a career, if the teardown does not panic. -/
theorem Run.career (run : Run build start turns world) (hnew : start.IsNew)
    (hharmless : ∀ text, start.lock.teardown ≠ some (.fail text)) (me : Thread) :
    Career start.lock.teardown turns world me := by
  induction run with
  | nil =>
    have hself := World.thread_of_new hnew me
    refine .apart (by rw [hself]) (by rw [hself]; nofun) (by rw [hself]; nofun)
      (List.forall_mem_nil _) ?_ rfl
    rintro ⟨turn, hmem, _⟩
    cases hmem
  | @snoc turns turn run hmove ih =>
    by_cases hmine : turn.move.thread? = some me
    · obtain ⟨before, move, after, events⟩ := turn
      have change : World.Change build before move after events := World.change_of_move? hmove
      cases change with
      | enter name title hunknown =>
        obtain rfl := Option.some_inj.mp hmine
        have hbefore : before.thread name = {} := Roster.get_of_not_contains hunknown
        have hafter : (before.enlist name title).thread name = { title } := by
          rw [World.thread_enlist, if_pos rfl]
        apply ih.of_idle <;> simp [hbefore, hafter, Move.outcome?]
      | pass => cases hmine
      | own name call? effect _ rule =>
        rw [Move.thread?_ofThread, Option.some_inj] at hmine
        subst hmine
        exact ih.of_own run hnew hmove rfl rfl rfl rule hharmless
      | spawn name child hidle =>
        obtain rfl := Option.some_inj.mp hmine
        apply ih.of_idle hidle <;> simp [World.thread, Move.outcome?] at hidle ⊢
        exact hidle
      | spawnRefused name child hidle =>
        obtain rfl := Option.some_inj.mp hmine
        apply ih.of_idle hidle hidle rfl rfl <;> simp [Move.outcome?]
    · exact ih.of_others (run.reachable hnew) hmove hmine

end

namespace World

section

variable {build : Build} {world later next : World σ} {child parent me : Thread}
  {outcome : Option Panic} {move : Move σ} {events : List (Event σ)}

/-- A thread that has ended stays as it ended. -/
theorem Change.finished_kept (change : Change build world move next events)
    (hfinished : (world.thread child).activity = .finished outcome) :
    (next.thread child).activity = .finished outcome := by
  have hknown : world.thread child ≠ {} := by
    intro hdefault
    rw [hdefault] at hfinished
    cases hfinished
  cases change.changeOf hknown with
  | others _ hself => rw [hself, hfinished]
  | own _ _ rule => exact absurd hfinished (rule.ne_finished outcome)
  | spawns hidle => cases hidle.symm.trans hfinished

end

end World

section

variable {build : Build} {start world : World σ} {turns : List (Turn σ)} {me : Thread}

end

end YieldLock
