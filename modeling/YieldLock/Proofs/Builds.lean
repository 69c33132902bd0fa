import YieldLock.Proofs.Phase

/-!
# The two builds

As long as no assertion is raised, the unchecked build takes the same steps as
the checked one. An assertion is always the only thing that its step shows, so
nothing before the first one tells the two builds apart. A rule speaks of one
build, so steps are compared by their definition here. Main statements:
`World.move?_agrees` and `Run.unchecked`.
-/

namespace YieldLock

variable {σ α β : Type}

/-- The results of a step in the checked and in the unchecked build are the same, or the one in the
checked build has raised an assertion. -/
inductive AgreesUnless (raised : α → Prop) : Option α → Option α → Prop where
  | same (result : Option α) : AgreesUnless raised result result
  | raised {checked unchecked : α} (h : raised checked) :
      AgreesUnless raised (some checked) (some unchecked)

namespace AgreesUnless

variable {raised : α → Prop} {checked unchecked : Option α}

theorem isSome_eq (h : AgreesUnless raised checked unchecked) :
    checked.isSome = unchecked.isSome := by
  cases h with
  | same | raised => rfl

theorem eq_of_not (h : AgreesUnless raised checked unchecked)
    (hclean : ∀ result, checked = some result → ¬raised result) : checked = unchecked := by
  cases h with
  | same => rfl
  | raised h => exact absurd h (hclean _ rfl)

theorem eq_or (h : AgreesUnless raised checked unchecked) :
    checked = unchecked ∨
      ∃ first other, checked = some first ∧ unchecked = some other ∧ raised first := by
  cases h with
  | same => exact .inl rfl
  | raised h => exact .inr ⟨_, _, rfl, rfl, h⟩

theorem or {more other : Option α} (h : AgreesUnless raised checked unchecked)
    (hmore : AgreesUnless raised more other) :
    AgreesUnless raised (checked.or more) (unchecked.or other) := by
  cases h with
  | same =>
    cases checked with
    | none => exact hmore
    | some => exact .same _
  | raised h => exact .raised h

theorem map {also : β → Prop} (h : AgreesUnless raised checked unchecked) (f : α → β)
    (hf : ∀ result, raised result → also (f result)) :
    AgreesUnless also (checked.map f) (unchecked.map f) := by
  cases h with
  | same => exact .same _
  | raised h => exact .raised (hf _ h)

/-- The first of a list to have a result is the same in both builds. -/
theorem findSome? {f g : β → Option α} {list : List β}
    (h : ∀ element ∈ list, AgreesUnless raised (f element) (g element)) :
    AgreesUnless raised (list.findSome? f) (list.findSome? g) := by
  induction list with
  | nil => exact .same none
  | cons head rest ih =>
    have hrest := ih fun element hmem ↦ h element (List.mem_cons_of_mem head hmem)
    have hor (f : β → Option α) : (head :: rest).findSome? f = (f head).or (rest.findSome? f) := by
      rw [List.findSome?_cons]
      cases f head with
      | none | some => rfl
    rw [hor f, hor g]
    exact (h head List.mem_cons_self).or hrest

end AgreesUnless

/-- What was shown is an answer, namely the panic of an assertion. -/
def Asserts (events : List (Event σ)) : Prop :=
  ∃ call panic, events = [.answered call (.panicked panic)] ∧ call.isUnwinding = false ∧
    panic.isAssertion = true

theorem raises_of_asserts {events : List (Event σ)} (h : Asserts events) :
    events.any (·.raises Panic.isAssertion) = true := by
  obtain ⟨call, panic, rfl, hcall, hpanic⟩ := h
  rw [List.any_cons, Event.raises, hcall, hpanic]
  rfl

namespace ThreadState

section

variable (now : Nat) (me : Thread) (lock : Lock σ) (self : ThreadState σ)

theorem beginYield_agrees (session : Session) :
    AgreesUnless (Asserts ·.events) (some (beginYield .checked me lock self session))
      (some (beginYield .unchecked me lock self session)) := by
  unfold beginYield
  cases session.phase with
  | running | terminated => exact .same _
  | yielding => exact .raised ⟨_, _, rfl, rfl, rfl⟩

theorem openWindow_agrees (session : Session) :
    AgreesUnless (Asserts ·.events) (some (openWindow .checked me lock self session))
      (some (openWindow .unchecked me lock self session)) := by
  unfold openWindow
  cases session.phase with
  | terminated => exact .same _
  | yielding => exact .raised ⟨_, _, rfl, rfl, rfl⟩
  | running =>
    cases hheld : (lock.mutex.giveBackIf me session.holds).isHeldBy me with
    | true =>
      simp only [hheld]
      exact .raised ⟨_, _, rfl, rfl, rfl⟩
    | false =>
      simp only [hheld, Bool.and_false]
      exact .same _

theorem beginClose_agrees (session : Session) :
    AgreesUnless (Asserts ·.events) (some (beginClose .checked me lock self session))
      (some (beginClose .unchecked me lock self session)) := by
  unfold beginClose
  cases session.phase with
  | yielding | terminated => exact .same _
  | running => exact .raised ⟨_, _, rfl, rfl, rfl⟩

theorem obtain_agrees (watch : Stopwatch) (taken : Lock σ) :
    AgreesUnless (Asserts ·.events) (some (obtain .checked now watch me self .acquire taken))
      (some (obtain .unchecked now watch me self .acquire taken)) := by
  unfold obtain
  cases taken.waiters.isMatched with
  | true => exact .same _
  | false => exact .raised ⟨_, _, rfl, rfl, rfl⟩

theorem poll_agrees :
    AgreesUnless (Asserts ·.events) (some (poll .checked me lock self .yieldNow))
      (some (poll .unchecked me lock self .yieldNow)) := by
  unfold poll
  split
  · exact .same _
  split
  · cases hheld : (lock.mutex.giveBack me).isHeldBy me with
    | true =>
      simp only [hheld]
      exact .raised ⟨_, _, rfl, rfl, rfl⟩
    | false =>
      simp only [hheld, Bool.and_false]
      exact .same _
  · exact .same _

end

section

variable {me : Thread} {lock : Lock σ} {self : ThreadState σ}

theorem giveUp_agrees (h : self.Fits lock me) {call : Call σ} {session : Session}
    (hbusy : self.activity = .busy call .lowering) (hsession : self.session = some session) :
    AgreesUnless (Asserts ·.events) (some (giveUp .checked me lock self call session))
      (some (giveUp .unchecked me lock self call session)) := by
  unfold giveUp
  cases hheld : (lock.mutex.giveBackIf me session.holds).isHeldBy me with
  | false =>
    simp only [hheld, Bool.and_false]
    exact .same _
  | true =>
    cases hcall : call.isUnwinding with
    | true =>
      simp only [Bool.not_true, Bool.and_false]
      exact .same _
    | false =>
      simp only [hheld]
      have hlife := h.boundsLife_of_nested hbusy hsession hheld
      exact .raised ⟨call, _, events_fail _ _ _ _ hlife, hcall, rfl⟩

theorem withLock?_agrees {next other : Lock σ → Effect σ}
    (h : ∀ taken, AgreesUnless (Asserts ·.events) (some (next taken)) (some (other taken))) :
    AgreesUnless (Asserts ·.events) (withLock? me lock self next)
      (withLock? me lock self other) := by
  unfold withLock?
  split
  · exact h _
  · exact .same _

/-- The first step of a call is the same in both builds unless an assertion is raised. -/
theorem invoke?_agrees (now : Nat) (me : Thread) (lock : Lock σ) (self : ThreadState σ)
    (call : Call σ) :
    AgreesUnless (Asserts ·.events) (self.invoke? .checked now me lock call)
      (self.invoke? .unchecked now me lock call) := by
  unfold invoke?
  split
  · exact .same none
  cases call with
  | yieldNow =>
    cases self.session with
    | none => exact .same none
    | some session => exact beginYield_agrees me lock self session
  | openWindow =>
    cases self.session with
    | none => exact .same none
    | some session => exact openWindow_agrees me lock self session
  | closeWindow =>
    cases self.session with
    | none => exact .same none
    | some session => exact beginClose_agrees me lock self session
  | _ => exact .same _

/-- A further step of a thread that fits is the same in both builds if no assertion is raised. -/
theorem step?_agrees (now : Nat) (h : self.Fits lock me) :
    AgreesUnless (Asserts ·.events) (self.step? .checked now me lock)
      (self.step? .unchecked now me lock) := by
  unfold step?
  cases hactivity : self.activity with
  | idle | finished => exact .same none
  | busy call point =>
    have hplace := h.sound.place _ _ hactivity
    cases point with
    | waiting watch =>
      obtain rfl : call = .acquire := hplace
      exact withLock?_agrees (obtain_agrees now me self watch)
    | polling =>
      obtain ⟨rfl, _⟩ := hplace
      exact poll_agrees me lock self
    | lowering =>
      obtain ⟨_, session, hsession, _⟩ := hplace
      simp only [hsession, Option.map_some]
      exact giveUp_agrees h hactivity hsession
    | _ => exact .same _

end

end ThreadState

namespace World

variable {world : World σ} {name : Thread}

theorem call?_agrees (world : World σ) (name : Thread) (call : Call σ) :
    AgreesUnless (Asserts ·.2) (world.call? .checked name call)
      (world.call? .unchecked name call) := by
  cases hspawn : call.isSpawn with
  | true =>
    cases call with
    | spawn => exact .same _
    | _ => cases hspawn
  | false =>
    rw [call?_of_not_spawn world name hspawn, call?_of_not_spawn world name hspawn]
    split
    · exact (ThreadState.invoke?_agrees _ name _ _ call).map _ fun _ ↦ id
    · exact .same none

theorem step?_agrees (h : (world.thread name).Fits world.lock name) :
    AgreesUnless (Asserts ·.2) (world.step? .checked name) (world.step? .unchecked name) := by
  unfold step?
  simp only
  split
  · exact .same _
  · exact (ThreadState.step?_agrees world.clock h).map _ fun _ ↦ id

/-- A move is the same in both builds unless an assertion is raised. -/
theorem move?_agrees (h : world.AllFit) (move : Move σ) :
    AgreesUnless (Asserts ·.2) (world.move? .checked move) (world.move? .unchecked move) := by
  cases move with
  | enter | pass => exact .same _
  | call name call => exact call?_agrees world name call
  | step name => exact step?_agrees (h name)

end World

/-- A run of the checked build in which no assertion is raised is one of the unchecked build. -/
theorem Run.unchecked {start world : World σ} {turns : List (Turn σ)}
    (run : Run .checked start turns world) (hnew : start.IsNew)
    (hclean : ∀ turn ∈ turns, turn.raises Panic.isAssertion = false) :
    Run .unchecked start turns world := by
  induction run with
  | nil => exact .nil
  | @snoc turns turn run hmove ih =>
    have hearlier := ih fun other hmem ↦ hclean other (List.mem_append_left _ hmem)
    have hlast : turn.raises Panic.isAssertion = false :=
      hclean turn (List.mem_append_right _ (List.mem_singleton_self turn))
    refine .snoc hearlier (Eq.trans (Eq.symm ?_) hmove)
    apply (World.move?_agrees (run.reachable hnew).fits turn.move).eq_of_not
    intro result hresult hasserts
    obtain rfl : (turn.after, turn.events) = result := Option.some_inj.mp (hmove.symm.trans hresult)
    rw [Turn.raises, raises_of_asserts hasserts] at hlast
    cases hlast

end YieldLock
