import Mathlib.Data.List.Basic
import Mathlib.Data.List.TakeWhile
import YieldLock.Proofs.Nesting

/-!
# The calls of a history

A history tells which call a thread has made last, of which kind the call is, and
whether it has taken a level of the lock since. The kind is what a counter may be
kept of: the threads' acquisitions, the yields of a running session, and the
windows that are closed. Main statements: `served_snoc_of_last` and
`served_snoc_of_taken`, how the number of calls that have taken a level grows, and
`Run.explained`, where a thread stands follows from its last call.
-/

namespace YieldLock

variable {σ : Type}

/-- The thread that makes a call by a move. -/
def Move.caller? : Move σ → Option Thread
  | .call name _ => some name
  | _ => none

namespace Turn

def isCall (turn : Turn σ) : Bool := turn.move.caller?.isSome

def isCallBy (me : Thread) (turn : Turn σ) : Bool := turn.move.caller? == some me

/-- The turn belongs to a thread and leaves it with more levels of the lock. -/
def takesLevel (me : Thread) (turn : Turn σ) : Bool :=
  turn.move.thread? == some me &&
    turn.before.lock.mutex.depth me < turn.after.lock.mutex.depth me

end Turn

/-- The kinds of calls that a counter is kept of. -/
inductive CallKind where
  | acquisition
  | yield
  | window
  deriving DecidableEq, Repr

/-- The kind of the call that is made in a turn: an acquisition by a thread that is not the recorded
worker, a yield of a running session, or a window that is closed by a session that has opened it. No
counter is kept of any other call. -/
def Turn.kind? (turn : Turn σ) : Option CallKind :=
  match turn.move with
  | .call me .acquire => if turn.before.lock.isWorker me then none else some .acquisition
  | .call me .yieldNow =>
    if (turn.before.thread me).phase? = some .running then some .yield else none
  | .call me .closeWindow =>
    if (turn.before.thread me).phase? = some .yielding then some .window else none
  | _ => none

/-- The turns up to the next call of a thread. -/
def untilCall (me : Thread) (turns : List (Turn σ)) : List (Turn σ) :=
  turns.takeWhile (!·.isCallBy me)

/-- The call that was made in a turn has taken a level of the lock in the turns that followed. -/
def Turn.hasTaken (asked : Turn σ) (later : List (Turn σ)) : Bool :=
  asked.move.caller?.any fun me ↦ (untilCall me later).any (·.takesLevel me)

/-- How many calls of a kind have taken a level of the lock in the turns that followed them. -/
def served (kind : CallKind) : List (Turn σ) → Nat
  | [] => 0
  | asked :: later =>
    served kind later + if asked.kind? = some kind ∧ asked.hasTaken later = true then 1 else 0

/-- A thread made its last call of a history in a turn that only its own other moves, and moves of
other threads, have followed. -/
structure AskedLast (me : Thread) (turns : List (Turn σ)) (asked : Turn σ)
    (later : List (Turn σ)) : Prop where
  split : ∃ earlier, turns = earlier ++ asked :: later
  made : asked.isCallBy me = true
  since : ∀ turn ∈ later, turn.isCallBy me = false

section

variable {me : Thread} {turns later : List (Turn σ)} {asked turn : Turn σ}

theorem Turn.caller?_of_isCallBy (h : turn.isCallBy me = true) :
    turn.move.caller? = some me := eq_of_beq h

theorem Turn.isCallBy_of_call {call : Call σ} (h : turn.move = .call me call) :
    turn.isCallBy me = true := by
  rw [isCallBy, h]
  exact beq_self_eq_true _

theorem Turn.thread?_of_takesLevel (h : turn.takesLevel me = true) :
    turn.move.thread? = some me := eq_of_beq (Bool.and_eq_true _ _ ▸ h).1

theorem Turn.hasTaken_of_caller (hcaller : asked.move.caller? = some me)
    (later : List (Turn σ)) :
    asked.hasTaken later = (untilCall me later).any (·.takesLevel me) := by
  rw [hasTaken, hcaller, Option.any_some]

theorem untilCall_of_forall (h : ∀ turn ∈ turns, turn.isCallBy me = false) :
    untilCall me turns = turns :=
  List.takeWhile_eq_self_iff.mpr fun turn hmem ↦ by rw [h turn hmem]; rfl

/-- What follows a call of the thread does not matter. -/
theorem untilCall_append_cons (h : asked.isCallBy me = true) :
    untilCall me (turns ++ asked :: later) = untilCall me turns := by
  unfold untilCall
  induction turns with
  | nil => simp [h]
  | cons turn turns ih => simp only [List.cons_append, List.takeWhile_cons, ih]

/-- A turn that takes nothing for a thread does not change whether a call of it has taken. -/
theorem any_untilCall_snoc (h : turn.takesLevel me = false) :
    (untilCall me (turns ++ [turn])).any (·.takesLevel me) =
      (untilCall me turns).any (·.takesLevel me) := by
  unfold untilCall
  induction turns with
  | nil =>
    simp only [List.nil_append, List.takeWhile_cons, List.takeWhile_nil]
    split <;> simp [h]
  | cons first turns ih =>
    simp only [List.cons_append, List.takeWhile_cons]
    split
    · rw [List.any_cons, List.any_cons, ih]
    · rfl

theorem AskedLast.of_call (hcall : turn.isCallBy me = true) :
    AskedLast me (turns ++ [turn]) turn [] :=
  ⟨⟨turns, rfl⟩, hcall, List.forall_mem_nil _⟩

theorem AskedLast.snoc (h : AskedLast me turns asked later) (hturn : turn.isCallBy me = false) :
    AskedLast me (turns ++ [turn]) asked (later ++ [turn]) where
  split := by
    obtain ⟨earlier, rfl⟩ := h.split
    exact ⟨earlier, by simp⟩
  made := h.made
  since := by
    rw [List.forall_mem_append, List.forall_mem_singleton]
    exact ⟨h.since, hturn⟩

theorem AskedLast.cons (h : AskedLast me turns asked later) (turn : Turn σ) :
    AskedLast me (turn :: turns) asked later where
  split := by
    obtain ⟨earlier, rfl⟩ := h.split
    exact ⟨turn :: earlier, rfl⟩
  made := h.made
  since := h.since

theorem not_askedLast_nil : ¬AskedLast me [] asked later := by
  rintro ⟨⟨earlier, hnil⟩, _⟩
  simp at hnil

/-- The last call of a longer history is its last turn or the last call before. -/
theorem AskedLast.cases_snoc (h : AskedLast me (turns ++ [turn]) asked later) :
    asked = turn ∧ later = [] ∧ turn.isCallBy me = true ∨
      ∃ middle, AskedLast me turns asked middle ∧ later = middle ++ [turn] ∧
        turn.isCallBy me = false := by
  obtain ⟨⟨earlier, hsplit⟩, hmade, hsince⟩ := h
  obtain rfl | ⟨middle, last, rfl⟩ := List.eq_nil_or_concat' later
  · obtain ⟨rfl, hlast⟩ := List.append_inj' hsplit rfl
    cases hlast
    exact .inl ⟨rfl, rfl, hmade⟩
  · rw [← List.cons_append, ← List.append_assoc] at hsplit
    obtain ⟨rfl, hlast⟩ := List.append_inj' hsplit rfl
    cases hlast
    rw [List.forall_mem_append, List.forall_mem_singleton] at hsince
    exact .inr ⟨middle, ⟨⟨earlier, rfl⟩, hmade, hsince.1⟩, rfl, hsince.2⟩

theorem AskedLast.eq_of_call (h : AskedLast me (turns ++ [turn]) asked later)
    (hcall : turn.isCallBy me = true) : asked = turn ∧ later = [] := by
  obtain ⟨hasked, hlater, _⟩ | ⟨_, _, _, hnone⟩ := h.cases_snoc
  · exact ⟨hasked, hlater⟩
  · cases hcall.symm.trans hnone

variable {kind : CallKind}

theorem served_le_countP (kind : CallKind) (turns : List (Turn σ)) :
    served kind turns ≤ turns.countP (·.kind? = some kind) := by
  induction turns with
  | nil => exact Nat.le_refl _
  | cons asked later ih =>
    rw [served, List.countP_cons]
    by_cases hkind : asked.kind? = some kind
    · simp only [hkind, true_and, decide_true, if_true]
      split <;> omega
    · simpa [hkind] using ih

theorem Turn.isCall_of_kind? {turn : Turn σ} (h : turn.kind? = some kind) :
    turn.isCall = true := by
  unfold kind? at h
  unfold isCall
  cases hmove : turn.move with
  | call => rfl
  | enter | step | pass =>
    rw [hmove] at h
    cases h

/-- A turn that takes a level for a later call of its thread, or for none, does not change whether
an earlier call has taken. -/
theorem Turn.hasTaken_snoc
    (h : ∀ me, asked.move.caller? = some me → turn.takesLevel me = true →
      ∃ other ∈ later ++ [turn], other.isCallBy me = true) :
    asked.hasTaken (later ++ [turn]) = asked.hasTaken later := by
  cases hcaller : asked.move.caller? with
  | none =>
    rw [hasTaken, hasTaken, hcaller]
    rfl
  | some me =>
    rw [hasTaken_of_caller hcaller, hasTaken_of_caller hcaller]
    cases htakes : turn.takesLevel me with
    | false => exact any_untilCall_snoc htakes
    | true =>
      obtain ⟨other, hmem, hcall⟩ := h me hcaller htakes
      obtain hmem | hmem := List.mem_append.mp hmem
      · obtain ⟨front, back, rfl⟩ := List.append_of_mem hmem
        rw [List.append_assoc, List.cons_append, untilCall_append_cons hcall,
          untilCall_append_cons hcall]
      · obtain rfl := List.mem_singleton.mp hmem
        rw [untilCall_append_cons hcall]

/-- A turn that takes nothing, or takes it for a call of another kind, leaves the number of calls of
a kind that have taken a level. -/
theorem served_snoc_of_last
    (h : ∀ me asked later, AskedLast me turns asked later → turn.isCallBy me = false →
      turn.takesLevel me = true → asked.kind? ≠ some kind) :
    served kind (turns ++ [turn]) = served kind turns := by
  induction turns with
  | nil => simp [served, Turn.hasTaken, untilCall]
  | cons first rest ih =>
    have hrest : served kind (rest ++ [turn]) = served kind rest :=
      ih fun me asked later hlast ↦ h me asked later (hlast.cons first)
    rw [List.cons_append, served, served, hrest]
    by_cases hkind : first.kind? = some kind
    · rw [Turn.hasTaken_snoc]
      intro me hcaller htakes
      apply Classical.byContradiction
      intro hnone
      -- Without a later call the first turn is the last call of the thread, of the wrong kind.
      have hsilent : ∀ other ∈ rest ++ [turn], other.isCallBy me = false := fun other hmem ↦
        Bool.eq_false_iff.mpr fun hcall ↦ hnone ⟨other, hmem, hcall⟩
      obtain ⟨hsince, hturn⟩ := List.forall_mem_append.mp hsilent
      have hlast : AskedLast me (first :: rest) first rest :=
        ⟨⟨[], rfl⟩, by rw [Turn.isCallBy, hcaller, beq_self_eq_true], hsince⟩
      exact h me first rest hlast (hturn turn (List.mem_singleton_self turn)) htakes hkind
    · simp only [hkind, false_and]

/-- A turn in which a call takes its first level counts once, for that call. -/
theorem served_snoc_of_taken (hlast : AskedLast me turns asked later)
    (huntaken : asked.hasTaken later = false) (hkind : asked.kind? = some kind)
    (hturn : turn.isCallBy me = false) (htakes : turn.takesLevel me = true) :
    served kind (turns ++ [turn]) = served kind turns + 1 := by
  obtain ⟨⟨earlier, rfl⟩, hmade, hsince⟩ := hlast
  have hmine (name : Thread) (hname : turn.takesLevel name = true) : name = me := by
    have hthread := Turn.thread?_of_takesLevel hname
    rw [Turn.thread?_of_takesLevel htakes, Option.some_inj] at hthread
    exact hthread.symm
  induction earlier with
  | nil =>
    have hlater : served kind (later ++ [turn]) = served kind later := by
      apply served_snoc_of_last
      intro name other since hother _ hname
      obtain ⟨⟨front, rfl⟩, hcall, _⟩ := hother
      rw [hmine name hname, hsince other (by simp)] at hcall
      cases hcall
    have htaken : asked.hasTaken (later ++ [turn]) = true := by
      rw [Turn.hasTaken_of_caller (Turn.caller?_of_isCallBy hmade), untilCall_of_forall,
        List.any_append, List.any_cons, htakes, Bool.true_or, Bool.or_true]
      rw [List.forall_mem_append, List.forall_mem_singleton]
      exact ⟨hsince, hturn⟩
    rw [List.nil_append, List.cons_append, served, served, hlater, if_pos ⟨hkind, htaken⟩,
      if_neg (by simp [huntaken])]
  | cons first earlier ih =>
    have hfirst : first.hasTaken (earlier ++ asked :: later ++ [turn]) =
        first.hasTaken (earlier ++ asked :: later) := by
      apply Turn.hasTaken_snoc
      intro name _ hname
      exact ⟨asked, by simp, hmine name hname ▸ hmade⟩
    rw [List.cons_append, List.cons_append, served, served, hfirst, ih]
    omega

end

/-- The points at which a call that takes a counted level has not taken it yet. -/
def Point.awaitsLevel : Point → Bool
  | waiting _ | closing => true
  | _ => false

/-- The call that was made in a turn is of the kind that leads to a point. -/
def Point.Follows (asked : Turn σ) : Point → Prop
  | .waiting _ => asked.kind? = some .acquisition
  | .polling | .sleeping | .retaking => asked.kind? = some .yield
  | .closing => asked.kind? = some .window
  | .starting | .reentering | .adopting => asked.kind? = none
  | _ => True

namespace ThreadState

section

variable {build : Build} {now : Nat} {me : Thread} {lock : Lock σ} {self : ThreadState σ}
  {call? : Option (Call σ)} {effect : Effect σ}

theorem eq_lowering_of_check {entries : List Entry} {call other : Call σ} {point : Point}
    (hbusy : (check me lock self call entries).self.activity = .busy other point) :
    other = call ∧ point = .lowering := by
  unfold check at hbusy
  split at hbusy
  · cases hbusy
    exact ⟨rfl, rfl⟩
  · cases hbusy

theorem conclude_ne_busy (lock : Lock σ) (self : ThreadState σ) (call other : Call σ)
    (point : Point) : (conclude lock self call).self.activity ≠ .busy other point := by
  unfold conclude
  split <;> nofun

theorem fail_ne_busy (lock : Lock σ) (self : ThreadState σ) (call other : Call σ) (panic : Panic)
    (entries : List Entry) (point : Point) :
    (fail lock self call panic entries).self.activity ≠ .busy other point := by
  unfold fail
  split <;> nofun

/-- The first step of a call leads to a point that tells the kind of the call. -/
theorem Rule.follows_call {turn : Turn σ} {call other : Call σ} {point : Point}
    (rule : Rule build turn.before.clock me turn.before.lock (turn.before.thread me) (some call)
      effect)
    (hmove : turn.move = .call me call) (hbusy : effect.self.activity = .busy other point) :
    point.Follows turn := by
  cases rule with
  | reenter _ hworker =>
    cases hbusy
    simp [Point.Follows, Turn.kind?, hmove, hworker]
  | enter _ hworker =>
    cases hbusy
    simp [Point.Follows, Turn.kind?, hmove, hworker]
  | adopt =>
    cases hbusy
    simp [Point.Follows, Turn.kind?, hmove]
  | yieldToPoll _ hsession hphase =>
    cases hbusy
    simp [Point.Follows, Turn.kind?, hmove, phase?, hsession, hphase]
  | closeBegin _ hsession hphase =>
    cases hbusy
    simp [Point.Follows, Turn.kind?, hmove, phase?, hsession, hphase]
  | closeRunning =>
    obtain ⟨_, rfl⟩ := eq_lowering_of_check hbusy
    exact trivial
  | yieldToExit | endBegin | dropBegin | finishBegin | joinBegin =>
    cases hbusy
    exact trivial
  | dropEnded | finishEnded => exact absurd hbusy (conclude_ne_busy _ _ _ _ _)
  | _ => cases hbusy

/-- A further step keeps what the point tells of the call; a level that was not taken before the
step and is still awaited was not taken in it. -/
theorem Rule.follows_step (rule : Rule build now me lock self none effect) {call : Call σ}
    {point : Point} (hbusy : effect.self.activity = .busy call point) :
    ∃ earlier, self.activity = .busy call earlier ∧
      (∀ asked : Turn σ, earlier.Follows asked → point.Follows asked) ∧
      (point.awaitsLevel = true → earlier = point ∧
        effect.lock.mutex.depth me ≤ lock.mutex.depth me) := by
  cases rule with
  | park => exact ⟨point, hbusy, fun _ ↦ id, fun _ ↦ ⟨rfl, Nat.le_refl _⟩⟩
  | start hstands | pollSleep hstands | wake hstands | pollFree hstands | giveUp hstands
  | dispose hstands | disposeNone hstands | tearDown hstands =>
    cases hbusy
    exact ⟨_, hstands, fun _ h ↦ by first | exact h | trivial, nofun⟩
  | retake hstands | recheck hstands | close hstands =>
    obtain ⟨rfl, rfl⟩ := eq_lowering_of_check hbusy
    exact ⟨_, hstands, fun _ _ ↦ trivial, nofun⟩
  | mark => exact absurd hbusy (conclude_ne_busy _ _ _ _ _)
  | obtainUnmatched | startLate | adoptLost | giveUpNested | tearDownFailed =>
    exact absurd hbusy (fail_ne_busy _ _ _ _ _ _ _)
  | _ => cases hbusy

end

end ThreadState

/-- The last call of a thread is of the kind that leads to the point where it stands, and a level
that it awaits there has not been taken. A thread that the world does not know has made no call that
is counted, and one that has made no call is a newborn. -/
structure Explained (turns : List (Turn σ)) (world : World σ) (me : Thread) : Prop where
  unknown : world.threads.contains me = false → ∀ asked later, AskedLast me turns asked later →
    asked.kind? = none
  follows : ∀ call point, (world.thread me).activity = .busy call point → ∀ asked later,
    AskedLast me turns asked later →
      point.Follows asked ∧ (point.awaitsLevel = true → asked.hasTaken later = false)
  asked : ∀ call point, (world.thread me).activity = .busy call point →
    call = .start ∨ ∃ asked later, AskedLast me turns asked later

section

variable {build : Build} {start world : World σ} {turns : List (Turn σ)} {me : Thread}
  {turn : Turn σ}

theorem Turn.isCallBy_of_ne (h : turn.move.thread? ≠ some me) : turn.isCallBy me = false := by
  apply Bool.eq_false_iff.mpr
  intro hcall
  have hcaller := Turn.caller?_of_isCallBy hcall
  cases hmove : turn.move with
  | call =>
    rw [hmove] at h hcaller
    exact h hcaller
  | enter | step | pass =>
    rw [hmove] at hcaller
    cases hcaller

theorem Turn.takesLevel_of_ne (h : turn.move.thread? ≠ some me) :
    turn.takesLevel me = false :=
  Bool.eq_false_iff.mpr fun htakes ↦ h (Turn.thread?_of_takesLevel htakes)

theorem Turn.takesLevel_of_le
    (h : turn.after.lock.mutex.depth me ≤ turn.before.lock.mutex.depth me) :
    turn.takesLevel me = false := by
  rw [takesLevel, decide_eq_false (Nat.not_lt.mpr h), Bool.and_false]

theorem AskedLast.hasTaken_snoc {asked : Turn σ} {later : List (Turn σ)}
    (h : AskedLast me turns asked later) (htakes : turn.takesLevel me = false) :
    asked.hasTaken (later ++ [turn]) = asked.hasTaken later := by
  apply Turn.hasTaken_snoc
  intro name hcaller htaken
  rw [Turn.caller?_of_isCallBy h.made, Option.some_inj] at hcaller
  subst hcaller
  cases htakes.symm.trans htaken

/-- A move of another thread leaves a thread explained as it was, or starts it as a worker. -/
theorem Explained.of_others (h : Explained turns turn.before me) (hmove : turn.IsMove build)
    (hne : turn.move.thread? ≠ some me) : Explained (turns ++ [turn]) turn.after me := by
  have change := World.change_of_move? hmove
  have hback {asked : Turn σ} {later : List (Turn σ)}
      (hlast : AskedLast me (turns ++ [turn]) asked later) :
      ∃ middle, AskedLast me turns asked middle ∧ asked.hasTaken later = asked.hasTaken middle := by
    obtain ⟨_, _, hcall⟩ | ⟨middle, hbefore, rfl, _⟩ := hlast.cases_snoc
    · cases hcall.symm.trans (Turn.isCallBy_of_ne hne)
    · exact ⟨middle, hbefore, hbefore.hasTaken_snoc (Turn.takesLevel_of_ne hne)⟩
  have hunknown (hafter : turn.after.threads.contains me = false) :
      turn.before.threads.contains me = false := by
    apply Bool.eq_false_iff.mpr
    intro hknown
    cases hafter.symm.trans (change.contains_kept hknown)
  refine ⟨fun hafter asked later hlast ↦ ?_, ?_, ?_⟩
  · obtain ⟨middle, hbefore, _⟩ := hback hlast
    exact h.unknown (hunknown hafter) asked middle hbefore
  · intro call point hbusy asked later hlast
    obtain ⟨middle, hbefore, htaken⟩ := hback hlast
    obtain hkept | ⟨hnew, title, hborn⟩ := change.thread_of_others hne
    · rw [hkept] at hbusy
      rw [htaken]
      exact h.follows call point hbusy asked middle hbefore
    · rw [hborn] at hbusy
      cases hbusy
      exact ⟨h.unknown hnew asked middle hbefore, nofun⟩
  · intro call point hbusy
    obtain hkept | ⟨_, title, hborn⟩ := change.thread_of_others hne
    · rw [hkept] at hbusy
      obtain hstart | ⟨asked, later, hlast⟩ := h.asked call point hbusy
      · exact .inl hstart
      · exact .inr ⟨asked, _, hlast.snoc (Turn.isCallBy_of_ne hne)⟩
    · rw [hborn] at hbusy
      cases hbusy
      exact .inl rfl

/-- A thread that is idle needs no explanation. -/
theorem explained_of_idle (hidle : (world.thread me).activity = .idle)
    (hunknown : world.threads.contains me = false → ∀ asked later, AskedLast me turns asked later →
      asked.kind? = none) : Explained turns world me where
  unknown := hunknown
  follows _ _ hbusy := by
    rw [hidle] at hbusy
    cases hbusy
  asked _ _ hbusy := by
    rw [hidle] at hbusy
    cases hbusy

theorem explained_of_call {call : Call σ} {effect : Effect σ}
    (hcalls : turn.move = .call me call) (hafter : turn.after = turn.before.after me effect)
    (rule : ThreadState.Rule build turn.before.clock me turn.before.lock (turn.before.thread me)
      (some call) effect) : Explained (turns ++ [turn]) turn.after me := by
  have hcall := Turn.isCallBy_of_call hcalls
  refine ⟨fun hunknown ↦ ?_, fun other point hbusy asked later hlast ↦ ?_, fun _ _ _ ↦ ?_⟩
  · rw [hafter, World.after, Roster.contains_set, beq_self_eq_true] at hunknown
    cases hunknown
  · obtain ⟨rfl, rfl⟩ := hlast.eq_of_call hcall
    rw [hafter, World.thread_after_self] at hbusy
    refine ⟨rule.follows_call hcalls hbusy, fun _ ↦ ?_⟩
    rw [Turn.hasTaken_of_caller (Turn.caller?_of_isCallBy hcall)]
    rfl
  · exact .inr ⟨turn, [], .of_call hcall⟩

theorem Explained.of_step {effect : Effect σ} (h : Explained turns turn.before me)
    (hsteps : turn.move = .step me) (hafter : turn.after = turn.before.after me effect)
    (rule : ThreadState.Rule build turn.before.clock me turn.before.lock (turn.before.thread me)
      none effect) : Explained (turns ++ [turn]) turn.after me := by
  have hcall : turn.isCallBy me = false := by
    rw [Turn.isCallBy, hsteps]
    rfl
  refine ⟨fun hunknown ↦ ?_, fun call point hbusy asked later hlast ↦ ?_, fun call point hbusy ↦ ?_⟩
  · rw [hafter, World.after, Roster.contains_set, beq_self_eq_true] at hunknown
    cases hunknown
  · rw [hafter, World.thread_after_self] at hbusy
    obtain ⟨earlier, hearlier, hfollows, hawaits⟩ := rule.follows_step hbusy
    obtain ⟨_, _, hlastCall⟩ | ⟨middle, hbefore, rfl, _⟩ := hlast.cases_snoc
    · cases hcall.symm.trans hlastCall
    · obtain ⟨hkind, htaken⟩ := h.follows call earlier hearlier asked middle hbefore
      refine ⟨hfollows asked hkind, fun hpoint ↦ ?_⟩
      obtain ⟨rfl, hlevel⟩ := hawaits hpoint
      rw [hbefore.hasTaken_snoc (Turn.takesLevel_of_le (hafter ▸ hlevel))]
      exact htaken hpoint
  · rw [hafter, World.thread_after_self] at hbusy
    obtain ⟨earlier, hearlier, _⟩ := rule.follows_step hbusy
    obtain hstart | ⟨asked, later, hlast⟩ := h.asked call earlier hearlier
    · exact .inl hstart
    · exact .inr ⟨asked, _, hlast.snoc hcall⟩

theorem Explained.of_own (h : Explained turns turn.before me) (hmove : turn.IsMove build)
    (hmine : turn.move.thread? = some me) : Explained (turns ++ [turn]) turn.after me := by
  obtain ⟨before, move, after, events⟩ := turn
  have change : World.Change build before move after events := World.change_of_move? hmove
  cases change with
  | enter name title =>
    obtain rfl := Option.some_inj.mp hmine
    apply explained_of_idle
    · rw [World.thread_enlist, if_pos rfl]
    · intro hunknown
      rw [World.enlist, Roster.contains_set, beq_self_eq_true] at hunknown
      cases hunknown
  | pass => cases hmine
  | own name call? effect _ rule =>
    rw [Move.thread?_ofThread, Option.some_inj] at hmine
    subst hmine
    cases call? with
    | some call => exact explained_of_call rfl rfl rule
    | none => exact h.of_step rfl rfl rule
  | spawn name child hidle | spawnRefused name child hidle =>
    obtain rfl := Option.some_inj.mp hmine
    apply explained_of_idle
    · first
        | exact hidle
        | rwa [World.thread, Roster.get_set_self]
    · rintro _ asked later hlast
      obtain ⟨rfl, _⟩ := hlast.eq_of_call (Turn.isCallBy_of_call rfl)
      rfl

/-- In a run from a new lock the last call of a thread explains where it stands. -/
theorem Run.explained (run : Run build start turns world) (hnew : start.IsNew) (me : Thread) :
    Explained turns world me := by
  induction run with
  | nil =>
    apply explained_of_idle
    · rw [World.thread_of_new hnew]
    · exact fun _ _ _ h ↦ absurd h not_askedLast_nil
  | @snoc turns turn run hmove ih =>
    by_cases hmine : turn.move.thread? = some me
    · exact ih.of_own hmove hmine
    · exact ih.of_others hmove hmine

/-- A run splits at every turn into the part before and the part after. -/
theorem Run.of_append_cons {earlier later : List (Turn σ)}
    (run : Run build start (earlier ++ turn :: later) world) :
    Run build start earlier turn.before ∧ turn.IsMove build ∧
      Run build turn.after later world := by
  generalize hturns : earlier ++ turn :: later = turns at run
  induction run generalizing later with
  | nil => simp at hturns
  | @snoc turns last run hmove ih =>
    obtain rfl | ⟨middle, final, rfl⟩ := List.eq_nil_or_concat' later
    · obtain ⟨rfl, hlast⟩ := List.append_inj' hturns rfl
      cases hlast
      exact ⟨run, hmove, .nil⟩
    · rw [← List.cons_append, ← List.append_assoc] at hturns
      obtain ⟨hrest, hlast⟩ := List.append_inj' hturns rfl
      cases hlast
      obtain ⟨hbefore, hturn, hafter⟩ := ih hrest
      exact ⟨hbefore, hturn, .snoc hafter hmove⟩

end

end YieldLock
