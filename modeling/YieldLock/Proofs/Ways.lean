import YieldLock.Proofs.Likeness
import YieldLock.Proofs.Ledger

/-!
# The ways to end a session

A session ends when it asks for it, when its own thread requests shutdown from
the lock and then yields, or when it is dropped. The ways begin with different
calls, and then the thread passes the same points: it gives up its level, takes
the teardown out, runs it and announces the end. Main statements:
`Way.Underway.others`, `Way.Underway.own_call` and `Way.Underway.own_step`, what
a move does to a thread on its way, and `Way.Underway.course`, how far a run of
such moves takes it.
-/

namespace YieldLock

variable {σ : Type}

/-- The ways to end a session; it is dropped by a call of its own, while its thread unwinds, or with
its thread. -/
inductive Way where
  | asked
  | requested
  | dropped
  | unwound (panic : Panic)
  | finished (outcome : Option Panic)
  deriving DecidableEq, Repr

/-- The move belongs to a thread. -/
def Move.isOf (me : Thread) (move : Move σ) : Bool := move.thread? == some me

namespace Way

/-- The call in which the session ends. -/
def call : Way → Call σ
  | asked => .endSession
  | requested => .yieldNow
  | dropped => .dropSession
  | unwound panic => .unwindSession panic
  | finished outcome => .finish outcome

/-- All calls that the way consists of. -/
def calls : Way → List (Call σ)
  | requested => [.requestShutdown, .yieldNow]
  | way => [way.call]

/-- How many yields the way takes. -/
def yields : Way → Nat
  | requested => 1
  | _ => 0

/-- What the thread is told in the end. -/
def answer : Way → Answer σ
  | asked | requested => .flow .exit
  | dropped => .dropped
  | unwound panic => .panicked panic
  | finished _ => .finished

theorem ending_call (way : Way) : (way.call : Call σ).ending = way.answer := by
  cases way <;> rfl

/-- The thread itself ends with the session. -/
def endsThread : Way → Bool
  | finished _ => true
  | _ => false

/-- The thread is free to make the calls. -/
def isOpenTo (way : Way) (self : ThreadState σ) : Bool := way.calls.all self.permits

/-- Moves among which a thread makes the calls of the way, and the moves that are left without
them. -/
structure Opens (way : Way) (me : Thread) (others opening : List (Move σ)) : Prop where
  own : opening.filter (·.isOf me) = way.calls.map (.call me)
  others : opening.filter (!·.isOf me) = others

/-- The calls of a way are made in order, the one that ends the session last. -/
theorem cases_of_suffix {way : Way} {call : Call σ} {calls : List (Call σ)}
    (h : call :: calls <:+ way.calls) :
    call = way.call ∧ calls = [] ∨
      way = requested ∧ call = .requestShutdown ∧ calls = [.yieldNow] := by
  cases way with
  | requested =>
    simp only [Way.calls, List.suffix_cons_iff, List.cons.injEq, List.suffix_nil,
      List.cons_ne_nil, or_false] at h
    obtain ⟨rfl, rfl⟩ | ⟨rfl, rfl⟩ := h
    · exact .inr ⟨rfl, rfl, rfl⟩
    · exact .inl ⟨rfl, rfl⟩
  | _ =>
    simp only [Way.calls, List.suffix_cons_iff, List.cons.injEq, List.suffix_nil,
      List.cons_ne_nil, or_false] at h
    exact .inl h

end Way

/-- The teardown that is run at a point. -/
def Point.teardown? : Point → Option Teardown
  | tearingDown teardown => some teardown
  | _ => none

/-- The lock after a session has passed a point on the way to its end. -/
def Point.pass (me : Thread) (lock : Lock σ) : Point → Lock σ
  | lowering => { lock with keepAlive := lock.keepAlive.clear, mutex := lock.mutex.giveBack me }
  | disposing => { lock with teardown := none }
  | tearingDown teardown => { lock with keepAlive := (teardown.run me lock).2.2 }
  | marking => { lock with terminated := lock.terminated.set }
  | _ => lock

section

variable (me : Thread) (lock : Lock σ)

@[simp] theorem Point.stats_pass (point : Point) : (point.pass me lock).stats = lock.stats := by
  cases point <;> rfl

theorem Point.teardown_pass {point : Point} (h : point ≠ .disposing) :
    (point.pass me lock).teardown = lock.teardown := by
  cases point with
  | disposing => exact absurd rfl h
  | _ => rfl

end

namespace Lock

/-- The points that a session passes once the teardown is taken out. -/
def lastPoints (lock : Lock σ) : List Point :=
  lock.teardown.toList.map .tearingDown ++ [.marking]

/-- The points that a session passes from its last call on. -/
def pathToEnd (lock : Lock σ) : List Point := .lowering :: .disposing :: lock.lastPoints

theorem pathToEnd_ne_nil (lock : Lock σ) : lock.pathToEnd ≠ [] := List.cons_ne_nil _ _

theorem disposing_notMem_lastPoints (lock : Lock σ) : .disposing ∉ lock.lastPoints := by
  simp [lastPoints]

/-- A part of the path begins at one of its points and goes on as the path does. -/
theorem cases_of_suffix {lock : Lock σ} {point : Point} {points : List Point}
    (h : point :: points <:+ lock.pathToEnd) :
    point = .lowering ∧ points = .disposing :: lock.lastPoints ∨
      point = .disposing ∧ points = lock.lastPoints ∨
      (∃ teardown, lock.teardown = some teardown ∧ point = .tearingDown teardown ∧
        points = [.marking]) ∨
      point = .marking ∧ points = [] := by
  rw [pathToEnd, List.suffix_cons_iff, List.suffix_cons_iff, List.cons.injEq, List.cons.injEq] at h
  obtain h | h | h := h
  · exact .inl h
  · exact .inr (.inl h)
  · rw [lastPoints] at h
    cases hteardown : lock.teardown with
    | none =>
      simp only [hteardown, Option.toList_none, List.map_nil, List.nil_append,
        List.suffix_cons_iff, List.cons.injEq, List.suffix_nil, List.cons_ne_nil, or_false] at h
      exact .inr (.inr (.inr h))
    | some teardown =>
      simp only [hteardown, Option.toList_some, List.map_cons, List.map_nil, List.cons_append,
        List.nil_append, List.suffix_cons_iff, List.cons.injEq, List.suffix_nil, List.cons_ne_nil,
        or_false] at h
      obtain h | h := h
      · exact .inr (.inr (.inl ⟨teardown, rfl, h⟩))
      · exact .inr (.inr (.inr h))

/-- Passing a point keeps locks alike. -/
theorem Alike.pass {left right : Lock σ} (h : left.Alike right) (me : Thread) (point : Point) :
    (point.pass me left).Alike (point.pass me right) := by
  cases point with
  | lowering | disposing | marking =>
    obtain ⟨keepAlive, yieldCalls, rfl⟩ := h
    exact ⟨_, yieldCalls, rfl⟩
  | tearingDown teardown =>
    exact (of_lowered left _).symm.trans (h.trans (of_lowered right _))
  | _ => exact h

end Lock

/-- A worker that is not inside a call, whose running session holds the only level of its thread, at
a lock whose teardown does not panic. -/
structure World.IsPoised (world : World σ) (me : Thread) : Prop where
  idle : (world.thread me).activity = .idle
  session : (world.thread me).session = some { phase := .running, holds := true }
  guards : (world.thread me).guards = 0
  harmless : ∀ text, world.lock.teardown ≠ some (.fail text)

namespace Way

/-- A thread that has made the calls of the way and has yet to pass some points. -/
def threadAt (way : Way) (base : ThreadState σ) : List Point → ThreadState σ
  | [] =>
    { base with
      session := if (way.call : Call σ).dropsSession then none
        else some { phase := .terminated, holds := false }
      activity := match way with
        | finished outcome => .finished outcome
        | _ => .idle }
  | .lowering :: _ => { base with activity := .busy way.call .lowering }
  | point :: _ =>
    { base with
      session := some { phase := .terminated, holds := false }
      activity := .busy way.call point }

/-- A thread is on its way to the end of its session: it set out from a world, has some of the calls
yet to make and some of the points yet to pass, and has made its turns. -/
structure Underway (way : Way) (me : Thread) (start : World σ) (calls : List (Call σ))
    (points : List Point) (turns : List (Turn σ)) (world : World σ) : Prop where
  known : world.threads.contains me = true
  worker : world.lock.worker = some me
  self : world.thread me =
    if calls.isEmpty then way.threadAt (start.thread me) points else start.thread me
  /-- A thread that has only its yield to make has requested shutdown before. -/
  lowered : calls = [.yieldNow] ∨ .lowering ∉ points → world.lock.keepAlive.isSet = false
  installed : world.lock.teardown = if .disposing ∈ points then start.lock.teardown else none
  announced : points = [] → world.lock.terminated.isSet = true
  yields : world.lock.stats.yieldCalls =
    (start.lock.stats.countYields (if calls.isEmpty then way.yields else 0)).yieldCalls
  entered : enteredIn turns ++ points.filterMap Point.teardown? = start.lock.teardown.toList
  answered : points = [] → ∃ turn ∈ turns, turn.Answers me way.call way.answer
  awake : sleepsIn turns = 0

section

variable {build : Build} {way left right : Way} {me : Thread} {start world next last : World σ}
  {calls : List (Call σ)} {point : Point} {points : List Point} {turns : List (Turn σ)}

/-- A worker that is poised has set out on any way. -/
theorem underway_of_poised (hpoised : start.IsPoised me) (hreach : Reachable build start)
    (way : Way) : way.Underway me start way.calls start.lock.pathToEnd [] start where
  known := Roster.contains_of_get_ne (ThreadState.ne_default_of_session hpoised.session)
  worker := (hreach.fits me).worker (by rw [hpoised.session]; rfl)
  self := by cases way <;> rfl
  lowered := by
    rintro (hcalls | hpoints)
    · cases way <;> cases hcalls
    · exact absurd List.mem_cons_self hpoints
  installed := by simp [Lock.pathToEnd]
  announced := nofun
  yields := by
    have hcalls : (way.calls : List (Call σ)).isEmpty = false := by cases way <;> rfl
    simp only [hcalls, Bool.false_eq_true, if_false, Stats.countYields_zero]
  entered := by
    cases hteardown : start.lock.teardown <;>
      simp [enteredIn, Lock.pathToEnd, Lock.lastPoints, hteardown, Point.teardown?,
        List.filterMap_cons]
  answered := nofun
  awake := rfl

theorem isOf_eq_true {move : Move σ} : move.isOf me = true ↔ move.thread? = some me := beq_iff_eq

theorem thread?_ne {move : Move σ} (h : move.isOf me = false) : move.thread? ≠ some me :=
  mt isOf_eq_true.mpr (Bool.eq_false_iff.mp h)

/-- Moves of other threads leave to a worker what is its own: the teardown, the number of yields,
and its sleep. -/
theorem frame_of_others {move : Move σ} {events : List (Event σ)}
    (change : World.Change build world move next events) (hreach : Reachable build world)
    (hworker : world.lock.worker = some me) (hne : move.thread? ≠ some me) :
    next.lock.teardown = world.lock.teardown ∧
      next.lock.stats.yieldCalls = world.lock.stats.yieldCalls ∧
      events.filterMap Event.tornDown? = [] ∧ events.countP Event.isSleep = 0 := by
  cases change with
  | enter | pass | spawn | spawnRefused => exact ⟨rfl, rfl, rfl, rfl⟩
  | own name call? effect _ rule =>
    have hname : name ≠ me := fun heq ↦ hne (heq ▸ Move.thread?_ofThread name call?)
    have hfits := hreach.fits name
    have hsession := hreach.session_eq_none hworker hname
    have hpolls (call : Call σ) : (world.thread name).activity ≠ .busy call .polling := by
      intro hbusy
      obtain ⟨_, session, hsome, _⟩ := hfits.sound.place _ _ hbusy
      cases hsession.symm.trans hsome
    obtain ⟨hteardown, _, hentered⟩ := rule.end_frame_of_none hfits.sound hsession
    refine ⟨hteardown, ?_, hentered, rule.awake hfits.sound hpolls⟩
    cases rule.booking hfits with
    | nothing hstats | acquisition _ _ _ hstats | window _ _ hstats =>
      exact (congrArg Stats.yieldCalls hstats).trans rfl
    | yielding _ hphase =>
      rw [ThreadState.phase?, hsession] at hphase
      cases hphase
    | handover _ hbusy => exact absurd hbusy (hpolls _)

/-- A move of another thread leaves a thread where it is on its way. -/
theorem Underway.others (h : way.Underway me start calls points turns world)
    (hreach : Reachable build world) {move : Move σ} {events : List (Event σ)}
    (hmove : world.move? build move = some (next, events)) (hne : move.thread? ≠ some me) :
    way.Underway me start calls points (turns ++ [⟨world, move, next, events⟩]) next := by
  have change := World.change_of_move? hmove
  obtain ⟨hteardown, hyields, hentered, hawake⟩ := frame_of_others change hreach h.worker hne
  exact {
    known := change.contains_kept h.known
    worker := change.advances.worker me h.worker
    self := by
      obtain hself | ⟨hunknown, _⟩ := change.thread_of_others hne
      · rw [hself, h.self]
      · cases h.known.symm.trans hunknown
    lowered := fun hcase ↦ change.advances.keepAlive (h.lowered hcase)
    installed := by rw [hteardown, h.installed]
    announced := fun hpoints ↦ change.advances.terminated (h.announced hpoints)
    yields := by rw [hyields, h.yields]
    entered := by rw [enteredIn_append, enteredIn_singleton, hentered, List.append_nil, h.entered]
    answered := fun hpoints ↦ by
      obtain ⟨turn, hmem, hanswers⟩ := h.answered hpoints
      exact ⟨turn, List.mem_append_left _ hmem, hanswers⟩
    awake := by rw [sleepsIn_snoc, h.awake, hawake] }

/-- A step or a call of the thread takes it on along its way. -/
theorem Underway.own (h : way.Underway me start calls points turns world) {move : Move σ}
    {effect : Effect σ} {calls' : List (Call σ)} {points' : List Point}
    (hmove : world.move? build move = some (world.after me effect, effect.events))
    (hself : effect.self =
      if calls'.isEmpty then way.threadAt (start.thread me) points' else start.thread me)
    (hlowered : calls' = [.yieldNow] ∨ .lowering ∉ points' → effect.lock.keepAlive.isSet = false)
    (hinstalled : effect.lock.teardown =
      if .disposing ∈ points' then start.lock.teardown else none)
    (hannounced : points' = [] → effect.lock.terminated.isSet = true)
    (hyields : effect.lock.stats.yieldCalls =
      (start.lock.stats.countYields (if calls'.isEmpty then way.yields else 0)).yieldCalls)
    (hentered : effect.teardowns ++ points'.filterMap Point.teardown? =
      points.filterMap Point.teardown?)
    (hanswered : points' = [] → move.thread? = some me ∧
      .answered way.call way.answer ∈ effect.events)
    (hawake : effect.events.countP Event.isSleep = 0) :
    way.Underway me start calls' points'
      (turns ++ [⟨world, move, world.after me effect, effect.events⟩]) (world.after me effect) where
  known := (World.change_of_move? hmove).contains_kept h.known
  worker := (World.change_of_move? hmove).advances.worker me h.worker
  self := (World.thread_after_self ..).trans hself
  lowered := hlowered
  installed := hinstalled
  announced := hannounced
  yields := hyields
  entered := by
    rw [enteredIn_append, enteredIn_singleton, List.append_assoc, ← h.entered, ← hentered]
    rfl
  answered hpoints := ⟨_, List.mem_append_right _ (List.mem_singleton_self _), hanswered hpoints⟩
  awake := by rw [sleepsIn_snoc, h.awake, hawake]

/-- The call that ends the session brings the thread to the first point, if the one that yields
finds the signal lowered. -/
theorem exists_invoke? (build : Build) (now : Nat) {base : ThreadState σ} {lock : Lock σ}
    (hidle : base.activity = .idle)
    (hsession : base.session = some { phase := .running, holds := true })
    (hguards : base.guards = 0) (hopen : way.isOpenTo base = true)
    (hexit : way = requested → lock.shouldExit me = true) :
    ∃ after entries, base.invoke? build now me lock way.call =
        some (ThreadState.goOn after base way.call .lowering entries) ∧
      lock.Alike after ∧ after.stats = lock.stats.countYields way.yields := by
  have hpermits : base.permits way.call = true := by
    refine List.all_eq_true.mp hopen way.call ?_
    cases way <;> simp [Way.calls, Way.call]
  obtain ⟨title, isSpawned, guards, session, handles, activity⟩ := base
  cases hidle
  cases hsession
  cases hguards
  have hnone : lock.stats = lock.stats.countYields 0 := (Stats.countYields_zero _).symm
  cases way with
  | asked =>
    refine ⟨{ lock with keepAlive := ⟨false⟩ },
      if lock.keepAlive.isSet then [.logged .workerInitiates] else [], ?_, .of_lowered lock _,
      hnone⟩
    simp only [Way.call] at hpermits ⊢
    rw [ThreadState.invoke?, hpermits]
    rfl
  | requested =>
    refine ⟨{ lock with stats := lock.stats.countYield }, [], ?_, ?_, ?_⟩
    · simp only [Way.call] at hpermits ⊢
      rw [ThreadState.invoke?, hpermits]
      simp only [Bool.not_true, Bool.false_eq_true, if_false, Option.map_some,
        ThreadState.beginYield, hexit rfl, if_true]
    · exact ⟨lock.keepAlive, _, rfl⟩
    · rfl
  | dropped | unwound =>
    refine ⟨lock, [], ?_, .refl lock, hnone⟩
    simp only [Way.call] at hpermits ⊢
    rw [ThreadState.invoke?, hpermits]
    rfl
  | finished =>
    refine ⟨lock, [], ?_, .refl lock, hnone⟩
    simp only [Way.call] at hpermits ⊢
    rw [ThreadState.invoke?, hpermits]
    rfl

/-- The thread can make the call, to others the worlds around it are alike, and the call takes the
thread along its way. -/
def GoesOnBy (build : Build) (way : Way) (me : Thread) (start : World σ) (call : Call σ)
    (calls : List (Call σ)) (turns : List (Turn σ)) (world : World σ) : Prop :=
  ∃ effect, world.move? build (.call me call) = some (world.after me effect, effect.events) ∧
    world.lock.Alike effect.lock ∧
    way.Underway me start calls start.lock.pathToEnd
      (turns ++ [⟨world, .call me call, world.after me effect, effect.events⟩])
      (world.after me effect)

/-- The call that ends the session. -/
theorem Underway.last_call
    (h : way.Underway me start [way.call] start.lock.pathToEnd turns world)
    (hreach : Reachable build world) (hpoised : start.IsPoised me)
    (hopen : way.isOpenTo (start.thread me) = true) :
    GoesOnBy build way me start way.call [] turns world := by
  have hself : world.thread me = start.thread me := h.self
  rw [← hself] at hopen
  have hsession : (world.thread me).session = some { phase := .running, holds := true } :=
    hself ▸ hpoised.session
  have hidle : (world.thread me).activity = .idle := hself ▸ hpoised.idle
  have hexit : way = requested → world.lock.shouldExit me = true := by
    rintro rfl
    rw [Lock.shouldExit, h.lowered (.inl rfl), Lock.isWorker, h.worker, beq_self_eq_true]
    rfl
  obtain ⟨after, entries, hinvoke, halike, hstats⟩ :=
    way.exists_invoke? build world.clock hidle hsession (hself ▸ hpoised.guards) hopen hexit
  have hspawn : (way.call : Call σ).isSpawn = false := by cases way <;> rfl
  have hmove := World.move?_of_invoke? hreach (ThreadState.ne_default_of_session hsession) hinvoke
    hspawn
  refine ⟨_, hmove, halike, h.own hmove ?_ ?_ ?_ (absurd · (Lock.pathToEnd_ne_nil _)) ?_ ?_
    (absurd · (Lock.pathToEnd_ne_nil _)) ?_⟩
  · rw [ThreadState.self_goOn, hself]
    rfl
  · rintro (hnone | hpoints)
    · cases hnone
    · exact absurd List.mem_cons_self hpoints
  · obtain ⟨_, _, rfl⟩ := halike
    exact h.installed
  · rw [ThreadState.lock_goOn, hstats]
    have hyields := h.yields.trans (congrArg Stats.yieldCalls (Stats.countYields_zero _))
    exact congrArg (· + .ofNat way.yields) hyields
  · rw [ThreadState.teardowns_goOn, List.nil_append]
  · exact (ThreadState.rule_of_invoke? hinvoke).awake (hreach.fits me).sound (by simp [hidle])

/-- The request for shutdown from the lock, before the yield. -/
theorem Underway.request_call
    (h : requested.Underway me start [.requestShutdown, .yieldNow] start.lock.pathToEnd turns world)
    (hreach : Reachable build world) (hpoised : start.IsPoised me) :
    GoesOnBy build requested me start .requestShutdown [.yieldNow] turns world := by
  have hself : world.thread me = start.thread me := h.self
  have hsession : (world.thread me).session = some { phase := .running, holds := true } :=
    hself ▸ hpoised.session
  have hidle : (world.thread me).activity = .idle := hself ▸ hpoised.idle
  have hinvoke : (world.thread me).invoke? build world.clock me world.lock .requestShutdown =
      some (ThreadState.answer (world.lock.requestShutdown me).2.2 (world.thread me)
        .requestShutdown (.requested (world.lock.requestShutdown me).1)
        ((world.lock.requestShutdown me).2.1.map .logged)) := by
    rw [ThreadState.invoke?, ThreadState.permits, hidle]
    rfl
  have hmove := World.move?_of_invoke? hreach (ThreadState.ne_default_of_session hsession) hinvoke
    rfl
  have hlock := world.lock.lock_requestShutdown me
  refine ⟨_, hmove, ?_, h.own hmove ?_ ?_ ?_ (absurd · (Lock.pathToEnd_ne_nil _)) ?_ ?_
    (absurd · (Lock.pathToEnd_ne_nil _)) ?_⟩
  · rw [ThreadState.lock_answer, hlock]
    exact .of_lowered _ _
  · rw [ThreadState.self_answer, ← hidle, hself]
    rfl
  · intro _
    rw [ThreadState.lock_answer, hlock]
    rfl
  · rw [ThreadState.lock_answer, hlock]
    exact h.installed
  · rw [ThreadState.lock_answer, hlock]
    exact h.yields
  · rw [ThreadState.teardowns_answer, List.nil_append]
  · exact (ThreadState.rule_of_invoke? hinvoke).awake (hreach.fits me).sound (by simp [hidle])

/-- The thread makes the next call of its way. -/
theorem Underway.own_call {call : Call σ}
    (h : way.Underway me start (call :: calls) start.lock.pathToEnd turns world)
    (hreach : Reachable build world) (hpoised : start.IsPoised me)
    (hopen : way.isOpenTo (start.thread me) = true) (hcalls : call :: calls <:+ way.calls) :
    GoesOnBy build way me start call calls turns world := by
  obtain ⟨rfl, rfl⟩ | ⟨rfl, rfl, rfl⟩ := cases_of_suffix hcalls
  · exact h.last_call hreach hpoised hopen
  · exact h.request_call hreach hpoised

/-- On the path the thread stands at the next point. -/
theorem activity_threadAt (way : Way) (base : ThreadState σ) (point : Point)
    (points : List Point) :
    (way.threadAt base (point :: points)).activity = .busy way.call point := by
  cases point <;> rfl

/-- A thread that has passed all points has no step to make. -/
theorem Underway.move?_ne_some (h : way.Underway me start [] [] turns world)
    (result : World σ × List (Event σ)) : world.move? build (.step me) ≠ some result := by
  intro hmove
  obtain ⟨_, rule, _⟩ := World.exists_rule_of_step? hmove
  have hbusy := rule.isBusy_of_step
  rw [h.self] at hbusy
  cases way <;> cases hbusy

/-- What the step from a point of the path comes to. -/
structure Passes (way : Way) (me : Thread) (base : ThreadState σ) (lock : Lock σ) (point : Point)
    (points : List Point) (effect : Effect σ) : Prop where
  lock : effect.lock = point.pass me lock
  self : effect.self = way.threadAt base points
  entered : effect.teardowns = point.teardown?.toList
  answered : points = [] → .answered way.call way.answer ∈ effect.events

section

variable {now : Nat} {base : ThreadState σ} {lock : Lock σ}

/-- Where the session holds the only level of its thread, giving it up fails no assertion. -/
theorem passes_lowering
    (hsession : base.session = some { phase := .running, holds := true })
    (hfree : (lock.mutex.giveBackIf me true).isHeldBy me = false) :
    ∃ effect,
      (way.threadAt base (.lowering :: .disposing :: points)).step? build now me lock =
        some effect ∧
      way.Passes me base lock .lowering (.disposing :: points) effect := by
  refine ⟨ThreadState.goOn (Point.lowering.pass me lock)
    { way.threadAt base [.lowering] with
      session := some { phase := .terminated, holds := false } } way.call
    .disposing [.logged .exiting], ?_, rfl, rfl, ThreadState.teardowns_goOn .., nofun⟩
  have hkept : (way.threadAt base (.lowering :: .disposing :: points)).session = base.session := rfl
  rw [ThreadState.step?, activity_threadAt]
  simp only [hkept, hsession, Option.map_some, ThreadState.giveUp, hfree, Bool.and_false]
  rfl

theorem passes_disposing :
    ∃ effect,
      (way.threadAt base (.disposing :: lock.lastPoints)).step? build now me lock = some effect ∧
      way.Passes me base lock .disposing lock.lastPoints effect := by
  cases hteardown : lock.teardown with
  | none =>
    refine ⟨ThreadState.goOn { lock with teardown := none }
      (way.threadAt base (.disposing :: lock.lastPoints)) way.call .marking [], ?_, rfl, ?_,
      ThreadState.teardowns_goOn .., by simp [Lock.lastPoints]⟩
    · rw [ThreadState.step?, activity_threadAt]
      simp only [ThreadState.dispose, hteardown]
    · rw [ThreadState.self_goOn, Lock.lastPoints, hteardown]
      rfl
  | some teardown =>
    refine ⟨ThreadState.goOn { lock with teardown := none }
      (way.threadAt base (.disposing :: lock.lastPoints)) way.call (.tearingDown teardown) [], ?_,
      rfl, ?_, ThreadState.teardowns_goOn .., by simp [Lock.lastPoints]⟩
    · rw [ThreadState.step?, activity_threadAt]
      simp only [ThreadState.dispose, hteardown]
    · rw [ThreadState.self_goOn, Lock.lastPoints, hteardown]
      rfl

theorem passes_tearingDown {teardown : Teardown} (hharmless : ∀ text, teardown ≠ .fail text) :
    ∃ effect,
      (way.threadAt base [.tearingDown teardown, .marking]).step? build now me lock = some effect ∧
      way.Passes me base lock (.tearingDown teardown) [.marking] effect := by
  have hpanic : (teardown.run me lock).2.1 = none := by
    cases hrun : (teardown.run me lock).2.1 with
    | none => rfl
    | some panic =>
      obtain ⟨text, hfails⟩ := Teardown.exists_fail_of_panic hrun
      exact absurd hfails (hharmless text)
  refine ⟨{ ThreadState.goOn { lock with keepAlive := (teardown.run me lock).2.2 }
    (way.threadAt base [.tearingDown teardown, .marking]) way.call .marking
    (teardown.run me lock).1 with
    events := .tornDown teardown :: (teardown.run me lock).1.map .entry }, ?_, rfl, rfl,
    congrArg (teardown :: ·) (ThreadState.teardowns_goOn lock base way.call _ .marking), nofun⟩
  rw [ThreadState.step?, activity_threadAt]
  simp only [ThreadState.tearDown?, hpanic]
  rfl

theorem passes_marking :
    ∃ effect, (way.threadAt base [.marking]).step? build now me lock = some effect ∧
      way.Passes me base lock .marking [] effect := by
  refine ⟨ThreadState.conclude (Point.marking.pass me lock) (way.threadAt base [.marking]) way.call,
    rfl, ThreadState.lock_conclude .., ?_, ThreadState.teardowns_conclude .., fun _ ↦ ?_⟩
  · cases way <;> rfl
  · rw [← ending_call]
    exact ThreadState.answered_conclude ..

end

/-- The thread can make the step from the next point of its path. -/
theorem Underway.exists_step? (h : way.Underway me start [] (point :: points) turns world)
    (hreach : Reachable build world) (hpoised : start.IsPoised me)
    (hpath : point :: points <:+ start.lock.pathToEnd) :
    ∃ effect, (world.thread me).step? build world.clock me world.lock = some effect ∧
      way.Passes me (start.thread me) world.lock point points effect := by
  have hself : world.thread me = way.threadAt (start.thread me) (point :: points) := h.self
  have hinstalled := h.installed
  have hfits := hreach.fits me
  rw [hself] at hfits ⊢
  obtain ⟨rfl, rfl⟩ | ⟨rfl, rfl⟩ | ⟨teardown, hteardown, rfl, rfl⟩ | ⟨rfl, rfl⟩ :=
    Lock.cases_of_suffix hpath
  · refine passes_lowering hpoised.session (Mutex.isHeldBy_eq_false_iff.mpr ?_)
    exact (hfits.depth_giveBackIf hpoised.session rfl).trans hpoised.guards
  · rw [if_pos List.mem_cons_self] at hinstalled
    have hpoints : start.lock.lastPoints = world.lock.lastPoints := by
      rw [Lock.lastPoints, Lock.lastPoints, hinstalled]
    rw [hpoints]
    exact passes_disposing
  · refine passes_tearingDown ?_
    rintro text rfl
    exact hpoised.harmless text hteardown
  · exact passes_marking

/-- The thread passes the next point of its path, whatever others have done in between. -/
theorem Underway.own_step (h : way.Underway me start [] (point :: points) turns world)
    (hreach : Reachable build world) (hpoised : start.IsPoised me)
    (hpath : point :: points <:+ start.lock.pathToEnd) :
    ∃ effect, world.move? build (.step me) = some (world.after me effect, effect.events) ∧
      effect.lock = point.pass me world.lock ∧
      way.Underway me start [] points
        (turns ++ [⟨world, .step me, world.after me effect, effect.events⟩])
        (world.after me effect) := by
  obtain ⟨effect, hstep, hpasses⟩ := h.exists_step? hreach hpoised hpath
  have hbusy : (world.thread me).activity = .busy way.call point := by
    rw [h.self]
    exact activity_threadAt way _ point points
  have hpoint := Lock.cases_of_suffix hpath
  have hjoins : point.isJoining = false := by
    obtain ⟨rfl, _⟩ | ⟨rfl, _⟩ | ⟨_, _, rfl, _⟩ | ⟨rfl, _⟩ := hpoint <;> rfl
  have hpolls (call : Call σ) : (world.thread me).activity ≠ .busy call .polling := by
    rw [hbusy]
    obtain ⟨rfl, _⟩ | ⟨rfl, _⟩ | ⟨_, _, rfl, _⟩ | ⟨rfl, _⟩ := hpoint <;> nofun
  have rule := ThreadState.rule_of_step? hstep
  have hmove := World.move?_of_step? hbusy hjoins hstep
  refine ⟨effect, hmove, hpasses.lock, h.own hmove hpasses.self ?_ ?_ ?_ ?_ ?_ ?_ ?_⟩
  · rintro (hcalls | hlater)
    · cases hcalls
    · by_cases hlowers : point = .lowering
      · rw [hpasses.lock, hlowers]
        rfl
      · refine rule.advances.keepAlive (h.lowered (.inr fun hmem ↦ ?_))
        obtain rfl | hmem := List.mem_cons.mp hmem
        · exact hlowers rfl
        · exact hlater hmem
  · rw [hpasses.lock]
    by_cases hdisposes : point = .disposing
    · obtain ⟨rfl, _⟩ | ⟨_, rfl⟩ | ⟨_, _, rfl, _⟩ | ⟨rfl, _⟩ := hpoint
      · cases hdisposes
      · rw [hdisposes, if_neg start.lock.disposing_notMem_lastPoints]
        rfl
      · cases hdisposes
      · cases hdisposes
    · rw [Point.teardown_pass _ _ hdisposes, h.installed]
      simp only [List.mem_cons, Ne.symm hdisposes, false_or]
  · rintro rfl
    obtain ⟨_, hpoints⟩ | ⟨_, hpoints⟩ | ⟨_, _, _, hpoints⟩ | ⟨rfl, _⟩ := hpoint
    · cases hpoints
    · exact absurd hpoints.symm (List.append_ne_nil_of_right_ne_nil _ (List.cons_ne_nil _ _))
    · cases hpoints
    · rw [hpasses.lock]
      rfl
  · rw [hpasses.lock, Point.stats_pass]
    exact h.yields
  · rw [hpasses.entered, List.filterMap_cons]
    cases point.teardown? <;> rfl
  · exact fun hpoints ↦ ⟨rfl, hpasses.answered hpoints⟩
  · exact rule.awake (hreach.fits me).sound hpolls

/-- The calls of a way, made among moves of others, bring the thread to the first point. -/
theorem Underway.play_calls {opening : List (Move σ)} {later : List (Turn σ)}
    (h : way.Underway me start calls start.lock.pathToEnd turns world)
    (hreach : Reachable build world) (hpoised : start.IsPoised me)
    (hopen : way.isOpenTo (start.thread me) = true) (hcalls : calls <:+ way.calls)
    (hown : opening.filter (·.isOf me) = calls.map (.call me))
    (hplay : world.play? build opening = some (later, last)) :
    Reachable build last ∧
      way.Underway me start [] start.lock.pathToEnd (turns ++ later) last := by
  induction opening generalizing calls turns world later with
  | nil =>
    cases hplay
    obtain rfl : calls = [] := List.map_eq_nil_iff.mp hown.symm
    rw [List.append_nil]
    exact ⟨hreach, h⟩
  | cons move opening ih =>
    obtain ⟨next, events, rest, hmove, hrest, rfl⟩ := World.play?_cons.mp hplay
    rw [List.append_cons]
    cases hmine : move.isOf me with
    | true =>
      rw [List.filter_cons_of_pos hmine] at hown
      cases calls with
      | nil => cases hown
      | cons call calls =>
        obtain ⟨rfl, hcalled⟩ := List.cons.inj hown
        obtain ⟨effect, hmade, _, hnext⟩ := h.own_call hreach hpoised hopen hcalls
        cases hmade.symm.trans hmove
        exact ih hnext (hreach.move hmove) ((List.suffix_cons _ _).trans hcalls) hcalled hrest
    | false =>
      have hother := thread?_ne hmine
      rw [List.filter_cons_of_neg (by rw [hmine]; decide)] at hown
      exact ih (h.others hreach hmove hother) (hreach.move hmove) hcalls hown hrest

/-- A thread that has made its calls only makes steps, and so it passes one point after another. -/
theorem Underway.play_steps {rest : List (Move σ)} {later : List (Turn σ)}
    (h : way.Underway me start [] points turns world) (hreach : Reachable build world)
    (hpoised : start.IsPoised me) (hpath : points <:+ start.lock.pathToEnd)
    (hsteps : ∀ move ∈ rest, move.thread? = some me → move = .step me)
    (hplay : world.play? build rest = some (later, last)) :
    Reachable build last ∧ rest.countP (·.isOf me) ≤ points.length ∧
      way.Underway me start [] (points.drop (rest.countP (·.isOf me))) (turns ++ later) last := by
  induction rest generalizing points turns world later with
  | nil =>
    cases hplay
    rw [List.append_nil]
    exact ⟨hreach, Nat.zero_le _, h⟩
  | cons move rest ih =>
    obtain ⟨next, events, tail, hmove, htail, rfl⟩ := World.play?_cons.mp hplay
    obtain ⟨hmakes, hlater⟩ := List.forall_mem_cons.mp hsteps
    rw [List.append_cons, List.countP_cons]
    cases hmine : move.isOf me with
    | true =>
      obtain rfl := hmakes (isOf_eq_true.mp hmine)
      cases points with
      | nil => exact absurd hmove (h.move?_ne_some _)
      | cons point points =>
        obtain ⟨effect, hmade, _, hnext⟩ := h.own_step hreach hpoised hpath
        cases hmade.symm.trans hmove
        obtain ⟨hlast, hcount, hafter⟩ := ih hnext (hreach.move hmove)
          ((List.suffix_cons _ _).trans hpath) hlater htail
        exact ⟨hlast, Nat.succ_le_succ hcount, hafter⟩
    | false =>
      have hother := thread?_ne hmine
      exact ih (h.others hreach hmove hother) (hreach.move hmove) hpath hlater htail

/-- What a way has led to in the end: the lock is given up for good, and the thread has been
told. -/
structure Ended (way : Way) (me : Thread) (start : World σ) (turns : List (Turn σ))
    (last : World σ) : Prop where
  released : last.lock.mutex.depth me = 0
  lowered : last.lock.keepAlive.isSet = false
  announced : last.lock.terminated.isSet = true
  worker : last.lock.worker = some me
  emptied : last.lock.teardown = none
  entered : enteredIn turns = start.lock.teardown.toList
  answered : ∃ turn ∈ turns, turn.Answers me way.call way.answer

/-- How a thread has got on since it made its calls: it passes one point with each step, it can make
each step at once and never sleeps, and after the last point the end is reached. -/
structure Course (way : Way) (build : Build) (me : Thread) (start : World σ)
    (rest : List (Move σ)) (turns : List (Turn σ)) (last : World σ) : Prop where
  steps : rest.countP (·.isOf me) ≤ start.lock.pathToEnd.length
  goesOn : rest.countP (·.isOf me) < start.lock.pathToEnd.length →
    ∃ next events, last.move? build (.step me) = some (next, events)
  awake : sleepsIn turns = 0
  ended : rest.countP (·.isOf me) = start.lock.pathToEnd.length → way.Ended me start turns last

theorem Underway.ended (h : way.Underway me start [] [] turns last) (hreach : Reachable build last)
    (hpoised : start.IsPoised me) : way.Ended me start turns last where
  released := by
    have hnone : (last.thread me).HoldsNoLevel := by
      intro session hsession
      rw [h.self] at hsession
      cases way <;> cases hsession <;> rfl
    rw [(hreach.fits me).depth, ThreadState.levels_of_holdsNoLevel hnone, h.self]
    exact hpoised.guards
  lowered := h.lowered (.inr List.not_mem_nil)
  announced := h.announced rfl
  worker := h.worker
  emptied := h.installed
  entered := by rw [← h.entered, List.filterMap_nil, List.append_nil]
  answered := h.answered rfl

theorem Underway.course {rest : List (Move σ)} (hreach : Reachable build last)
    (hpoised : start.IsPoised me) (hsteps : rest.countP (·.isOf me) ≤ start.lock.pathToEnd.length)
    (h : way.Underway me start [] (start.lock.pathToEnd.drop (rest.countP (·.isOf me))) turns
      last) : way.Course build me start rest turns last where
  steps := hsteps
  goesOn hless := by
    rw [← List.getElem_cons_drop hless] at h
    have hpath := List.drop_suffix (rest.countP (·.isOf me)) start.lock.pathToEnd
    rw [← List.getElem_cons_drop hless] at hpath
    obtain ⟨effect, hmove, _⟩ := h.own_step hreach hpoised hpath
    exact ⟨_, _, hmove⟩
  awake := h.awake
  ended hall := by
    rw [hall, List.drop_length] at h
    exact h.ended hreach hpoised

/-- From the step on that gives up the level, the signal is lowered. -/
theorem Underway.lowered_of_mem {rest : List (Move σ)}
    (h : way.Underway me start [] (start.lock.pathToEnd.drop (rest.countP (·.isOf me))) turns
      last) (hmem : .step me ∈ rest) : last.lock.keepAlive.isSet = false := by
  refine h.lowered (.inr fun hlowers ↦ ?_)
  have hpos : 0 < rest.countP (·.isOf me) := List.countP_pos_iff.mpr ⟨_, hmem, isOf_eq_true.mpr rfl⟩
  obtain ⟨count, hcount⟩ := Nat.exists_eq_succ_of_ne_zero (Nat.pos_iff_ne_zero.mp hpos)
  rw [hcount, Lock.pathToEnd, List.drop_succ_cons] at hlowers
  have hlast := List.mem_of_mem_drop hlowers
  simp [Lock.lastPoints] at hlast

end

end Way

end YieldLock
