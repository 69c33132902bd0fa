import YieldLock.Proofs.Calls
import YieldLock.Proofs.Phase

/-!
# The counters as a ledger

A step books at most one thing in the counters of the lock: an acquisition by a
thread other than the worker, a yield of a running session, a handover, or a
window that was closed. Main statements: `Rule.booking`, what a step books,
`Run.booked`, what a turn adds to the account of the calls that were made, and
`counters_are_ledger`, the counters are the numbers of such calls.
-/

namespace YieldLock

variable {σ : Type}

/-- An event shows that a worker sleeps. -/
def Event.isSleep : Event σ → Bool
  | .entry line => line.isSleep
  | _ => false

/-- How often a worker has slept in the turns of a run. -/
def sleepsIn (turns : List (Turn σ)) : Nat := (shownIn turns).countP Event.isSleep

/-- The points at which a thread needs the lock and takes it for a call that no counter is kept
of. -/
def Point.takesUncounted : Point → Bool
  | reentering | adopting | retaking => true
  | _ => false

namespace ThreadState

/-- What a step books in the counters of the lock. -/
inductive Booking (lock : Lock σ) (me : Thread) (self : ThreadState σ) (call? : Option (Call σ))
    (effect : Effect σ) : Prop where
  | nothing (hstats : effect.lock.stats = lock.stats)
      (hawake : effect.events.countP Event.isSleep = 0)
      (htakes : call? = none → lock.mutex.depth me < effect.lock.mutex.depth me →
        ∃ call point, self.activity = .busy call point ∧ point.takesUncounted = true)
  | acquisition {call : Call σ} {watch : Stopwatch} (waited : UInt64) (hnone : call? = none)
      (hbusy : self.activity = .busy call (.waiting watch))
      (hstats : effect.lock.stats = lock.stats.countAcquisition waited)
      (hawake : effect.events.countP Event.isSleep = 0)
      (htakes : lock.mutex.depth me < effect.lock.mutex.depth me)
  | yielding (hcall : call? = some .yieldNow) (hphase : self.phase? = some .running)
      (hstats : effect.lock.stats = lock.stats.countYield)
      (hawake : effect.events.countP Event.isSleep = 0)
  | handover {call : Call σ} (hnone : call? = none)
      (hbusy : self.activity = .busy call .polling)
      (hstats : effect.lock.stats = lock.stats.countHandoff)
      (hsleep : effect.events.countP Event.isSleep ≤ 1)
      (hclean : self.HoldsWhileRunning → effect.events.any (·.raises Panic.isNesting) = false →
        effect.events.countP Event.isSleep = 1)
      (hlevel : effect.lock.mutex.depth me ≤ lock.mutex.depth me)
  | window {call : Call σ} (hnone : call? = none) (hbusy : self.activity = .busy call .closing)
      (hstats : effect.lock.stats = lock.stats.countWindow)
      (hawake : effect.events.countP Event.isSleep = 0)
      (htakes : lock.mutex.depth me < effect.lock.mutex.depth me)

section

variable {build : Build} {now : Nat} {me : Thread} {lock : Lock σ} {self : ThreadState σ}
  {call? : Option (Call σ)} {effect : Effect σ}

/-- Only a step from the point where a session polls shows that it sleeps. -/
theorem Rule.awake (rule : Rule build now me lock self call? effect) (hsound : self.IsSound)
    (hpoint : ∀ call, self.activity ≠ .busy call .polling) :
    effect.events.countP Event.isSleep = 0 := by
  rw [List.countP_eq_zero]
  intro event hmem
  cases rule.origin hsound event hmem with
  | slept _ call hbusy => exact absurd hbusy (hpoint call)
  | logged | noted | tornDown | answered => nofun

/-- A thread takes a level inside a call only from a point at which it needs the lock. -/
theorem Rule.wantsLock_of_taken (rule : Rule build now me lock self none effect)
    (htakes : lock.mutex.depth me < effect.lock.mutex.depth me) :
    self.activity.wantsLock = true := by
  have hless : ¬effect.lock.mutex.depth me ≤ lock.mutex.depth me := Nat.not_le.mpr htakes
  cases rule with
  | park hbusy hwants =>
    rw [hbusy]
    exact hwants
  | obtain hbusy | obtainUnmatched hbusy | reentered hbusy | adoptLost hbusy | adoptWon hbusy
  | retake hbusy | close hbusy =>
    rw [hbusy]
    rfl
  | pollNested _ _ _ _ _ hheld =>
    have hfree : (lock.mutex.giveBack me).canTake me = true := Mutex.canTake_of_isHeldBy hheld
    have hpos : 0 < (lock.mutex.giveBack me).depth me := of_decide_eq_true hheld
    refine absurd ?_ hless
    calc
      _ = (lock.mutex.giveBack me).depth me + 1 := Mutex.depth_take_self hfree
      _ ≤ lock.mutex.depth me := by
        rw [Mutex.depth_giveBack_self] at hpos ⊢
        omega
  | pollSleep =>
    refine absurd ?_ hless
    rw [lock_goOn, Mutex.depth_giveBack_self]
    exact Nat.sub_le _ _
  | giveUp =>
    refine absurd ?_ hless
    rw [lock_goOn, Mutex.depth_giveBackIf_self]
    exact Nat.sub_le _ _
  | giveUpNested =>
    refine absurd ?_ hless
    rw [lock_fail, Mutex.depth_giveBackIf_self]
    exact Nat.sub_le _ _
  | startLate | tearDownFailed => exact absurd (Nat.le_of_eq (by rw [lock_fail])) hless
  | recheck => exact absurd (Nat.le_of_eq (by rw [lock_check])) hless
  | mark => exact absurd (Nat.le_of_eq (by rw [lock_conclude])) hless
  | _ => exact absurd (Nat.le_refl _) hless

/-- A call that leaves the counters as they are in its first step. -/
theorem Rule.booking_call {call : Call σ}
    (rule : Rule build now me lock self (some call) effect) (hsound : self.IsSound)
    (hidle : self.activity = .idle) (hstats : effect.lock.stats = lock.stats) :
    Booking lock me self (some call) effect :=
  .nothing hstats (rule.awake hsound (by rw [hidle]; nofun)) nofun

/-- A further step that leaves the counters as they are. -/
theorem Rule.booking_step (rule : Rule build now me lock self none effect)
    (hsound : self.IsSound) {call : Call σ} {point : Point}
    (hbusy : self.activity = .busy call point)
    (hpoint : point ≠ .polling) (hstats : effect.lock.stats = lock.stats)
    (huncounted : point.wantsLock = true → point.takesUncounted = true) :
    Booking lock me self none effect := by
  refine .nothing hstats (rule.awake hsound ?_) fun _ htakes ↦ ?_
  · intro other hother
    rw [hbusy] at hother
    cases hother
    exact hpoint rfl
  · have hwants := rule.wantsLock_of_taken htakes
    rw [hbusy] at hwants
    exact ⟨call, point, hbusy, huncounted hwants⟩

theorem Rule.booking (rule : Rule build now me lock self call? effect) (h : self.Fits lock me) :
    Booking lock me self call? effect := by
  have hsound := h.sound
  have hrule := rule
  cases rule with
  | obtain hbusy hfree =>
    refine .acquisition _ rfl hbusy rfl (hrule.awake hsound (by simp [hbusy])) ?_
    exact (Mutex.depth_take_self hfree).symm ▸ Nat.lt_succ_self _
  | yieldToExit hidle hsession hphase | yieldToPoll hidle hsession hphase =>
    refine .yielding rfl ?_ rfl (hrule.awake hsound (by simp [hidle]))
    rw [phase?, hsession, Option.map_some, hphase]
  | pollNested hbusy _ hsession hholds _ hheld =>
    refine .handover rfl hbusy rfl (Nat.zero_le _) ?_ ?_
    · obtain ⟨rfl, _⟩ := hsound.place _ _ hbusy
      exact fun _ hclean ↦ by cases hclean
    · rw [lock_answer, Mutex.depth_take_self (Mutex.canTake_of_isHeldBy hheld)]
      have hpos : 0 < (lock.mutex.giveBack me).depth me := of_decide_eq_true hheld
      rw [Mutex.depth_giveBack_self] at hpos ⊢
      omega
  | pollSleep hbusy =>
    refine .handover rfl hbusy rfl (Nat.le_refl _) (fun _ _ ↦ rfl) ?_
    rw [lock_goOn, Mutex.depth_giveBack_self]
    exact Nat.sub_le _ _
  | pollFree hbusy _ hsession =>
    refine .handover rfl hbusy rfl (Nat.zero_le _) ?_ (Nat.le_refl _)
    intro hholds
    obtain ⟨_, session, hsome, hphase⟩ := hsound.place _ _ hbusy
    have hheld := hholds session hsome hphase
    rw [hsession session hsome] at hheld
    cases hheld
  | pollNone hbusy =>
    refine .nothing rfl rfl fun _ htakes ↦ ?_
    exact absurd htakes (Nat.lt_irrefl _)
  | close hbusy hfree =>
    refine .window rfl hbusy ?_ (hrule.awake hsound (by simp [hbusy])) ?_
    · rw [lock_check]
    · rw [lock_check, Mutex.depth_take_self hfree]
      exact Nat.lt_succ_self _
  | park hbusy hwants =>
    exact .nothing rfl rfl fun _ htakes ↦ absurd htakes (Nat.lt_irrefl _)
  | obtainUnmatched hbusy hfree =>
    refine .nothing ?_ (hrule.awake hsound (by simp [hbusy])) fun _ htakes ↦ ?_
    · rw [lock_fail]
    · rw [lock_fail, h.depth_giveBack_take hfree, h.depth] at htakes
      exact absurd htakes (Nat.lt_irrefl _)
  | adoptLost hbusy | startLate hbusy | giveUpNested hbusy =>
    exact hrule.booking_step hsound hbusy (by simp) (by rw [lock_fail]) (by decide)
  | retake hbusy | recheck hbusy =>
    exact hrule.booking_step hsound hbusy (by simp) (by rw [lock_check]) (by decide)
  | mark hbusy =>
    exact hrule.booking_step hsound hbusy (by simp) (by rw [lock_conclude]) (by decide)
  | tearDown hbusy =>
    exact hrule.booking_step hsound hbusy (by simp) rfl (by simp [Point.wantsLock])
  | tearDownFailed hbusy =>
    exact hrule.booking_step hsound hbusy (by simp) (by rw [lock_fail]) (by simp [Point.wantsLock])
  | reentered hbusy | adoptWon hbusy =>
    exact hrule.booking_step hsound hbusy (by simp) rfl fun _ ↦ rfl
  | start hbusy | wake hbusy | giveUp hbusy | dispose hbusy | disposeNone hbusy | joined hbusy =>
    exact hrule.booking_step hsound hbusy (by simp) rfl (by simp [Point.wantsLock])
  | request hidle =>
    exact hrule.booking_call hsound hidle (by rw [lock_answer, Lock.lock_requestShutdown])
  | closeRunning hidle => exact hrule.booking_call hsound hidle (by rw [lock_check])
  | dropEnded hidle | finishEnded hidle =>
    exact hrule.booking_call hsound hidle (by rw [lock_conclude])
  | _ hidle => exact hrule.booking_call hsound hidle rfl

/-- A session that yields while it is running is counted. -/
theorem Rule.countYield_of_running (rule : Rule build now me lock self (some .yieldNow) effect)
    (hrunning : self.phase? = some .running) : effect.lock.stats = lock.stats.countYield := by
  have hother {session : Session} (hsession : self.session = some session) :
      session.phase = .running := by
    rwa [phase?, hsession, Option.map_some, Option.some_inj] at hrunning
  cases rule with
  | yieldToExit | yieldToPoll => rfl
  | yieldAfterExit _ hsession hphase | yieldInWindow _ hsession hphase =>
    cases (hother hsession).symm.trans hphase
  | outOfReach _ hcall => obtain h | ⟨_, h⟩ := hcall <;> cases h
  | dropBegin _ hcall | dropEnded _ hcall => obtain h | ⟨_, h⟩ := hcall <;> cases h

/-- A session polls after the first step of a yield and at no other time. -/
theorem Rule.of_polling (rule : Rule build now me lock self call? effect) {call : Call σ}
    (hpolling : effect.self.activity = .busy call .polling) :
    call? = some .yieldNow ∧ self.phase? = some .running := by
  have hyield : effect.self.activity.handoffs? = some 0 := by
    rw [hpolling]
    rfl
  cases rule with
  | yieldToPoll _ hsession hphase =>
    refine ⟨rfl, ?_⟩
    rw [phase?, hsession, Option.map_some, hphase]
  | park hbusy hwants =>
    rw [hpolling] at hbusy
    cases hbusy
    cases hwants
  | obtainUnmatched | startLate | adoptLost | giveUpNested | tearDownFailed =>
    rw [handoffs?_fail] at hyield
    cases hyield
  | dropEnded | finishEnded | mark =>
    rw [handoffs?_conclude] at hyield
    cases hyield
  | closeRunning | retake | recheck | close =>
    rw [handoffs?_check] at hyield
    cases hyield
  | _ => cases hpolling

end

end ThreadState

section

variable {build : Build} {start world : World σ} {turns : List (Turn σ)} {me : Thread}
  {turn : Turn σ}

/-- Of two threads at most one polls, because only the worker does. -/
theorem Reachable.polling_unique (h : Reachable build world) {other : Thread} {call made : Call σ}
    (hme : (world.thread me).activity = .busy call .polling)
    (hother : (world.thread other).activity = .busy made .polling) : other = me := by
  have hworker (name : Thread) (call : Call σ)
      (hbusy : (world.thread name).activity = .busy call .polling) :
      world.lock.worker = some name := by
    obtain ⟨_, session, hsession, _⟩ := (h.fits name).sound.place _ _ hbusy
    exact (h.fits name).worker (by rw [hsession]; rfl)
  exact Option.some_inj.mp ((hworker other made hother).symm.trans (hworker me call hme))

/-- A thread polls after a turn because it has just begun a counted yield, or it has polled before
and the turn is not its own. -/
theorem Turn.IsMove.of_polling (hmove : turn.IsMove build) {call : Call σ}
    (hpolling : (turn.after.thread me).activity = .busy call .polling) :
    turn.kind? = some .yield ∨
      turn.move.thread? ≠ some me ∧ (turn.before.thread me).activity = .busy call .polling := by
  have change := World.change_of_move? hmove
  by_cases hmine : turn.move.thread? = some me
  · obtain ⟨before, move, after, events⟩ := turn
    change World.Change build before move after events at change
    cases change with
    | enter name title =>
      obtain rfl := Option.some_inj.mp hmine
      rw [World.thread_enlist, if_pos rfl] at hpolling
      cases hpolling
    | pass => cases hmine
    | own name call? effect _ rule =>
      rw [Move.thread?_ofThread, Option.some_inj] at hmine
      subst hmine
      rw [World.thread_after_self] at hpolling
      obtain ⟨rfl, hphase⟩ := rule.of_polling hpolling
      exact .inl (if_pos hphase)
    | spawn name child hidle =>
      obtain rfl := Option.some_inj.mp hmine
      rw [World.thread, Roster.get_set_self] at hpolling
      cases hidle.symm.trans hpolling
    | spawnRefused name child hidle =>
      obtain rfl := Option.some_inj.mp hmine
      cases hidle.symm.trans hpolling
  · obtain hkept | ⟨_, title, hborn⟩ := change.thread_of_others hmine
    · exact .inr ⟨hmine, hkept ▸ hpolling⟩
    · rw [hborn] at hpolling
      cases hpolling

/-- What a turn at the end of a history adds to the account of its calls. -/
inductive Booked (turns : List (Turn σ)) (turn : Turn σ) : Prop where
  | nothing (hstats : turn.after.lock.stats = turn.before.lock.stats)
      (hserved : ∀ kind, kind ≠ .yield → served kind (turns ++ [turn]) = served kind turns)
      (hkind : turn.kind? ≠ some .yield) (hawake : turn.events.countP Event.isSleep = 0)
  | acquisition (waited : UInt64)
      (hstats : turn.after.lock.stats = turn.before.lock.stats.countAcquisition waited)
      (hserved : served .acquisition (turns ++ [turn]) = served .acquisition turns + 1)
      (hwindows : served .window (turns ++ [turn]) = served .window turns)
      (hkind : turn.kind? ≠ some .yield) (hawake : turn.events.countP Event.isSleep = 0)
  | yielding (hstats : turn.after.lock.stats = turn.before.lock.stats.countYield)
      (hserved : ∀ kind, served kind (turns ++ [turn]) = served kind turns)
      (hkind : turn.kind? = some .yield) (hawake : turn.events.countP Event.isSleep = 0)
  | handover {me : Thread} {call : Call σ}
      (hbusy : (turn.before.thread me).activity = .busy call .polling)
      (hmine : turn.move.thread? = some me)
      (hstats : turn.after.lock.stats = turn.before.lock.stats.countHandoff)
      (hserved : ∀ kind, served kind (turns ++ [turn]) = served kind turns)
      (hkind : turn.kind? ≠ some .yield) (hsleep : turn.events.countP Event.isSleep ≤ 1)
      (hclean : (turn.before.thread me).HoldsWhileRunning →
        turn.raises Panic.isNesting = false → turn.events.countP Event.isSleep = 1)
  | window (hstats : turn.after.lock.stats = turn.before.lock.stats.countWindow)
      (hserved : served .window (turns ++ [turn]) = served .window turns + 1)
      (hacquisitions : served .acquisition (turns ++ [turn]) = served .acquisition turns)
      (hkind : turn.kind? ≠ some .yield) (hawake : turn.events.countP Event.isSleep = 0)

/-- Only what a turn takes for the last call of its own thread can count. -/
theorem served_snoc_of_own {kind : CallKind} (hmine : turn.move.thread? = some me)
    (h : ∀ asked later, AskedLast me turns asked later → turn.isCallBy me = false →
      turn.takesLevel me = true → asked.kind? ≠ some kind) :
    served kind (turns ++ [turn]) = served kind turns := by
  apply served_snoc_of_last
  intro name asked later hlast hcall htakes
  have hname := Turn.thread?_of_takesLevel htakes
  rw [hmine, Option.some_inj] at hname
  subst hname
  exact h asked later hlast hcall htakes

theorem served_snoc_of_le (hmine : turn.move.thread? = some me)
    (hlevel : turn.after.lock.mutex.depth me ≤ turn.before.lock.mutex.depth me)
    (kind : CallKind) : served kind (turns ++ [turn]) = served kind turns := by
  apply served_snoc_of_own hmine
  intro asked later _ _ htakes
  cases (Turn.takesLevel_of_le hlevel).symm.trans htakes

theorem served_snoc_of_lock (hkept : turn.after.lock = turn.before.lock) (kind : CallKind) :
    served kind (turns ++ [turn]) = served kind turns := by
  apply served_snoc_of_last
  intro name asked later _ _ htakes
  have hnone : turn.takesLevel name = false :=
    Turn.takesLevel_of_le (Nat.le_of_eq (by rw [hkept]))
  cases hnone.symm.trans htakes

theorem Turn.exists_of_kind?_yield (h : turn.kind? = some .yield) :
    ∃ me, turn.move = .call me .yieldNow ∧ (turn.before.thread me).phase? = some .running := by
  unfold kind? at h
  split at h
  · split at h <;> cases h
  · split at h
    · exact ⟨_, ‹_›, ‹_›⟩
    · cases h
  · split at h <;> cases h
  · cases h

theorem Turn.kind?_of_yield (hmove : turn.move = .call me .yieldNow)
    (hphase : (turn.before.thread me).phase? = some .running) : turn.kind? = some .yield := by
  rw [kind?, hmove]
  exact if_pos hphase

theorem booked_of_call {call : Call σ} {effect : Effect σ} (hreach : Reachable build turn.before)
    (hcalls : turn.move = .call me call) (hafter : turn.after = turn.before.after me effect)
    (hevents : turn.events = effect.events)
    (rule : ThreadState.Rule build turn.before.clock me turn.before.lock (turn.before.thread me)
      (some call) effect) : Booked turns turn := by
  have hmine : turn.move.thread? = some me := by
    rw [hcalls]
    rfl
  have hserved (kind : CallKind) : served kind (turns ++ [turn]) = served kind turns :=
    served_snoc_of_own hmine fun _ _ _ hnone _ ↦
      nomatch (Turn.isCallBy_of_call hcalls).symm.trans hnone
  cases rule.booking (hreach.fits me) with
  | nothing hstats hawake =>
    refine .nothing (hafter ▸ hstats) (fun kind _ ↦ hserved kind) ?_ (hevents ▸ hawake)
    intro hkind
    obtain ⟨name, hyields, hphase⟩ := Turn.exists_of_kind?_yield hkind
    rw [hcalls] at hyields
    cases hyields
    have hcounted := hstats.symm.trans (rule.countYield_of_running hphase)
    have hcalls : turn.before.lock.stats.yieldCalls = turn.before.lock.stats.yieldCalls + 1 :=
      congrArg Stats.yieldCalls hcounted
    simp at hcalls
  | yielding hcall hphase hstats hawake =>
    obtain rfl := Option.some_inj.mp hcall
    exact .yielding (hafter ▸ hstats) hserved (Turn.kind?_of_yield hcalls hphase)
      (hevents ▸ hawake)
  | acquisition _ hnone | handover hnone | window hnone => cases hnone

/-- A thread that awaits a level or polls has made a call of the kind that leads there, and has not
had the level yet. -/
theorem Explained.exists_asked (h : Explained turns world me) (hreach : Reachable build world)
    {call : Call σ} {point : Point} (hbusy : (world.thread me).activity = .busy call point)
    (hpoint : point.awaitsLevel = true ∨ point = .polling) :
    ∃ asked later, AskedLast me turns asked later ∧ point.Follows asked ∧
      (point.awaitsLevel = true → asked.hasTaken later = false) := by
  have hplace := (hreach.fits me).sound.place call point hbusy
  obtain rfl | ⟨asked, later, hlast⟩ := h.asked call point hbusy
  · cases point with
    | waiting => cases hplace
    | closing | polling => cases hplace.1
    | _ => obtain h | h := hpoint <;> cases h
  · exact ⟨asked, later, hlast, h.follows call point hbusy asked later hlast⟩

theorem Explained.booked_of_step {effect : Effect σ} (h : Explained turns turn.before me)
    (hreach : Reachable build turn.before) (hsteps : turn.move = .step me)
    (hafter : turn.after = turn.before.after me effect) (hevents : turn.events = effect.events)
    (rule : ThreadState.Rule build turn.before.clock me turn.before.lock (turn.before.thread me)
      none effect) : Booked turns turn := by
  have hmine : turn.move.thread? = some me := by
    rw [hsteps]
    rfl
  have hcall : turn.isCallBy me = false := by
    rw [Turn.isCallBy, hsteps]
    rfl
  have hkind : turn.kind? ≠ some .yield := by
    rw [Turn.kind?, hsteps]
    simp
  have hlevel (htakes : turn.before.lock.mutex.depth me < effect.lock.mutex.depth me) :
      turn.takesLevel me = true := by
    rw [Turn.takesLevel, hmine, hafter, World.lock_after, decide_eq_true htakes]
    exact Bool.and_true _ ▸ beq_self_eq_true _
  cases rule.booking (hreach.fits me) with
  | nothing hstats hawake htakes =>
    refine .nothing (hafter ▸ hstats) (fun kind hother ↦ ?_) hkind (hevents ▸ hawake)
    by_cases hlevel : turn.before.lock.mutex.depth me < effect.lock.mutex.depth me
    · obtain ⟨call, point, hbusy, hpoint⟩ := htakes rfl hlevel
      apply served_snoc_of_own hmine
      intro asked later hlast _ _ hasked
      have hfollows := (h.follows call point hbusy asked later hlast).1
      cases point with
      | reentering | adopting => cases hfollows.symm.trans hasked
      | retaking => exact hother (Option.some_inj.mp (hfollows.symm.trans hasked)).symm
      | _ => cases hpoint
    · exact served_snoc_of_le hmine (hafter ▸ Nat.not_lt.mp hlevel) kind
  | acquisition waited _ hbusy hstats hawake htakes =>
    obtain ⟨asked, later, hlast, hasked, huntaken⟩ := h.exists_asked hreach hbusy (.inl rfl)
    refine .acquisition waited (hafter ▸ hstats) ?_ ?_ hkind (hevents ▸ hawake)
    · exact served_snoc_of_taken hlast (huntaken rfl) hasked hcall (hlevel htakes)
    · apply served_snoc_of_own hmine
      intro other since hother _ _ hwindow
      cases ((h.follows _ _ hbusy other since hother).1).symm.trans hwindow
  | yielding hnone => cases hnone
  | handover _ hbusy hstats hsleep hclean hkept =>
    refine .handover hbusy hmine (hafter ▸ hstats) ?_ hkind (hevents ▸ hsleep) ?_
    · exact served_snoc_of_le hmine (hafter ▸ hkept)
    · intro hholds hraises
      rw [Turn.raises, hevents] at hraises
      exact hevents ▸ hclean hholds hraises
  | window _ hbusy hstats hawake htakes =>
    obtain ⟨asked, later, hlast, hasked, huntaken⟩ := h.exists_asked hreach hbusy (.inl rfl)
    refine .window (hafter ▸ hstats) ?_ ?_ hkind (hevents ▸ hawake)
    · exact served_snoc_of_taken hlast (huntaken rfl) hasked hcall (hlevel htakes)
    · apply served_snoc_of_own hmine
      intro other since hother _ _ hacquisition
      cases ((h.follows _ _ hbusy other since hother).1).symm.trans hacquisition

/-- Every turn of a run adds one of five things to the account, or nothing. -/
theorem Run.booked (run : Run build start turns turn.before) (hnew : start.IsNew)
    (hmove : turn.IsMove build) : Booked turns turn := by
  have hreach := run.reachable hnew
  have hexplained := run.explained hnew
  obtain ⟨before, move, after, events⟩ := turn
  have change : World.Change build before move after events := World.change_of_move? hmove
  cases change with
  | own name call? effect _ rule =>
    cases call? with
    | some call => exact booked_of_call hreach rfl rfl rfl rule
    | none => exact (hexplained name).booked_of_step hreach rfl rfl rfl rule
  | enter | pass | spawn | spawnRefused =>
    exact .nothing rfl (fun kind _ ↦ served_snoc_of_lock rfl kind) nofun rfl

/-- The counters of a lock after a history, and how they compare with the number of handovers. -/
structure Tallies (turns : List (Turn σ)) (world : World σ) (handed : Nat) : Prop where
  acquisitions : world.lock.stats.acquisitions = UInt64.ofNat (served .acquisition turns)
  yieldCalls : world.lock.stats.yieldCalls =
    UInt64.ofNat (turns.countP (·.kind? = some .yield))
  windows : world.lock.stats.windows = UInt64.ofNat (served .window turns)
  handoffs : world.lock.stats.handoffs = UInt64.ofNat handed
  slept : sleepsIn turns ≤ handed
  clean : (∀ turn ∈ turns, turn.raises Panic.isNesting = false) → handed = sleepsIn turns
  yielded : handed ≤ turns.countP (·.kind? = some .yield)
  polling : ∀ me call, (world.thread me).activity = .busy call .polling →
    handed < turns.countP (·.kind? = some .yield)

theorem sleepsIn_snoc (turns : List (Turn σ)) (turn : Turn σ) :
    sleepsIn (turns ++ [turn]) = sleepsIn turns + turn.events.countP Event.isSleep :=
  countP_shownIn_snoc Event.isSleep turns turn

theorem countP_yield_snoc (turns : List (Turn σ)) (turn : Turn σ) :
    (turns ++ [turn]).countP (·.kind? = some .yield) =
      turns.countP (·.kind? = some .yield) + if turn.kind? = some .yield then 1 else 0 := by
  rw [List.countP_append, List.countP_singleton]
  simp only [decide_eq_true_eq]

theorem tallies_of_new (hnew : start.IsNew) : Tallies [] start 0 := by
  obtain ⟨value, config, teardown, hlock⟩ := hnew.lock.exists_eq
  have hstats : start.lock.stats = {} := by rw [hlock]
  refine ⟨by rw [hstats]; rfl, by rw [hstats]; rfl, by rw [hstats]; rfl, by rw [hstats]; rfl,
    Nat.le_refl _, fun _ ↦ rfl, Nat.le_refl _, fun me call hbusy ↦ ?_⟩
  rw [World.thread_of_new hnew] at hbusy
  cases hbusy

/-- A turn that books no yield and no handover keeps the comparison of the two. -/
theorem Tallies.snoc {handed : Nat} (h : Tallies turns turn.before handed)
    (hmove : turn.IsMove build) (hkind : turn.kind? ≠ some .yield)
    (hawake : turn.events.countP Event.isSleep = 0)
    (hacquisitions : turn.after.lock.stats.acquisitions =
      UInt64.ofNat (served .acquisition (turns ++ [turn])))
    (hwindows : turn.after.lock.stats.windows = UInt64.ofNat (served .window (turns ++ [turn])))
    (hyields : turn.after.lock.stats.yieldCalls = turn.before.lock.stats.yieldCalls)
    (hhandoffs : turn.after.lock.stats.handoffs = turn.before.lock.stats.handoffs) :
    Tallies (turns ++ [turn]) turn.after handed := by
  have hcount := countP_yield_snoc turns turn
  rw [if_neg hkind, Nat.add_zero] at hcount
  have hsleeps : sleepsIn (turns ++ [turn]) = sleepsIn turns := by
    rw [sleepsIn_snoc, hawake, Nat.add_zero]
  refine ⟨hacquisitions, ?_, hwindows, hhandoffs.trans h.handoffs, ?_, fun hclean ↦ ?_, ?_,
    fun me call hbusy ↦ ?_⟩
  · rw [hyields, hcount]
    exact h.yieldCalls
  · rw [hsleeps]
    exact h.slept
  · rw [hsleeps]
    exact h.clean fun turn hmem ↦ hclean turn (List.mem_append_left _ hmem)
  · rw [hcount]
    exact h.yielded
  · rw [hcount]
    obtain hyield | ⟨_, hbefore⟩ := hmove.of_polling hbusy
    · exact absurd hyield hkind
    · exact h.polling me call hbefore

theorem Run.exists_tallies (run : Run build start turns world) (hnew : start.IsNew) :
    ∃ handed, Tallies turns world handed := by
  induction run with
  | nil => exact ⟨0, tallies_of_new hnew⟩
  | @snoc turns turn run hmove ih =>
    obtain ⟨handed, h⟩ := ih
    have hcount := countP_yield_snoc turns turn
    have hone (number : Nat) : UInt64.ofNat number + 1 = UInt64.ofNat (number + 1) :=
      (UInt64.ofNat_add number 1).symm
    cases run.booked hnew hmove with
    | nothing hstats hserved hkind hawake =>
      refine ⟨handed, h.snoc hmove hkind hawake ?_ ?_ (by rw [hstats]) (by rw [hstats])⟩
      · rw [hstats, hserved .acquisition nofun, h.acquisitions]
      · rw [hstats, hserved .window nofun, h.windows]
    | acquisition waited hstats hserved hother hkind hawake =>
      refine ⟨handed, h.snoc hmove hkind hawake ?_ ?_ (by rw [hstats]; rfl) (by rw [hstats]; rfl)⟩
      · rw [hstats, hserved, ← hone, ← h.acquisitions]
        rfl
      · rw [hstats, hother, ← h.windows]
        rfl
    | window hstats hserved hother hkind hawake =>
      refine ⟨handed, h.snoc hmove hkind hawake ?_ ?_ (by rw [hstats]; rfl) (by rw [hstats]; rfl)⟩
      · rw [hstats, hother, ← h.acquisitions]
        rfl
      · rw [hstats, hserved, ← hone, ← h.windows]
        rfl
    | yielding hstats hserved hkind hawake =>
      rw [if_pos hkind] at hcount
      have hsleeps : sleepsIn (turns ++ [turn]) = sleepsIn turns := by
        rw [sleepsIn_snoc, hawake, Nat.add_zero]
      refine ⟨handed, ?_, ?_, ?_, ?_, ?_, fun hclean ↦ ?_, ?_, fun _ _ _ ↦ ?_⟩
      · rw [hstats, hserved, ← h.acquisitions]
        rfl
      · rw [hstats, hcount, ← hone, ← h.yieldCalls]
        rfl
      · rw [hstats, hserved, ← h.windows]
        rfl
      · rw [hstats, ← h.handoffs]
        rfl
      · rw [hsleeps]
        exact h.slept
      · rw [hsleeps]
        exact h.clean fun turn hmem ↦ hclean turn (List.mem_append_left _ hmem)
      · rw [hcount]
        exact Nat.le_succ_of_le h.yielded
      · rw [hcount]
        exact Nat.lt_succ_of_le h.yielded
    | @handover me call hbusy hmine hstats hserved hkind hsleep hawake =>
      rw [if_neg hkind, Nat.add_zero] at hcount
      have hreach := run.reachable hnew
      refine ⟨handed + 1, ?_, ?_, ?_, ?_, ?_, fun hclean ↦ ?_, ?_, fun other made hpolling ↦ ?_⟩
      · rw [hstats, hserved, ← h.acquisitions]
        rfl
      · rw [hstats, hcount, ← h.yieldCalls]
        rfl
      · rw [hstats, hserved, ← h.windows]
        rfl
      · rw [hstats, ← hone, ← h.handoffs]
        rfl
      · rw [sleepsIn_snoc]
        exact Nat.add_le_add h.slept hsleep
      · rw [List.forall_mem_append, List.forall_mem_singleton] at hclean
        have hholds : (turn.before.thread me).HoldsWhileRunning :=
          run.holdsWhileRunning hnew hclean.1
        rw [sleepsIn_snoc, hawake hholds hclean.2, h.clean hclean.1]
      · rw [hcount]
        exact h.polling me call hbusy
      · -- The thread that polled has gone on, and no other can have polled beside it.
        obtain hyield | ⟨hne, hbefore⟩ := hmove.of_polling hpolling
        · exact absurd hyield hkind
        · rw [hreach.polling_unique hbusy hbefore] at hne
          exact absurd hmine hne

/-- Only a thread whose last call is one that a counter is kept of changes a counter. -/
theorem Run.kind?_isSome_of_counted (run : Run build start turns turn.before) (hnew : start.IsNew)
    (hmove : turn.IsMove build) (hcounted : turn.after.lock.stats ≠ turn.before.lock.stats) :
    ∃ me asked later, turn.move.thread? = some me ∧ AskedLast me (turns ++ [turn]) asked later ∧
      asked.kind?.isSome = true := by
  have hreach := run.reachable hnew
  have hexplained := run.explained hnew
  obtain ⟨before, move, after, events⟩ := turn
  have change : World.Change build before move after events := World.change_of_move? hmove
  cases change with
  | enter | pass | spawn | spawnRefused => exact absurd rfl hcounted
  | own name call? effect _ rule =>
    cases rule.booking (hreach.fits name) with
    | nothing hstats => exact absurd hstats hcounted
    | yielding hcall hphase =>
      subst hcall
      refine ⟨name, _, [], rfl, .of_call (Turn.isCallBy_of_call rfl), ?_⟩
      rw [Turn.kind?_of_yield rfl hphase]
      rfl
    | acquisition _ hnone hbusy =>
      subst hnone
      obtain ⟨asked, later, hlast, hasked, _⟩ :=
        (hexplained name).exists_asked hreach hbusy (.inl rfl)
      exact ⟨name, asked, _, rfl, hlast.snoc rfl, by rw [hasked]; rfl⟩
    | handover hnone hbusy =>
      subst hnone
      obtain ⟨asked, later, hlast, hasked, _⟩ :=
        (hexplained name).exists_asked hreach hbusy (.inr rfl)
      exact ⟨name, asked, _, rfl, hlast.snoc rfl, by rw [hasked]; rfl⟩
    | window hnone hbusy =>
      subst hnone
      obtain ⟨asked, later, hlast, hasked, _⟩ :=
        (hexplained name).exists_asked hreach hbusy (.inl rfl)
      exact ⟨name, asked, _, rfl, hlast.snoc rfl, by rw [hasked]; rfl⟩

theorem countP_kind?_le_countP_isCall (kind : CallKind) (turns : List (Turn σ)) :
    turns.countP (·.kind? = some kind) ≤ turns.countP Turn.isCall := by
  apply List.countP_mono_left
  intro turn _ hkind
  exact Turn.isCall_of_kind? (of_decide_eq_true hkind)

/-- In a run with fewer calls than there are words, the counters tell how many acquisitions by
threads other than the worker have got the lock, how many yields were begun by a running session,
and how many windows were closed and had the lock back, whatever the session was told then. The
handovers lie between the worker's sleeps and the yields; they are the sleeps unless an assertion
against guards was raised. Nothing else changes a counter: any turn that does belongs to a thread
whose last call is of one of the three kinds. -/
theorem counters_are_ledger (hnew : start.IsNew) (run : Run build start turns world)
    (hfew : turns.countP Turn.isCall < UInt64.size) :
    world.lock.stats.acquisitions.toNat = served .acquisition turns ∧
    world.lock.stats.yieldCalls.toNat = turns.countP (·.kind? = some .yield) ∧
    world.lock.stats.windows.toNat = served .window turns ∧
    sleepsIn turns ≤ world.lock.stats.handoffs.toNat ∧
    world.lock.stats.handoffs.toNat ≤ world.lock.stats.yieldCalls.toNat ∧
    ((∀ turn ∈ turns, turn.raises Panic.isNesting = false) →
      world.lock.stats.handoffs.toNat = sleepsIn turns) ∧
    (∀ earlier turn later, turns = earlier ++ turn :: later →
      turn.after.lock.stats ≠ turn.before.lock.stats →
      ∃ me asked since, turn.move.thread? = some me ∧
        AskedLast me (earlier ++ [turn]) asked since ∧ asked.kind?.isSome = true) := by
  obtain ⟨handed, h⟩ := run.exists_tallies hnew
  have hkinds (kind : CallKind) : turns.countP (·.kind? = some kind) < UInt64.size :=
    Nat.lt_of_le_of_lt (countP_kind?_le_countP_isCall kind turns) hfew
  have hserved (kind : CallKind) : served kind turns < UInt64.size :=
    Nat.lt_of_le_of_lt (served_le_countP kind turns) (hkinds kind)
  have hyields : world.lock.stats.yieldCalls.toNat = turns.countP (·.kind? = some .yield) := by
    rw [h.yieldCalls, UInt64.toNat_ofNat_of_lt' (hkinds .yield)]
  have hhanded : world.lock.stats.handoffs.toNat = handed := by
    rw [h.handoffs, UInt64.toNat_ofNat_of_lt' (Nat.lt_of_le_of_lt h.yielded (hkinds .yield))]
  refine ⟨?_, hyields, ?_, ?_, ?_, ?_, ?_⟩
  · rw [h.acquisitions, UInt64.toNat_ofNat_of_lt' (hserved .acquisition)]
  · rw [h.windows, UInt64.toNat_ofNat_of_lt' (hserved .window)]
  · rw [hhanded]
    exact h.slept
  · rw [hhanded, hyields]
    exact h.yielded
  · rw [hhanded]
    exact h.clean
  · rintro earlier turn later rfl hcounted
    obtain ⟨before, hmove, _⟩ := run.of_append_cons
    exact before.kind?_isSome_of_counted hnew hmove hcounted

/-- A worker hands the lock over once and closes a window, while another thread acquires the lock
once and tries a second time for nothing. -/
theorem one_of_each_is_counted :
    ∃ (start : World Unit) (turns : List (Turn Unit)) (world : World Unit), start.IsNew ∧
      Run .checked start turns world ∧ turns.countP Turn.isCall < UInt64.size ∧
      served .acquisition turns = 1 ∧ turns.countP (·.kind? = some .yield) = 1 ∧
      served .window turns = 1 ∧ sleepsIn turns = 1 ∧
      world.lock.stats.acquisitions.toNat = 1 ∧ world.lock.stats.yieldCalls.toNat = 1 ∧
      world.lock.stats.windows.toNat = 1 ∧ world.lock.stats.handoffs.toNat = 1 := by
  let start : World Unit := { lock := .standard .checked () }
  let moves : List (Move Unit) :=
    [.call "worker" .adopt, .step "worker", .call "other" .acquire, .step "other",
      .call "worker" .yieldNow, .step "worker", .step "other", .call "other" .release,
      .step "worker", .step "worker", .call "other" .tryAcquire, .call "worker" .openWindow,
      .call "worker" .closeWindow, .step "worker"]
  have hnew : start.IsNew := ⟨.standard .checked (), rfl⟩
  have hplay : ∃ ready ∈ start.play? .checked moves,
      ready.1.countP Turn.isCall < UInt64.size ∧ served .acquisition ready.1 = 1 ∧
      ready.1.countP (·.kind? = some .yield) = 1 ∧ served .window ready.1 = 1 ∧
      sleepsIn ready.1 = 1 ∧ ∀ turn ∈ ready.1, turn.raises Panic.isNesting = false := by
    decide +kernel
  obtain ⟨⟨turns, world⟩, hturns, hfew, hserved, hyields, hwindows, hsleeps, hclean⟩ := hplay
  have run : Run .checked start turns world := run_of_play? hturns
  obtain ⟨hacquisitions, hyieldCalls, hclosed, _, _, hhandoffs, _⟩ :=
    counters_are_ledger hnew run hfew
  exact ⟨start, turns, world, hnew, run, hfew, hserved, hyields, hwindows, hsleeps,
    hacquisitions.trans hserved, hyieldCalls.trans hyields, hclosed.trans hwindows,
    (hhandoffs hclean).trans hsleeps⟩

end

end YieldLock
