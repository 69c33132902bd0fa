import YieldLock.Proofs.Ending

/-!
# The phase of a session

A running session holds its level of the lock as long as no assertion against
guards has stopped a call of it halfway. While it is running another thread can
own the lock only in a yield, and that yield has been counted as a handover.
Main statements: `Run.holdsWhileRunning`, `Run.countsYield`, and
`running_session_owns_lock`.
-/

namespace YieldLock

variable {σ : Type}

/-- How often the yield in which a thread gives up the lock, or is about to, has been counted as a
handover. -/
def Activity.handoffs? : Activity σ → Option UInt64
  | busy _ .polling => some 0
  | busy _ .sleeping | busy _ .retaking => some 1
  | _ => none

theorem Activity.handoffs?_of_isReleased {activity : Activity σ}
    (h : activity.isReleased = true) : activity.handoffs? = some 1 := by
  cases activity with
  | idle | finished => cases h
  | busy call point =>
    cases point with
    | sleeping | retaking => rfl
    | _ => cases h

namespace ThreadState

/-- A session that is running holds its level. -/
def HoldsWhileRunning (self : ThreadState σ) : Prop :=
  ∀ session, self.session = some session → session.phase = .running → session.holds = true

theorem holdsWhileRunning_of_none {self : ThreadState σ} (h : self.session = none) :
    self.HoldsWhileRunning := by
  intro session hsession
  rw [h] at hsession
  cases hsession

theorem holdsWhileRunning_of_some {self : ThreadState σ} {session : Session}
    (h : self.session = some session) (hholds : session.phase = .running → session.holds = true) :
    self.HoldsWhileRunning := by
  intro other hother
  rw [h, Option.some_inj] at hother
  rw [← hother]
  exact hholds

section

variable (lock : Lock σ) (self : ThreadState σ) (call : Call σ) (entries : List Entry)

theorem holdsWhileRunning_conclude (h : self.HoldsWhileRunning) :
    (conclude lock self call).self.HoldsWhileRunning := by
  obtain hkept | hnone := session_conclude lock self call
  · intro session hsession
    exact h session (hkept ▸ hsession)
  · exact holdsWhileRunning_of_none hnone

theorem holdsWhileRunning_fail (panic : Panic) (h : self.HoldsWhileRunning) :
    (fail lock self call panic entries).self.HoldsWhileRunning := by
  obtain hkept | hnone := session_fail lock self call entries panic
  · intro session hsession
    exact h session (hkept ▸ hsession)
  · exact holdsWhileRunning_of_none hnone

theorem handoffs?_check (me : Thread) :
    (check me lock self call entries).self.activity.handoffs? = none := by
  unfold check
  split <;> rfl

theorem handoffs?_conclude : (conclude lock self call).self.activity.handoffs? = none := by
  unfold conclude
  split <;> rfl

theorem handoffs?_fail (panic : Panic) :
    (fail lock self call panic entries).self.activity.handoffs? = none := by
  unfold fail
  split <;> rfl

theorem events_fail (panic : Panic) (hlife : call.boundsLife = false) :
    (fail lock self call panic []).events = [.answered call (.panicked panic)] := by
  cases call with
  | start | finish => cases hlife
  | _ => rfl

end

section

variable {build : Build} {now : Nat} {me : Thread} {lock : Lock σ} {self : ThreadState σ}
  {call? : Option (Call σ)} {effect : Effect σ}

/-- A call that bounds the life of its thread has no guards left that could keep the lock. -/
theorem Fits.boundsLife_of_nested (h : self.Fits lock me) {call : Call σ} {session : Session}
    (hbusy : self.activity = .busy call .lowering) (hsession : self.session = some session)
    (hheld : (lock.mutex.giveBackIf me session.holds).isHeldBy me = true) :
    call.boundsLife = false := by
  apply Bool.eq_false_iff.mpr
  intro hbounds
  have hguards := h.sound.bounds _ _ hbusy hbounds
  rw [Mutex.isHeldBy, h.depth_giveBackIf hsession (by rw [hbusy]; rfl), hguards] at hheld
  cases hheld

/-- Only an assertion against guards leaves a session running without its level. -/
theorem Rule.holdsWhileRunning (rule : Rule build now me lock self call? effect)
    (h : self.Fits lock me) (hclean : effect.events.any (·.raises Panic.isNesting) = false)
    (hholds : self.HoldsWhileRunning) : effect.self.HoldsWhileRunning := by
  cases rule with
  | openNested => cases hclean
  | giveUpNested hbusy hsession _ hcall hheld =>
    rw [events_fail _ _ _ _ (h.boundsLife_of_nested hbusy hsession hheld)] at hclean
    simp [Event.raises, hcall, Panic.isNesting] at hclean
  | openWindow | giveUp => exact holdsWhileRunning_of_some rfl nofun
  | adoptWon => exact holdsWhileRunning_of_some rfl fun _ ↦ rfl
  | close => exact holdsWhileRunning_of_some (session_check ..) fun _ ↦ rfl
  | dropEnded | finishEnded | mark => exact holdsWhileRunning_conclude _ _ _ hholds
  | obtainUnmatched | startLate | adoptLost => exact holdsWhileRunning_fail _ _ _ _ _ hholds
  | tearDownFailed => exact holdsWhileRunning_fail _ _ _ _ _ hholds
  | closeRunning | retake | recheck =>
    intro session hsession
    rw [session_check] at hsession
    exact hholds session hsession
  | _ => exact hholds

/-- A step into a yield, or on in one, answers nothing and keeps the account of handovers. -/
theorem Rule.handoffs_of_yield (rule : Rule build now me lock self call? effect) {added : UInt64}
    (hyield : effect.self.activity.handoffs? = some added) :
    effect.answers = [] ∧
      (call? = some .yieldNow ∧ added = 0 ∧
          effect.lock.stats.handoffs = lock.stats.handoffs ∨
        call? = none ∧ ∃ earlier, self.activity.handoffs? = some earlier ∧
          effect.lock.stats.handoffs - added = lock.stats.handoffs - earlier) := by
  cases rule with
  | yieldToPoll =>
    cases hyield
    exact ⟨answers_goOn .., .inl ⟨rfl, rfl, rfl⟩⟩
  | pollSleep hbusy =>
    cases hyield
    refine ⟨answers_goOn .., .inr ⟨rfl, 0, by rw [hbusy]; rfl, ?_⟩⟩
    simp [Stats.countHandoff]
  | wake hbusy =>
    cases hyield
    exact ⟨answers_goOn .., .inr ⟨rfl, 1, by rw [hbusy]; rfl, rfl⟩⟩
  | park => exact ⟨rfl, .inr ⟨rfl, added, hyield, rfl⟩⟩
  | obtainUnmatched | startLate | adoptLost | giveUpNested | tearDownFailed =>
    rw [handoffs?_fail] at hyield
    cases hyield
  | dropEnded | finishEnded | mark =>
    rw [handoffs?_conclude] at hyield
    cases hyield
  | closeRunning | retake | recheck | close =>
    rw [handoffs?_check] at hyield
    cases hyield
  | _ => cases hyield

/-- Only a thread with a session adds to the handovers. -/
theorem Rule.handoffs_of_none (rule : Rule build now me lock self call? effect)
    (h : self.Fits lock me) (hnone : self.session = none) :
    effect.lock.stats.handoffs = lock.stats.handoffs := by
  cases rule with
  | pollNested _ _ hsession | pollSleep _ _ hsession =>
    rw [hnone] at hsession
    cases hsession
  | pollFree hbusy =>
    obtain ⟨_, session, hsession, _⟩ := h.sound.place _ _ hbusy
    rw [hnone] at hsession
    cases hsession
  | request => rw [lock_answer, Lock.lock_requestShutdown]
  | obtainUnmatched | startLate | adoptLost | giveUpNested | tearDownFailed => rw [lock_fail]
  | closeRunning | retake | recheck => rw [lock_check]
  | close =>
    rw [lock_check]
    rfl
  | dropEnded | finishEnded | mark => rw [lock_conclude]
  | _ => rfl

theorem IsSound.exists_session_of_yield (h : self.IsSound) {added : UInt64}
    (hyield : self.activity.handoffs? = some added) : ∃ session, self.session = some session := by
  cases hactivity : self.activity with
  | idle | finished =>
    rw [hactivity] at hyield
    cases hyield
  | busy call point =>
    have hplace := h.place _ _ hactivity
    rw [hactivity] at hyield
    cases point with
    | polling =>
      obtain ⟨_, session, hsession, _⟩ := hplace
      exact ⟨session, hsession⟩
    | sleeping | retaking => exact ⟨_, hplace.2⟩
    | _ => cases hyield

theorem invoke?_read (hidle : self.activity = .idle) {session : Session}
    (hsession : self.session = some session) (build : Build) (now : Nat) (me : Thread)
    (lock : Lock σ) : self.invoke? build now me lock (.read .session) =
      some (reach lock self (.read .session) .session lock) := by
  simp [invoke?, permits, hidle, hsession, Activity.isIdle]

theorem invoke?_write (hidle : self.activity = .idle) {session : Session}
    (hsession : self.session = some session) (build : Build) (now : Nat) (me : Thread)
    (lock : Lock σ) (value : σ) : self.invoke? build now me lock (.write .session value) =
      some (reach lock self (.write .session value) .session { lock with value }) := by
  simp [invoke?, permits, hidle, hsession, Activity.isIdle]

/-- What a session answers to a thread that reaches for the value through it. -/
def sharedAnswer (lock : Lock σ) (session : Session) : Answer σ :=
  if session.holds then .value lock.value else .panicked (.notHolding session.phase)

theorem events_reach {session : Session} (hsession : self.session = some session) (call : Call σ)
    (after : Lock σ) : (reach lock self call .session after).events =
      [.answered call (sharedAnswer lock session)] := by
  obtain ⟨phase, holds⟩ := session
  unfold reach
  rw [hsession]
  cases holds <;> rfl

end

end ThreadState

/-- Calls that reach for the value through the session. -/
def Call.isShared : Call σ → Bool
  | .read .session | .write .session _ => true
  | _ => false

/-- The thread's last call in a run is a yield that has not been answered, and since that call the
handovers have grown by some number. -/
def YieldCounted (turns : List (Turn σ)) (world : World σ) (me : Thread) (added : UInt64) : Prop :=
  ∃ earlier asked later, turns = earlier ++ asked :: later ∧ asked.move = .call me .yieldNow ∧
    (∀ turn ∈ asked :: later, ∀ call reply, ¬turn.Answers me call reply) ∧
    world.lock.stats.handoffs = asked.before.lock.stats.handoffs + added

section

variable {build : Build} {start world next : World σ} {turns : List (Turn σ)} {me : Thread}
  {session : Session} {added : UInt64}

theorem YieldCounted.snoc (h : YieldCounted turns world me added) {turn : Turn σ}
    (hsilent : ∀ call reply, ¬turn.Answers me call reply) {more : UInt64}
    (hhandoffs : turn.after.lock.stats.handoffs - more = world.lock.stats.handoffs - added) :
    YieldCounted (turns ++ [turn]) turn.after me more := by
  obtain ⟨earlier, asked, later, rfl, hasked, hnone, hcount⟩ := h
  refine ⟨earlier, asked, later ++ [turn], by simp, hasked, ?_, ?_⟩
  · intro other hmem
    rw [← List.cons_append, List.mem_append, List.mem_singleton] at hmem
    obtain hmem | rfl := hmem
    · exact hnone other hmem
    · exact hsilent
  · calc
      _ = turn.after.lock.stats.handoffs - more + more := (UInt64.sub_add_cancel _ _).symm
      _ = asked.before.lock.stats.handoffs + added - added + more := by rw [hhandoffs, hcount]
      _ = _ := by rw [UInt64.add_sub_cancel]

theorem World.Change.handoffs_of_others {move : Move σ} {events : List (Event σ)}
    (change : World.Change build world move next events) (h : Reachable build world)
    (hsession : (world.thread me).session = some session) (hne : move.thread? ≠ some me) :
    next.lock.stats.handoffs = world.lock.stats.handoffs := by
  have hworker := (h.fits me).worker (by rw [hsession]; rfl)
  cases change with
  | own name call? effect _ rule =>
    have hname : name ≠ me := by
      rintro rfl
      exact hne (Move.thread?_ofThread name call?)
    exact rule.handoffs_of_none (h.fits name) (h.session_eq_none hworker hname)
  | enter | pass | spawn | spawnRefused => rfl

/-- A move after which a thread is in a yield is its call, or the thread was in the yield before. -/
theorem World.Change.handoffs_of_yield {move : Move σ} {events : List (Event σ)}
    (change : World.Change build world move next events) (h : Reachable build world)
    (hyield : (next.thread me).activity.handoffs? = some added) :
    (move.thread? = some me → events.filterMap Event.answer? = []) ∧
      (move = .call me .yieldNow ∧ added = 0 ∧
          next.lock.stats.handoffs = world.lock.stats.handoffs ∨
        ∃ earlier, (world.thread me).activity.handoffs? = some earlier ∧
          next.lock.stats.handoffs - added = world.lock.stats.handoffs - earlier) := by
  by_cases hmine : move.thread? = some me
  · cases change with
    | enter name title =>
      cases hmine
      rw [World.thread_enlist, if_pos rfl] at hyield
      cases hyield
    | pass => cases hmine
    | own name call? effect _ rule =>
      rw [Move.thread?_ofThread, Option.some_inj] at hmine
      subst hmine
      rw [World.thread_after_self] at hyield
      obtain ⟨hnone, ⟨rfl, hcalled⟩ | ⟨rfl, hyields⟩⟩ := rule.handoffs_of_yield hyield
      · exact ⟨fun _ ↦ hnone, .inl ⟨rfl, hcalled⟩⟩
      · exact ⟨fun _ ↦ hnone, .inr hyields⟩
    | spawn name child hidle =>
      cases hmine
      simp only [World.thread, Roster.get_set_self] at hidle hyield
      rw [hidle] at hyield
      cases hyield
    | spawnRefused name child hidle =>
      cases hmine
      rw [hidle] at hyield
      cases hyield
  · refine ⟨fun h ↦ absurd h hmine, .inr ?_⟩
    obtain hkept | ⟨_, title, hborn⟩ := change.thread_of_others hmine
    · rw [hkept] at hyield
      obtain ⟨session, hsession⟩ := (h.fits me).sound.exists_session_of_yield hyield
      exact ⟨added, hyield, by rw [change.handoffs_of_others h hsession hmine]⟩
    · rw [hborn] at hyield
      cases hyield

/-- A yield from which its thread gives up the lock has been counted as a handover since its
call. -/
theorem Run.countsYield (run : Run build start turns world) (hnew : start.IsNew)
    (hyield : (world.thread me).activity.handoffs? = some added) :
    YieldCounted turns world me added := by
  induction run generalizing added with
  | nil =>
    rw [World.thread_of_new hnew] at hyield
    cases hyield
  | @snoc turns turn run hmove ih =>
    have change := World.change_of_move? hmove
    obtain ⟨hnone, hbefore⟩ := change.handoffs_of_yield (run.reachable hnew) hyield
    have hsilent : ∀ call reply, ¬turn.Answers me call reply := by
      rintro call reply ⟨hmine, hevent⟩
      have hmem := Event.mem_answers hevent
      rw [hnone hmine] at hmem
      cases hmem
    obtain ⟨hasked, rfl, hkept⟩ | ⟨earlier, hearlier, hcount⟩ := hbefore
    · refine ⟨turns, turn, [], rfl, hasked, ?_, ?_⟩
      · intro other hmem
        rwa [List.mem_singleton.mp hmem]
      · rw [hkept, UInt64.add_zero]
    · exact (ih hearlier).snoc hsilent hcount

/-- Unless an assertion against guards was raised, a session that is running holds its level. -/
theorem Run.holdsWhileRunning (run : Run build start turns world) (hnew : start.IsNew)
    (hclean : ∀ turn ∈ turns, turn.raises Panic.isNesting = false) :
    (world.thread me).HoldsWhileRunning := by
  induction run generalizing me with
  | nil =>
    rw [World.thread_of_new hnew]
    exact ThreadState.holdsWhileRunning_of_none rfl
  | @snoc turns turn run hmove ih =>
    have hearlier (name : Thread) : (turn.before.thread name).HoldsWhileRunning :=
      ih fun other hmem ↦ hclean other (List.mem_append_left _ hmem)
    have hlast : turn.raises Panic.isNesting = false :=
      hclean turn (List.mem_append_right _ (List.mem_singleton_self turn))
    have hreach := run.reachable hnew
    refine (World.change_of_move? hmove).forall_threads
      (P := fun _ _ self ↦ self.HoldsWhileRunning) hearlier ?_ ?_ ?_ ?_ ?_ me
    · exact fun name title _ ↦ ThreadState.holdsWhileRunning_of_none rfl
    · exact fun name title _ ↦ ThreadState.holdsWhileRunning_of_none rfl
    · exact fun name self handles _ hself ↦ hself
    · intro name call? effect hevents rule hself
      rw [Turn.raises, hevents] at hlast
      exact rule.holdsWhileRunning (hreach.fits name) hlast hself
    · exact fun name call? effect other _ _ hother ↦ hother

/-- A thread that reaches for the value through its session is answered at once. -/
theorem Reachable.call?_of_shared (h : Reachable build world)
    (hidle : (world.thread me).activity = .idle)
    (hsession : (world.thread me).session = some session) {call : Call σ}
    (hcall : call.isShared = true) :
    ∃ next, world.call? build me call =
      some (next, [.answered call (ThreadState.sharedAnswer world.lock session)]) := by
  have hinvoke : ∃ after, (world.thread me).invoke? build world.clock me world.lock call =
      some (ThreadState.reach world.lock (world.thread me) call .session after) := by
    cases call with
    | read access =>
      cases access with
      | guard => cases hcall
      | session => exact ⟨_, ThreadState.invoke?_read hidle hsession ..⟩
    | write access value =>
      cases access with
      | guard => cases hcall
      | session => exact ⟨_, ThreadState.invoke?_write hidle hsession ..⟩
    | _ => cases hcall
  have hspawn : call.isSpawn = false := by
    cases call with
    | spawn => cases hcall
    | _ => rfl
  obtain ⟨after, hinvoke⟩ := hinvoke
  have hknown := ThreadState.ne_default_of_session hsession
  have hmove := World.move?_of_invoke? h hknown hinvoke hspawn
  rw [ThreadState.events_reach hsession] at hmove
  exact ⟨_, hmove⟩

/-- In a run without an assertion against guards a live session belongs to the recorded worker and
holds its level exactly while it is running. It then owns the lock, except in a yield that has given
the lock up and was counted as a handover before; only then can another thread own it. So a running
session, and no other, reaches the value, and never one that another thread owns. -/
theorem running_session_owns_lock (hnew : start.IsNew) (run : Run build start turns world)
    (hclean : ∀ turn ∈ turns, turn.raises Panic.isNesting = false)
    (hsession : (world.thread me).session = some session) :
    (session.holds = true ↔ session.phase = .running) ∧
    world.lock.worker = some me ∧
    (session.phase = .running → (world.thread me).activity.isReleased = false →
      world.lock.mutex.isHeldBy me = true) ∧
    (session.phase = .running → ∀ other, other ≠ me → world.lock.mutex.isHeldBy other = true →
      (world.thread me).activity.isReleased = true ∧ YieldCounted turns world me 1) ∧
    ((world.thread me).activity = .idle → ∀ call : Call σ, call.isShared = true →
      (session.phase = .running →
        (∃ next, world.call? build me call =
            some (next, [.answered call (.value world.lock.value)])) ∧
          ∀ other, world.lock.mutex.isHeldBy other = true → other = me) ∧
      (session.phase ≠ .running →
        ∃ next, world.call? build me call =
          some (next, [.answered call (.panicked (.notHolding session.phase))]))) := by
  have hreach := run.reachable hnew
  have hfits := hreach.fits me
  have hholds : session.holds = true ↔ session.phase = .running := by
    refine ⟨fun hholds ↦ ?_, run.holdsWhileRunning hnew hclean session hsession⟩
    apply Classical.byContradiction
    intro hphase
    rw [hfits.sound.holds session hsession hphase] at hholds
    cases hholds
  have howns (hphase : session.phase = .running)
      (hreleased : (world.thread me).activity.isReleased = false) :
      world.lock.mutex.isHeldBy me = true := by
    rw [Mutex.isHeldBy, hfits.depth,
      ThreadState.levels_of_holds hsession (hholds.mpr hphase) hreleased]
    exact decide_eq_true (Nat.succ_pos _)
  have hunique (left right : Thread) (hleft : world.lock.mutex.isHeldBy left = true)
      (hright : world.lock.mutex.isHeldBy right = true) : left = right :=
    Mutex.depth_pos_unique (of_decide_eq_true hleft) (of_decide_eq_true hright)
  refine ⟨hholds, hfits.worker (by rw [hsession]; rfl), howns, ?_, ?_⟩
  · intro hphase other hother hheld
    have hreleased : (world.thread me).activity.isReleased = true := by
      apply Bool.of_not_eq_false
      intro hkept
      exact hother (hunique other me hheld (howns hphase hkept))
    exact ⟨hreleased, run.countsYield hnew (Activity.handoffs?_of_isReleased hreleased)⟩
  · intro hidle call hcall
    have hanswer := hreach.call?_of_shared hidle hsession hcall
    have hreleased : (world.thread me).activity.isReleased = false := by
      rw [hidle]
      rfl
    constructor
    · intro hphase
      rw [ThreadState.sharedAnswer, if_pos (hholds.mpr hphase)] at hanswer
      exact ⟨hanswer, fun other hheld ↦ hunique other me hheld (howns hphase hreleased)⟩
    · intro hphase
      rw [ThreadState.sharedAnswer, if_neg (mt hholds.mp hphase)] at hanswer
      exact hanswer

/-- While a worker sleeps in a yield, another thread owns the lock, and the yield is counted. -/
theorem other_owns_lock_during_yield :
    ∃ (start : World Unit) (turns : List (Turn Unit)) (world : World Unit), start.IsNew ∧
      Run .checked start turns world ∧
      (world.thread "worker").session = some { phase := .running, holds := true } ∧
      world.lock.mutex.isHeldBy "other" = true ∧ world.lock.worker = some "worker" ∧
      YieldCounted turns world "worker" 1 := by
  let start : World Unit := { lock := .standard .checked () }
  let moves : List (Move Unit) :=
    [.call "worker" .adopt, .step "worker", .call "other" .acquire, .step "other",
      .call "worker" .yieldNow, .step "worker", .step "other"]
  have hnew : start.IsNew := ⟨.standard .checked (), rfl⟩
  have hplay : ∃ ready ∈ start.play? .checked moves,
      (∀ turn ∈ ready.1, turn.raises Panic.isNesting = false) ∧
      (ready.2.thread "worker").session = some { phase := .running, holds := true } ∧
      ready.2.lock.mutex.isHeldBy "other" = true := by
    decide +kernel
  obtain ⟨⟨turns, world⟩, hturns, hclean, hsession, hheld⟩ := hplay
  have run : Run .checked start turns world := run_of_play? hturns
  obtain ⟨_, hworker, _, hother, _⟩ := running_session_owns_lock hnew run hclean hsession
  have hyield := hother rfl "other" (by decide) hheld
  exact ⟨start, turns, world, hnew, run, hsession, hheld, hworker, hyield.2⟩

end

end YieldLock
