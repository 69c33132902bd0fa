import YieldLock.Proofs.Waiting

/-!
# A yield passes over nobody

The lock is handed over in order and at once if the oldest thread of the queue
moves whenever the lock is free. Then a worker that gives up its level for a yield
stands behind every thread that was in the queue, and its call is not answered
before all of them have had the lock. Main statement: `queued_threads_get_lock`.
-/

namespace YieldLock

variable {σ : Type}

namespace Turn

/-- If the lock is free, the oldest thread of the queue makes this move. -/
def IsPrompt (turn : Turn σ) : Prop :=
  ∀ head, turn.before.lock.mutex.next? = some head → turn.move = .step head

instance [DecidableEq σ] (turn : Turn σ) : Decidable turn.IsPrompt :=
  inferInstanceAs (Decidable (∀ head ∈ turn.before.lock.mutex.next?, turn.move = .step head))

/-- A thread that needs the lock takes it and goes on. -/
def Gives (turn : Turn σ) (name : Thread) : Prop :=
  turn.move = .step name ∧ turn.before.lock.mutex.canTake name = true ∧
    (turn.before.thread name).activity.wantsLock = true ∧
    (turn.after.thread name).activity.wantsLock = false

end Turn

/-- The points of a yield from which its thread has to take the lock again. -/
def Point.comesToLock : Point → Bool
  | sleeping | retaking | closing => true
  | _ => false

def Activity.comesToLock : Activity σ → Bool
  | .busy _ point => point.comesToLock
  | _ => false

namespace ThreadState

variable {build : Build} {now : Nat} {me : Thread} {lock : Lock σ} {self : ThreadState σ}
  {call? : Option (Call σ)} {effect : Effect σ}

theorem ne_default_of_comesToLock (h : self.activity.comesToLock = true) : self ≠ {} := by
  rintro rfl
  cases h

/-- A thread that cannot take the lock does not get past it. -/
theorem Rule.comesToLock_kept (rule : Rule build now me lock self call? effect)
    (hcomes : self.activity.comesToLock = true) (hheld : lock.mutex.canTake me = false) :
    effect.self.activity.comesToLock = true ∧ effect.answers = [] := by
  cases rule with
  | park => exact ⟨hcomes, rfl⟩
  | wake => exact ⟨rfl, answers_goOn ..⟩
  | retake _ hfree | close _ hfree =>
    rw [hfree] at hheld
    cases hheld
  | _ hstands =>
    rw [hstands] at hcomes
    cases hcomes

/-- A thread that needs the lock and cannot take it stays as it is. -/
theorem Rule.self_of_held (rule : Rule build now me lock self call? effect)
    (hwants : self.activity.wantsLock = true) (hheld : lock.mutex.canTake me = false) :
    effect.self = self := by
  obtain ⟨_, haway⟩ | ⟨_, hself, _⟩ | ⟨_, hfree, _⟩ := rule.queueStep
  · rw [hwants] at haway
    cases haway
  · exact hself
  · rw [hheld] at hfree
    cases hfree

end ThreadState

namespace World

/-- Some threads are at the head of the queue, and a thread that is not among them does not hold
the lock. -/
structure Behind (world : World σ) (me : Thread) (ahead : List Thread) : Prop where
  inFront : ahead <+: world.lock.mutex.queue
  absent : me ∉ ahead
  depth : world.lock.mutex.depth me = 0

section

variable {build : Build} {me : Thread} {world next : World σ} {move : Move σ}
  {events : List (Event σ)} {ahead : List Thread}

/-- While the lock is held, the queue only grows at its end. -/
theorem Change.prefix_of_locked (change : Change build world move next events)
    (hline : world.InLine) (hlocked : world.lock.mutex.isLocked = true)
    (hahead : ahead <+: world.lock.mutex.queue) : ahead <+: next.lock.mutex.queue := by
  cases change with
  | enter | pass | spawn | spawnRefused => exact hahead
  | own name call? effect _ rule =>
    rw [lock_after]
    obtain ⟨hlowers, _⟩ | ⟨hlock, _⟩ | ⟨hqueue, hfree, _⟩ := rule.queueStep
    · rw [hlowers.queue]
      exact hahead
    · rw [hlock]
      exact List.prefix_append_of_prefix hahead
    · have hheld : world.lock.mutex.isHeldBy name = true := by
        rw [Mutex.canTake, hlocked] at hfree
        exact hfree
      rw [hqueue, List.erase_of_not_mem (hline.not_mem_of_owner hheld)]
      exact hahead

/-- While another thread holds the lock, a thread without a level of it gets none. -/
theorem Change.depth_of_locked (change : Change build world move next events)
    (hlocked : world.lock.mutex.isLocked = true) (hzero : world.lock.mutex.depth me = 0) :
    next.lock.mutex.depth me = 0 := by
  cases change with
  | enter | pass | spawn | spawnRefused => exact hzero
  | own name call? effect _ rule =>
    rw [lock_after]
    by_cases hname : me = name
    · subst name
      obtain ⟨hlowers, _⟩ | ⟨hlock, _⟩ | ⟨_, hfree, _⟩ := rule.queueStep
      · exact Nat.le_zero.mp (hzero ▸ hlowers.depth)
      · rw [hlock, Mutex.depth_wait]
        exact hzero
      · rw [Mutex.canTake, hlocked, Mutex.isHeldBy_eq_false_iff.mpr hzero] at hfree
        cases hfree
    · rw [rule.mutex_depth_other hname]
      exact hzero

/-- A prompt move leaves those ahead in the queue, or gives the lock to the first of them. -/
theorem Behind.step {turn : Turn σ} {head : Thread} (h : Reachable build turn.before)
    (hmove : turn.IsMove build) (hprompt : turn.IsPrompt)
    (hbehind : turn.before.Behind me (head :: ahead)) :
    turn.after.Behind me (head :: ahead) ∨ turn.Gives head ∧ turn.after.Behind me ahead := by
  -- While the lock is held the queue only grows; once it is free the move must be the head's.
  cases hlocked : turn.before.lock.mutex.isLocked with
  | true =>
    have change := change_of_move? hmove
    exact .inl ⟨change.prefix_of_locked h.inLine hlocked hbehind.inFront, hbehind.absent,
      change.depth_of_locked hlocked hbehind.depth⟩
  | false =>
    obtain ⟨others, hqueue⟩ := hbehind.inFront
    have hnext : turn.before.lock.mutex.next? = some head := by
      rw [Mutex.next?, hlocked, ← hqueue]
      rfl
    have hstep := hprompt head hnext
    have hmem : head ∈ turn.before.lock.mutex.queue := by
      rw [← hqueue]
      exact List.mem_cons_self
    have hwants := (h.inLine.waits head hmem).1
    have hne : me ≠ head := by
      rintro rfl
      exact hbehind.absent List.mem_cons_self
    have hfree : turn.before.lock.mutex.canTake head = true := by
      rw [Mutex.canTake, hlocked]
      rfl
    rw [Turn.IsMove, hstep] at hmove
    obtain ⟨effect, rule, hafter, _⟩ := exists_rule_of_step? hmove
    obtain ⟨_, haway⟩ | ⟨_, _, _, hheld, _⟩ | ⟨hrest, _, hgone⟩ := rule.queueStep
    · rw [hwants] at haway
      cases haway
    · rw [hfree] at hheld
      cases hheld
    · rw [Turn.Gives, hafter, thread_after_self]
      refine .inr ⟨⟨hstep, hfree, hwants, hgone⟩, ?_, ?_, ?_⟩
      · rw [lock_after, hrest, ← hqueue, List.cons_append, List.erase_cons_head]
        exact List.prefix_append ahead others
      · exact fun hlater ↦ hbehind.absent (List.mem_cons_of_mem head hlater)
      · rw [lock_after, rule.mutex_depth_other hne]
        exact hbehind.depth

end

end World

section

variable {build : Build} {me : Thread} {start world : World σ} {turns : List (Turn σ)}
  {call : Call σ} {ahead : List Thread}

/-- If along prompt turns a list of threads with some property of the world only loses threads that
get the lock, then in the end the threads that are not left over have had it. -/
theorem Run.exists_left {P : List Thread → World σ → Prop}
    (step : ∀ (turn : Turn σ) (left : List Thread), Reachable build turn.before →
      turn.IsMove build → turn.IsPrompt → P left turn.before →
      ∃ rest, (∀ name ∈ left, name ∈ rest ∨ turn.Gives name) ∧ P rest turn.after)
    (run : Run build start turns world) (h : Reachable build start)
    (hprompt : ∀ turn ∈ turns, turn.IsPrompt) (hstart : P ahead start) :
    ∃ left, (∀ name ∈ ahead, name ∈ left ∨ ∃ turn ∈ turns, turn.Gives name) ∧ P left world := by
  induction run with
  | nil => exact ⟨ahead, fun name hmem ↦ .inl hmem, hstart⟩
  | @snoc turns turn run hmove ih =>
    obtain ⟨left, hgiven, hleft⟩ :=
      ih fun earlier hmem ↦ hprompt earlier (List.mem_append_left _ hmem)
    have hlast : turn ∈ turns ++ [turn] :=
      List.mem_append_right _ (List.mem_singleton_self turn)
    obtain ⟨rest, hlater, hrest⟩ := step turn left (h.run run) hmove (hprompt turn hlast) hleft
    refine ⟨rest, fun name hmem ↦ ?_, hrest⟩
    obtain hname | ⟨earlier, hearlier, hgives⟩ := hgiven name hmem
    · exact (hlater name hname).imp_right fun hgives ↦ ⟨turn, hlast, hgives⟩
    · exact .inr ⟨earlier, List.mem_append_left _ hearlier, hgives⟩

/-- Along a prompt run, those ahead in the queue get the lock one after the other. -/
theorem World.Behind.exists_left (h : start.Behind me ahead) (hreach : Reachable build start)
    (run : Run build start turns world) (hprompt : ∀ turn ∈ turns, turn.IsPrompt) :
    ∃ left, (∀ name ∈ ahead, name ∈ left ∨ ∃ turn ∈ turns, turn.Gives name) ∧
      (left = [] ∨ world.Behind me left) := by
  refine run.exists_left (P := fun left world ↦ left = [] ∨ world.Behind me left) ?_ hreach hprompt
    (.inr h)
  rintro turn (_ | ⟨head, left⟩) hbefore hmove hturn hleft
  · exact ⟨[], fun name hmem ↦ .inl hmem, .inl rfl⟩
  · obtain hkept | ⟨hgives, hrest⟩ :=
      (hleft.resolve_left (List.cons_ne_nil head left)).step hbefore hmove hturn
    · exact ⟨head :: left, fun name hmem ↦ .inl hmem, .inr hkept⟩
    · refine ⟨left, fun name hmem ↦ ?_, .inr hrest⟩
      obtain rfl | hmem := List.mem_cons.mp hmem
      · exact .inr hgives
      · exact .inl hmem

namespace World

variable {next : World σ} {move : Move σ} {events : List (Event σ)}

theorem Change.comesToLock_kept (change : Change build world move next events)
    (hcomes : (world.thread me).activity.comesToLock = true)
    (hheld : move.thread? = some me → world.lock.mutex.canTake me = false) :
    (next.thread me).activity.comesToLock = true ∧
      (move.thread? = some me → events.filterMap Event.answer? = []) := by
  cases change.changeOf (ThreadState.ne_default_of_comesToLock hcomes) with
  | others hother hself =>
    rw [hself]
    exact ⟨hcomes, fun hmine ↦ absurd hmine hother⟩
  | own call? effect rule =>
    obtain ⟨hkept, hanswers⟩ := rule.comesToLock_kept hcomes (hheld (Move.thread?_ofThread ..))
    rw [thread_after_self]
    exact ⟨hkept, fun _ ↦ hanswers⟩
  | spawns hidle =>
    rw [hidle] at hcomes
    cases hcomes

/-- A thread stands behind others at the lock and has to take it before its call is answered. -/
structure StandsBehind (world : World σ) (me : Thread) (ahead : List Thread) : Prop where
  behind : world.Behind me ahead
  comes : (world.thread me).activity.comesToLock = true

theorem Behind.canTake_of_prompt {turn : Turn σ} {head : Thread} (hprompt : turn.IsPrompt)
    (hbehind : turn.before.Behind me (head :: ahead)) (hmine : turn.move.thread? = some me) :
    turn.before.lock.mutex.canTake me = false := by
  cases hlocked : turn.before.lock.mutex.isLocked with
  | true =>
    rw [Mutex.canTake, hlocked, Mutex.isHeldBy_eq_false_iff.mpr hbehind.depth]
    rfl
  | false =>
    obtain ⟨others, hqueue⟩ := hbehind.inFront
    have hnext : turn.before.lock.mutex.next? = some head := by
      rw [Mutex.next?, hlocked, ← hqueue]
      rfl
    rw [hprompt head hnext] at hmine
    cases hmine
    exact absurd List.mem_cons_self hbehind.absent

theorem StandsBehind.step {turn : Turn σ} {head : Thread} (h : Reachable build turn.before)
    (hmove : turn.IsMove build) (hprompt : turn.IsPrompt)
    (hstands : turn.before.StandsBehind me (head :: ahead)) :
    (turn.after.StandsBehind me (head :: ahead) ∨
        turn.Gives head ∧ turn.after.StandsBehind me ahead) ∧
      (turn.move.thread? = some me → turn.events.filterMap Event.answer? = []) := by
  obtain ⟨hcomes, hanswers⟩ := (change_of_move? hmove).comesToLock_kept hstands.comes
    (hstands.behind.canTake_of_prompt hprompt)
  refine ⟨?_, hanswers⟩
  obtain hkept | ⟨hgives, hrest⟩ := hstands.behind.step h hmove hprompt
  · exact .inl ⟨hkept, hcomes⟩
  · exact .inr ⟨hgives, hrest, hcomes⟩

theorem Change.counted_kept {name : Thread} (change : Change build world move next events)
    (hcounted : (world.thread name).activity.isCounted = true)
    (hheld : world.lock.mutex.canTake name = false) :
    (next.thread name).activity.isCounted = true := by
  have hwants : (world.thread name).activity.wantsLock = true := by
    apply (Bool.not_eq_false _).mp
    intro haway
    rw [Activity.isCounted_of_away haway] at hcounted
    cases hcounted
  have hknown : world.thread name ≠ {} := by
    intro hdefault
    rw [hdefault] at hcounted
    cases hcounted
  cases change.changeOf hknown with
  | others _ hself =>
    rw [hself]
    exact hcounted
  | own call? effect rule =>
    rw [thread_after_self, rule.self_of_held hwants hheld]
    exact hcounted
  | spawns hidle =>
    rw [hidle] at hcounted
    cases hcounted

/-- A worker that holds one level is about to look whether anyone waits, and someone does. -/
structure Polls (world : World σ) (me : Thread) (ahead : List Thread) : Prop where
  inFront : ahead <+: world.lock.mutex.queue
  absent : me ∉ ahead
  activity : (world.thread me).activity = .busy .yieldNow .polling
  session : (world.thread me).session = some { phase := .running, holds := true }
  guards : (world.thread me).guards = 0
  counted : ∃ name, (world.thread name).activity.isCounted = true

theorem Polls.depth (h : Reachable build world) (hpolls : world.Polls me ahead) :
    world.lock.mutex.depth me = 1 := by
  have hreleased : (world.thread me).activity.isReleased = false := by
    rw [hpolls.activity]
    rfl
  calc
    _ = (world.thread me).levels := (h.fits me).depth
    _ = (world.thread me).guards + 1 :=
      ThreadState.levels_of_holds hpolls.session rfl hreleased
    _ = 1 := by rw [hpolls.guards]

/-- Such a worker gives up its level and stands behind those in the queue. -/
theorem Polls.own_step {call? : Option (Call σ)} {effect : Effect σ} (h : Reachable build world)
    (hpolls : world.Polls me ahead)
    (rule : ThreadState.Rule build world.clock me world.lock (world.thread me) call? effect) :
    (world.after me effect).StandsBehind me ahead ∧ effect.answers = [] := by
  have hbusy := hpolls.activity
  have hdepth := hpolls.depth h
  cases rule with
  | pollNone _ hunset =>
    obtain ⟨name, hcounted⟩ := hpolls.counted
    rw [h.waiters_isSet hcounted] at hunset
    cases hunset
  | pollNested _ _ _ _ _ hheld =>
    -- The session's level is the only one, so nothing is left of it.
    rw [Mutex.isHeldBy, Mutex.depth_giveBack_self, hdepth] at hheld
    cases hheld
  | pollSleep =>
    refine ⟨⟨⟨?_, hpolls.absent, ?_⟩, ?_⟩, ThreadState.answers_goOn ..⟩
    · rw [lock_after, ThreadState.lock_goOn, Mutex.queue_giveBack]
      exact hpolls.inFront
    · rw [lock_after, ThreadState.lock_goOn, Mutex.depth_giveBack_self, hdepth]
    · rw [thread_after_self]
      rfl
  | pollFree _ _ hnone =>
    have hholds := hnone _ hpolls.session
    cases hholds
  | park hstands hwants =>
    cases hstands.symm.trans hbusy
    cases hwants
  | _ hstands => cases hstands.symm.trans hbusy

theorem Polls.step (h : Reachable build world) (hpolls : world.Polls me ahead)
    (change : Change build world move next events) :
    (next.Polls me ahead ∨ next.StandsBehind me ahead) ∧
      (move.thread? = some me → events.filterMap Event.answer? = []) := by
  have hknown : world.thread me ≠ {} := ThreadState.ne_default_of_session hpolls.session
  have howner : world.lock.mutex.isHeldBy me = true := by
    rw [Mutex.isHeldBy, hpolls.depth h]
    rfl
  cases change.changeOf hknown with
  | own call? effect rule =>
    obtain ⟨hstands, hanswers⟩ := hpolls.own_step h rule
    exact ⟨.inr hstands, fun _ ↦ hanswers⟩
  | spawns hidle => cases hidle.symm.trans hpolls.activity
  | others hother hself =>
    obtain ⟨name, hcounted⟩ := hpolls.counted
    have hne : name ≠ me := by
      rintro rfl
      rw [hpolls.activity] at hcounted
      cases hcounted
    refine ⟨.inl ⟨?_, hpolls.absent, ?_, ?_, ?_, name, ?_⟩, fun hmine ↦ absurd hmine hother⟩
    · exact change.prefix_of_locked h.inLine (Mutex.isLocked_of_isHeldBy howner) hpolls.inFront
    · rw [hself, hpolls.activity]
    · rw [hself, hpolls.session]
    · rw [hself, hpolls.guards]
    · exact change.counted_kept hcounted (Mutex.canTake_of_owner howner hne)

/-- There is nobody left whom a yield could pass over, or the yield is still on its way. -/
def Owes (world : World σ) (me : Thread) (left : List Thread) : Prop :=
  left = [] ∨ world.Polls me left ∨ world.StandsBehind me left

theorem Owes.step {turn : Turn σ} {left : List Thread} (h : Reachable build turn.before)
    (hmove : turn.IsMove build) (hprompt : turn.IsPrompt) (howes : turn.before.Owes me left) :
    (∃ rest, (∀ name ∈ left, name ∈ rest ∨ turn.Gives name) ∧ turn.after.Owes me rest) ∧
      (left ≠ [] → turn.move.thread? = some me → turn.events.filterMap Event.answer? = []) := by
  obtain rfl | hpolls | hstands := howes
  · exact ⟨⟨[], fun name hmem ↦ .inl hmem, .inl rfl⟩, fun hne ↦ absurd rfl hne⟩
  · obtain ⟨hafter, hanswers⟩ := hpolls.step h (change_of_move? hmove)
    exact ⟨⟨left, fun name hmem ↦ .inl hmem, .inr hafter⟩, fun _ ↦ hanswers⟩
  · cases left with
    | nil => exact ⟨⟨[], fun name hmem ↦ .inl hmem, .inl rfl⟩, fun hne ↦ absurd rfl hne⟩
    | cons head left =>
      obtain ⟨hafter, hanswers⟩ := hstands.step h hmove hprompt
      refine ⟨?_, fun _ ↦ hanswers⟩
      obtain hkept | ⟨hgives, hrest⟩ := hafter
      · exact ⟨head :: left, fun name hmem ↦ .inl hmem, .inr (.inr hkept)⟩
      · refine ⟨left, fun name hmem ↦ ?_, .inr (.inr hrest)⟩
        obtain rfl | hmem := List.mem_cons.mp hmem
        · exact .inr hgives
        · exact .inl hmem

/-- A yield that is called while somebody waits sets out behind everyone in the queue. -/
theorem polls_of_yieldNow (h : Reachable build world)
    (hsession : (world.thread me).session = some { phase := .running, holds := true })
    (hguards : (world.thread me).guards = 0) (halive : world.lock.keepAlive.isSet = true)
    (hcounted : ∃ name, (world.thread name).activity.isCounted = true)
    (hcall : world.call? build me .yieldNow = some (next, events)) :
    next.Polls me world.lock.mutex.queue := by
  obtain ⟨effect, rule, _, rfl, _⟩ := exists_rule_of_call? rfl hcall
  cases rule with
  | yieldToPoll hidle =>
    obtain ⟨name, hname⟩ := hcounted
    have hne : name ≠ me := by
      rintro rfl
      rw [hidle] at hname
      cases hname
    refine ⟨List.prefix_refl _, h.inLine.not_mem_of_away (by rw [hidle]; rfl), ?_, ?_, ?_, name, ?_⟩
    · rw [thread_after_self]
      rfl
    · rw [thread_after_self]
      exact hsession
    · rw [thread_after_self]
      exact hguards
    · rw [thread_after_of_ne world _ hne]
      exact hname
  | yieldToExit _ _ _ hexit =>
    rw [Lock.shouldExit, halive] at hexit
    cases hexit
  | yieldAfterExit _ hsome hphase | yieldInWindow _ hsome hphase =>
    rw [hsession, Option.some_inj] at hsome
    rw [← hsome] at hphase
    cases hphase
  | outOfReach _ hother | dropBegin _ hother | dropEnded _ hother =>
    obtain heq | ⟨_, heq⟩ := hother <;> cases heq

/-- A window that is opened with no guard around it leaves the worker behind everyone in the
queue. -/
theorem behind_of_openWindow (h : Reachable build world) {session : Session}
    (hsession : (world.thread me).session = some session) (hphase : session.phase = .running)
    (hguards : (world.thread me).guards = 0)
    (hcall : world.call? build me .openWindow = some (next, events)) :
    next.Behind me world.lock.mutex.queue := by
  obtain ⟨effect, rule, _, rfl, _⟩ := exists_rule_of_call? rfl hcall
  have hlowered (hidle : (world.thread me).activity = .idle) :
      (world.lock.mutex.giveBackIf me session.holds).depth me = 0 := by
    apply ((h.fits me).depth_giveBackIf hsession ?_).trans hguards
    rw [hidle]
    rfl
  cases rule with
  | openWindow hidle hsome =>
    cases hsession.symm.trans hsome
    have hqueue := (world.lock.mutex.lowers_giveBackIf me session.holds).queue
    refine ⟨?_, h.inLine.not_mem_of_away (by rw [hidle]; rfl), hlowered hidle⟩
    exact hqueue.symm ▸ List.prefix_refl world.lock.mutex.queue
  | openNested hidle hsome _ _ hheld =>
    cases hsession.symm.trans hsome
    rw [Mutex.isHeldBy, hlowered hidle] at hheld
    cases hheld
  | openAfterExit _ hsome hended | openTwice _ hsome hended =>
    cases hsession.symm.trans hsome
    cases hphase.symm.trans hended
  | outOfReach _ hother | dropBegin _ hother | dropEnded _ hother =>
    obtain heq | ⟨_, heq⟩ := hother <;> cases heq

/-- A worker that begins to close a window behind others stands behind them. -/
theorem Behind.standsBehind_of_closeWindow {session : Session}
    (hbehind : world.Behind me ahead) (hsession : (world.thread me).session = some session)
    (hphase : session.phase = .yielding)
    (hcall : world.call? build me .closeWindow = some (next, events)) :
    next.StandsBehind me ahead := by
  obtain ⟨effect, rule, _, rfl, _⟩ := exists_rule_of_call? rfl hcall
  cases rule with
  | closeBegin =>
    refine ⟨⟨hbehind.inFront, hbehind.absent, hbehind.depth⟩, ?_⟩
    rw [thread_after_self]
    rfl
  | closeAfterExit _ hsome hother | closeUnopened _ hsome hother | closeRunning _ hsome hother =>
    cases hsession.symm.trans hsome
    cases hphase.symm.trans hother
  | outOfReach _ hother | dropBegin _ hother | dropEnded _ hother =>
    obtain heq | ⟨_, heq⟩ := hother <;> cases heq

end World

/-- A stretch of a run from the turn in which a thread makes a call to one that answers it. -/
structure Span (build : Build) (me : Thread) (call : Call σ) (asked : Turn σ)
    (between : List (Turn σ)) (answered : Turn σ) : Prop where
  isAsked : asked.IsMove build
  asks : asked.move = .call me call
  run : Run build asked.after between answered.before
  isAnswered : answered.IsMove build
  answers : ∃ reply, answered.Answers me call reply

/-- Before a call that owes its thread's place in the queue is answered, those ahead have had the
lock. -/
theorem Span.gives_of_owes {asked answered : Turn σ}
    (span : Span build me call asked turns answered) (h : Reachable build asked.before)
    (hprompt : ∀ turn ∈ turns ++ [answered], turn.IsPrompt)
    (howes : asked.after.Owes me ahead) : ∀ name ∈ ahead, ∃ turn ∈ turns, turn.Gives name := by
  have hasked : Reachable build asked.after := h.move span.isAsked
  obtain ⟨left, hgiven, hleft⟩ := span.run.exists_left (P := fun left world ↦ world.Owes me left)
    (fun turn left hbefore hmove hturn hstands ↦ (hstands.step hbefore hmove hturn).1) hasked
    (fun turn hmem ↦ hprompt turn (List.mem_append_left _ hmem)) howes
  obtain ⟨reply, hmine, hevent⟩ := span.answers
  have hlast : answered.IsPrompt :=
    hprompt answered (List.mem_append_right _ (List.mem_singleton_self answered))
  have hsilent := (hleft.step (hasked.run span.run) span.isAnswered hlast).2
  -- A call that still owes its place to someone is not the one that is answered here.
  have hnone : left = [] := by
    apply Classical.byContradiction
    intro hne
    have hmem := Event.mem_answers hevent
    rw [hsilent hne hmine] at hmem
    cases hmem
  intro name hname
  apply (hgiven name hname).resolve_left
  intro hmem
  rw [hnone] at hmem
  cases hmem

end

section

variable {build : Build} {me : Thread}

/-- If the lock is handed over in order and at once, a yield passes over nobody who waits: neither
a yield of a worker that holds its level while a thread is blocked in an acquisition, nor a window
from its opening until it is closed. -/
theorem queued_threads_get_lock :
    (∀ (asked answered : Turn σ) (between : List (Turn σ)),
      Reachable build asked.before →
      (asked.before.thread me).session = some { phase := .running, holds := true } →
      (asked.before.thread me).guards = 0 →
      asked.before.lock.keepAlive.isSet = true →
      (∃ waiter, (asked.before.thread waiter).activity.isCounted = true) →
      Span build me .yieldNow asked between answered →
      (∀ turn ∈ between ++ [answered], turn.IsPrompt) →
      ∀ name ∈ asked.before.lock.mutex.queue, ∃ turn ∈ between, turn.Gives name) ∧
    (∀ (opened closed answered : Turn σ) (inner between : List (Turn σ)) (session window : Session),
      Reachable build opened.before →
      (opened.before.thread me).session = some session → session.phase = .running →
      (opened.before.thread me).guards = 0 →
      opened.IsMove build → opened.move = .call me .openWindow →
      Run build opened.after inner closed.before → (∀ turn ∈ inner, turn.IsPrompt) →
      (closed.before.thread me).session = some window → window.phase = .yielding →
      Span build me .closeWindow closed between answered →
      (∀ turn ∈ between ++ [answered], turn.IsPrompt) →
      ∀ name ∈ opened.before.lock.mutex.queue, ∃ turn ∈ inner ++ between, turn.Gives name) := by
  constructor
  · intro asked answered between hreach hsession hguards halive hwaiter span hprompt
    have hcall : asked.before.call? build me .yieldNow = some (asked.after, asked.events) := by
      rw [← span.isAsked, span.asks]
      rfl
    have hpolls := World.polls_of_yieldNow hreach hsession hguards halive hwaiter hcall
    exact span.gives_of_owes hreach hprompt (.inr (.inl hpolls))
  · intro opened closed answered inner between session window hreach hsession hphase hguards
      hopened hopens hinner hpromptInner hwindow hyielding span hprompt name hname
    have hopenCall : opened.before.call? build me .openWindow =
        some (opened.after, opened.events) := by
      rw [← hopened, hopens]
      rfl
    have hbehind := World.behind_of_openWindow hreach hsession hphase hguards hopenCall
    have hafter : Reachable build opened.after := hreach.move hopened
    obtain ⟨left, hgiven, hleft⟩ := hbehind.exists_left hafter hinner hpromptInner
    have hcloseCall : closed.before.call? build me .closeWindow =
        some (closed.after, closed.events) := by
      rw [← span.isAsked, span.asks]
      rfl
    have howes : closed.after.Owes me left :=
      hleft.imp_right fun h ↦ .inr (h.standsBehind_of_closeWindow hwindow hyielding hcloseCall)
    have hlater := span.gives_of_owes (hafter.run hinner) hprompt howes
    obtain hmem | ⟨turn, hmem, hgives⟩ := hgiven name hname
    · obtain ⟨turn, hturn, hgives⟩ := hlater name hmem
      exact ⟨turn, List.mem_append_right _ hturn, hgives⟩
    · exact ⟨turn, List.mem_append_left _ hmem, hgives⟩

set_option synthInstance.maxSize 512 in
/-- A worker lets a waiting thread in, be it by a yield or by a window. -/
theorem yield_and_window_let_other_in :
    (∃ (asked answered : Turn Unit) (between : List (Turn Unit)),
      Span .checked "worker" .yieldNow asked between answered ∧
        ∃ turn ∈ between, turn.Gives "other") ∧
    (∃ (opened closed answered : Turn Unit) (inner between : List (Turn Unit)),
      opened.move = .call "worker" .openWindow ∧ Run .checked opened.after inner closed.before ∧
        Span .checked "worker" .closeWindow closed between answered ∧
        ∃ turn ∈ inner ++ between, turn.Gives "other") := by
  let start : World Unit := { lock := .standard .checked () }
  let setup : List (Move Unit) :=
    [.call "worker" .adopt, .step "worker", .call "other" .acquire, .step "other"]
  have hsetup : ∃ ready ∈ start.play? .checked setup,
      (ready.2.thread "worker").session = some {} ∧ (ready.2.thread "worker").guards = 0 ∧
        ready.2.lock.keepAlive.isSet = true ∧
        (ready.2.thread "other").activity.isCounted = true ∧
        "other" ∈ ready.2.lock.mutex.queue := by
    decide +kernel
  have hyield : ∀ ready ∈ start.play? .checked setup,
      ∃ asked ∈ ready.2.turn? .checked (.call "worker" .yieldNow),
      ∃ later ∈ asked.after.play? .checked
        [.step "worker", .step "other", .call "other" .release, .step "worker"],
      ∃ answered ∈ later.2.turn? .checked (.step "worker"),
        .answered .yieldNow (.flow .proceed) ∈ answered.events ∧
          ∀ turn ∈ later.1 ++ [answered], turn.IsPrompt := by
    decide +kernel
  have hwindow : ∀ ready ∈ start.play? .checked setup,
      ∃ opened ∈ ready.2.turn? .checked (.call "worker" .openWindow),
      ∃ later ∈ opened.after.play? .checked [.step "other", .call "other" .release],
      ∃ closed ∈ later.2.turn? .checked (.call "worker" .closeWindow),
      ∃ answered ∈ closed.after.turn? .checked (.step "worker"),
        (closed.before.thread "worker").session = some { phase := .yielding, holds := false } ∧
          .answered .closeWindow (.flow .proceed) ∈ answered.events ∧
          ∀ turn ∈ later.1 ++ [answered], turn.IsPrompt := by
    decide +kernel
  obtain ⟨⟨turns, ready⟩, hready, hsession, hguards, halive, hcounted, hqueue⟩ := hsetup
  have hreach : Reachable .checked ready :=
    (run_of_play? hready).reachable ⟨.standard .checked (), rfl⟩
  constructor
  · obtain ⟨asked, hasked, ⟨between, last⟩, hlater, answered, hanswered, hevent, hprompt⟩ :=
      hyield _ hready
    obtain ⟨rfl, hasks, hmove⟩ := Turn.isMove_of_turn? hasked
    obtain ⟨rfl, hanswers, hlast⟩ := Turn.isMove_of_turn? hanswered
    have span : Span .checked "worker" .yieldNow asked between answered :=
      ⟨hmove, hasks, run_of_play? hlater, hlast, _, by rw [hanswers]; rfl, hevent⟩
    have hgives := queued_threads_get_lock.1 asked answered between hreach hsession hguards halive
      ⟨"other", hcounted⟩ span hprompt "other" hqueue
    exact ⟨asked, answered, between, span, hgives⟩
  · obtain ⟨opened, hopened, ⟨inner, last⟩, hinner, closed, hclosed, answered, hanswered, hopen,
      hevent, hprompt⟩ := hwindow _ hready
    obtain ⟨rfl, hopens, hopenMove⟩ := Turn.isMove_of_turn? hopened
    obtain ⟨rfl, hasks, hmove⟩ := Turn.isMove_of_turn? hclosed
    obtain ⟨hbefore, hanswers, hlast⟩ := Turn.isMove_of_turn? hanswered
    have span : Span .checked "worker" .closeWindow closed [] answered :=
      ⟨hmove, hasks, hbefore ▸ .nil, hlast, _, by rw [hanswers]; rfl, hevent⟩
    have run : Run .checked opened.after inner closed.before := run_of_play? hinner
    have hgives := queued_threads_get_lock.2 opened closed answered inner [] _ _ hreach hsession
      rfl hguards hopenMove hopens run
      (fun turn hmem ↦ hprompt turn (List.mem_append_left _ hmem)) hopen rfl span
      (fun turn hmem ↦ hprompt turn (List.mem_append_right _ hmem)) "other" hqueue
    exact ⟨opened, closed, answered, inner, [], hopens, run, span, hgives⟩

end

end YieldLock
