import YieldLock.Proofs.Run

/-!
# Sound threads

A thread is sound if at each point of a call it has the session and the guards
that the point stands for, and if its session holds a level in the running phase
only. Soundness says nothing of the mutex. Main statement: `Rule.isSound`, a step
of a sound thread leaves it sound.
-/

namespace YieldLock

variable {σ : Type}

namespace Call

/-- Calls that can end a session. -/
def endsSession : Call σ → Bool
  | yieldNow | closeWindow | endSession | dropSession | unwindSession _ | finish _ => true
  | _ => false

/-- The first and the last call of a thread that was started as a worker. -/
def boundsLife : Call σ → Bool
  | start | finish _ => true
  | _ => false

theorem IsDrop.endsSession {call : Call σ} (h : call.IsDrop) : call.endsSession = true := by
  obtain rfl | ⟨panic, rfl⟩ := h <;> rfl

theorem IsDrop.boundsLife {call : Call σ} (h : call.IsDrop) : call.boundsLife = false := by
  obtain rfl | ⟨panic, rfl⟩ := h <;> rfl

end Call

namespace ThreadState

/-- The session holds a level only while it is running. -/
def HoldsWhenRunning (self : ThreadState σ) : Prop :=
  ∀ session, self.session = some session → session.phase ≠ .running → session.holds = false

/-- What a thread has at a point of a call. -/
def StandsAt (self : ThreadState σ) (call : Call σ) : Point → Prop
  | .waiting _ | .reentering => call = .acquire
  | .starting => call = .start ∧ self.session = none
  | .adopting => (call = .adopt ∨ call = .start) ∧ self.session = none
  | .polling | .rechecking =>
    call = .yieldNow ∧ ∃ session, self.session = some session ∧ session.phase = .running
  | .sleeping | .retaking =>
    call = .yieldNow ∧ self.session = some { phase := .running, holds := true }
  | .closing => call = .closeWindow ∧ self.session = some { phase := .yielding, holds := false }
  | .lowering =>
    call.endsSession = true ∧
      ∃ session, self.session = some session ∧ session.phase ≠ .terminated
  | .disposing | .tearingDown _ | .marking =>
    call.endsSession = true ∧ self.session = some { phase := .terminated, holds := false }
  | .joining child => call = .join child

structure IsSound (state : ThreadState σ) : Prop where
  holds : state.HoldsWhenRunning
  finished : ∀ outcome, state.activity = .finished outcome → state.session = none
  place : ∀ call point, state.activity = .busy call point → state.StandsAt call point
  bounds : ∀ call point, state.activity = .busy call point → call.boundsLife = true →
    state.guards = 0

/-- A session that has ended holds no level. -/
theorem IsSound.holdsNoLevel_of_ended {self : ThreadState σ} (h : self.IsSound)
    (hended : ∀ session, self.session = some session → session.phase = .terminated) :
    self.HoldsNoLevel := by
  intro session hsession
  apply h.holds session hsession
  rw [hended session hsession]
  decide

theorem ne_default_of_session {self : ThreadState σ} {session : Session}
    (hsession : self.session = some session) : self ≠ {} := by
  rintro rfl
  cases hsession

theorem standsAt_congr {self other : ThreadState σ} {call : Call σ} {point : Point}
    (hsession : other.session = self.session) (h : self.StandsAt call point) :
    other.StandsAt call point := by
  cases point <;> simpa only [StandsAt, hsession] using h

section

variable {lock : Lock σ} {self : ThreadState σ} {call : Call σ}

theorem isSound_of_idle (hidle : self.activity = .idle) (hholds : self.HoldsWhenRunning) :
    self.IsSound where
  holds := hholds
  finished _ h := by
    rw [hidle] at h
    cases h
  place _ _ h := by
    rw [hidle] at h
    cases h
  bounds _ _ h := by
    rw [hidle] at h
    cases h

theorem isSound_answer (lock : Lock σ) (call : Call σ) (reply : Answer σ) (entries : List Entry)
    (hholds : self.HoldsWhenRunning) : (answer lock self call reply entries).self.IsSound :=
  isSound_of_idle rfl hholds

theorem isSound_goOn (lock : Lock σ) {point : Point} (entries : List Entry)
    (hholds : self.HoldsWhenRunning) (hplace : self.StandsAt call point)
    (hbounds : call.boundsLife = true → self.guards = 0) :
    (goOn lock self call point entries).self.IsSound where
  holds := hholds
  finished _ h := nomatch h
  place _ _ h := by
    cases h
    exact standsAt_congr rfl hplace
  bounds _ _ h := by
    cases h
    exact hbounds

theorem isSound_finish (lock : Lock σ) (self : ThreadState σ) (call : Call σ)
    (outcome : Option Panic) (entries : List Entry) :
    (finish lock self call outcome entries).self.IsSound where
  holds _ h := nomatch h
  finished _ _ := rfl
  place _ _ h := nomatch h
  bounds _ _ h := nomatch h

theorem isSound_check (me : Thread) (lock : Lock σ) (entries : List Entry) {session : Session}
    (hholds : self.HoldsWhenRunning) (hsession : self.session = some session)
    (hphase : session.phase ≠ .terminated) (hcall : call.endsSession = true)
    (hbounds : call.boundsLife = true → self.guards = 0) :
    (check me lock self call entries).self.IsSound := by
  unfold check
  split
  · exact isSound_goOn lock entries hholds ⟨hcall, session, hsession, hphase⟩ hbounds
  · exact isSound_answer lock call _ entries hholds

theorem isSound_conclude (lock : Lock σ) (call : Call σ) (hholds : self.HoldsWhenRunning) :
    (conclude lock self call).self.IsSound := by
  unfold conclude
  split
  · exact isSound_answer _ _ _ _ fun _ h ↦ nomatch h
  · exact isSound_answer _ _ _ _ fun _ h ↦ nomatch h
  · exact isSound_finish _ _ _ _ _
  · exact isSound_answer _ _ _ _ hholds

theorem isSound_fail (lock : Lock σ) (call : Call σ) (panic : Panic) (entries : List Entry)
    (hholds : self.HoldsWhenRunning) : (fail lock self call panic entries).self.IsSound := by
  unfold fail
  split
  · exact isSound_answer _ _ _ _ fun _ h ↦ nomatch h
  · exact isSound_finish _ _ _ _ _
  · exact isSound_finish _ _ _ _ _
  · exact isSound_answer _ _ _ _ hholds

end

section

variable {build : Build} {now : Nat} {me : Thread} {lock : Lock σ} {self : ThreadState σ}
  {call? : Option (Call σ)} {effect : Effect σ}

theorem holdsWhenRunning_of_released {session : Session} {self : ThreadState σ}
    (hsession : self.session = some session) (hholds : session.holds = false) :
    self.HoldsWhenRunning := by
  intro other hother _
  rw [hsession, Option.some_inj] at hother
  rw [← hother, hholds]

theorem holdsWhenRunning_of_running {session : Session} {self : ThreadState σ}
    (hsession : self.session = some session) (hphase : session.phase = .running) :
    self.HoldsWhenRunning := by
  intro other hother hother'
  rw [hsession, Option.some_inj] at hother
  exact absurd (hother ▸ hphase) hother'

theorem Rule.isSound (rule : Rule build now me lock self call? effect) (h : self.IsSound)
    (hworker : lock.worker = none → self.session = none) : effect.self.IsSound := by
  have hholds := h.holds
  cases rule with
  | reenter | enter => exact isSound_goOn _ _ hholds rfl nofun
  | tryTake | tryRefused | release | read | write | outOfReach | request | adoptLate
  | yieldAfterExit | yieldInWindow | openAfterExit | openTwice | closeAfterExit | closeUnopened
  | endAfterExit | obtain | reentered | pollNone | pollNested | joined =>
    exact isSound_answer _ _ _ _ hholds
  | adopt _ hnone => exact isSound_goOn _ _ hholds ⟨.inl rfl, hworker hnone⟩ nofun
  | yieldToExit _ hsession hphase =>
    exact isSound_goOn _ _ hholds ⟨rfl, _, hsession, by simp [hphase]⟩ nofun
  | yieldToPoll _ hsession hphase =>
    exact isSound_goOn _ _ hholds ⟨rfl, _, hsession, hphase⟩ nofun
  | openNested | openWindow =>
    exact isSound_answer _ _ _ _ (holdsWhenRunning_of_released rfl rfl)
  | @closeBegin _ session hsession hphase =>
    obtain ⟨phase, holds⟩ := session
    obtain rfl : phase = .yielding := hphase
    have hreleased : holds = false := hholds _ hsession nofun
    exact isSound_goOn _ _ hholds ⟨rfl, hreleased ▸ hsession⟩ nofun
  | closeRunning _ hsession hphase =>
    exact isSound_check _ _ _ hholds hsession (by simp [hphase]) rfl nofun
  | endBegin _ hsession hphase =>
    exact isSound_goOn _ _ hholds ⟨rfl, _, hsession, hphase⟩ nofun
  | dropBegin _ hcall _ hsession hphase =>
    refine isSound_goOn _ _ hholds ⟨hcall.endsSession, _, hsession, hphase⟩ fun hbounds ↦ ?_
    rw [hcall.boundsLife] at hbounds
    cases hbounds
  | dropEnded | mark => exact isSound_conclude _ _ hholds
  | finishBegin _ _ hsession hphase =>
    exact isSound_goOn _ _ hholds ⟨rfl, _, hsession, hphase⟩ fun _ ↦ rfl
  | finishEnded => exact isSound_conclude _ _ hholds
  | joinBegin => exact isSound_goOn _ _ hholds rfl nofun
  | park => exact h
  | obtainUnmatched | startLate | adoptLost => exact isSound_fail _ _ _ _ hholds
  | start hbusy =>
    obtain ⟨hcall, hsession⟩ := h.place _ _ hbusy
    exact isSound_goOn _ _ hholds ⟨.inr hcall, hsession⟩ (h.bounds _ _ hbusy)
  | adoptWon => exact isSound_answer _ _ _ _ (holdsWhenRunning_of_running rfl rfl)
  | @pollSleep _ session hbusy _ hsession hsome =>
    obtain ⟨hcall, other, hother, hphase⟩ := h.place _ _ hbusy
    obtain rfl : session = other := Option.some_inj.mp (hsession.symm.trans hother)
    obtain ⟨phase, holds⟩ := session
    obtain rfl : phase = .running := hphase
    obtain rfl : holds = true := hsome
    exact isSound_goOn _ _ hholds ⟨hcall, hsession⟩ (h.bounds _ _ hbusy)
  | pollFree hbusy | wake hbusy =>
    have hplace := h.place _ _ hbusy
    exact isSound_goOn _ _ hholds hplace (h.bounds _ _ hbusy)
  | retake hbusy =>
    obtain ⟨rfl, hsession⟩ := h.place _ _ hbusy
    exact isSound_check _ _ _ hholds hsession nofun rfl nofun
  | recheck hbusy =>
    obtain ⟨rfl, session, hsession, hphase⟩ := h.place _ _ hbusy
    exact isSound_check _ _ _ hholds hsession (by simp [hphase]) rfl nofun
  | close hbusy =>
    obtain ⟨rfl, _⟩ := h.place _ _ hbusy
    exact isSound_check _ _ _ (holdsWhenRunning_of_running rfl rfl) rfl nofun rfl nofun
  | giveUpNested => exact isSound_fail _ _ _ _ (holdsWhenRunning_of_released rfl rfl)
  | giveUp hbusy =>
    obtain ⟨hcall, _⟩ := h.place _ _ hbusy
    exact isSound_goOn _ _ (holdsWhenRunning_of_released rfl rfl) ⟨hcall, rfl⟩
      (h.bounds _ _ hbusy)
  | dispose hbusy | disposeNone hbusy | tearDown hbusy =>
    have hplace := h.place _ _ hbusy
    exact isSound_goOn lock [] hholds hplace (h.bounds _ _ hbusy)
  | tearDownFailed => exact isSound_fail _ _ _ _ hholds

/-- A thread that was just started as a worker is sound. -/
theorem isSound_newborn (title : String) :
    (World.newborn title : ThreadState σ).IsSound where
  holds _ h := nomatch h
  finished _ h := nomatch h
  place _ _ h := by
    cases h
    exact ⟨rfl, rfl⟩
  bounds _ _ h _ := by
    cases h
    rfl

end

end ThreadState

end YieldLock
