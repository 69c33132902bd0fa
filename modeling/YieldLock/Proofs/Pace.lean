import YieldLock.Proofs.Frames
import YieldLock.Proofs.Ledger

/-!
# The counters of the lock and the frames of the loop

At each place of the loop the numbers of yields and of windows follow from the
number of frames. Main statements: `Plant.Stride.paced`, a step of the loop keeps
the account, and `Paced.closed`, what the account is when the loop has returned.
-/

namespace YieldLock

/-- Nothing is counted in the first and the last call of a thread that was started as a worker. -/
theorem ThreadState.Rule.stats_eq_of_boundsLife {σ : Type} {build : Build} {now : Nat}
    {me : Thread} {lock : Lock σ} {self : ThreadState σ} {call? : Option (Call σ)}
    {effect : Effect σ} (rule : Rule build now me lock self call? effect) (h : self.Fits lock me)
    {call : Call σ} (hin : self.IsIn call? call) (hlife : call.boundsLife = true) :
    effect.lock.stats = lock.stats := by
  cases rule.booking h with
  | nothing hstats => exact hstats
  | yielding hcall =>
    obtain rfl := hin.unique (.inl hcall)
    cases hlife
  | acquisition _ hnone hbusy =>
    obtain rfl := hin.unique (.inr ⟨hnone, _, hbusy⟩)
    cases h.sound.place _ _ hbusy
    cases hlife
  | handover hnone hbusy | window hnone hbusy =>
    obtain rfl := hin.unique (.inr ⟨hnone, _, hbusy⟩)
    cases (h.sound.place _ _ hbusy).1
    cases hlife

theorem ThreadState.HandsOver.quiet {σ : Type} {state : ThreadState σ} (h : state.HandsOver) :
    state.activity ≠ .busy .yieldNow .polling := by
  obtain ⟨_, point, hpoint, hbusy⟩ := h
  rw [hbusy]
  rintro ⟨⟩
  cases hpoint

theorem ThreadState.Ends.quiet {σ : Type} {state : ThreadState σ} {call : Call σ}
    (h : state.Ends call) : state.activity ≠ .busy .yieldNow .polling := by
  obtain ⟨point, hpoint, hbusy⟩ := h
  rw [hbusy]
  rintro ⟨⟩
  cases hpoint

namespace Demo

/-- The places of the loop that the account of its yields and windows tells apart. -/
inductive Place where
  /-- Before the frame is counted. -/
  | ready
  /-- After the frame, before the loop looks at its number. -/
  | ran
  /-- Before a window is counted. -/
  | before (window : Window)
  | after (window : Window)
  /-- In a yield. -/
  | yielded
  deriving DecidableEq, Repr

namespace Pacing

/-- The number of host calls in a number of frames. -/
def hostCalls (pacing : Pacing) (frames : Nat) : Nat := frames / pacing.hostCallEvery.toNat

/-- A host call follows the frame of a number. -/
def Hosts (pacing : Pacing) (frames : Nat) : Prop :=
  0 < pacing.hostCallEvery.toNat ∧ pacing.hostCallEvery.toNat ∣ frames

theorem isHostFrame_iff (pacing : Pacing) (frame : UInt64) :
    pacing.isHostFrame frame = true ↔ pacing.Hosts frame.toNat := by
  rw [isHostFrame, Hosts, Bool.and_eq_true, decide_eq_true_eq, beq_iff_eq, ← UInt64.toNat_inj,
    UInt64.toNat_mod, Nat.dvd_iff_mod_eq_zero, UInt64.lt_iff_toNat_lt]
  rfl

theorem hostCalls_of_hosts {pacing : Pacing} {frames : Nat} (hpos : 1 ≤ frames)
    (h : pacing.Hosts frames) : pacing.hostCalls frames = pacing.hostCalls (frames - 1) + 1 := by
  obtain ⟨earlier, rfl⟩ := Nat.exists_eq_add_of_le' hpos
  rw [hostCalls, hostCalls, Nat.succ_div_of_dvd h.2, Nat.add_sub_cancel]

theorem hostCalls_of_not_hosts {pacing : Pacing} {frames : Nat} (hpos : 1 ≤ frames)
    (h : ¬pacing.Hosts frames) : pacing.hostCalls frames = pacing.hostCalls (frames - 1) := by
  obtain ⟨earlier, rfl⟩ := Nat.exists_eq_add_of_le' hpos
  obtain hzero | hevery := Nat.eq_zero_or_pos pacing.hostCallEvery.toNat
  · rw [hostCalls, hostCalls, hzero, Nat.div_zero, Nat.div_zero]
  · rw [hostCalls, hostCalls, Nat.succ_div_of_not_dvd fun hdvd ↦ h ⟨hevery, hdvd⟩,
      Nat.add_sub_cancel]

theorem hostCalls_le (pacing : Pacing) (frames : Nat) : pacing.hostCalls frames ≤ frames :=
  Nat.div_le_self frames _

end Pacing

/-- The account of the yields and windows of a number of frames. -/
def Account (pacing : Pacing) (frames yields windows : Nat) : Place → Prop
  | .ready => yields = frames ∧ windows = frames + pacing.hostCalls frames
  | .ran =>
    1 ≤ frames ∧ yields + 1 = frames ∧ windows + 1 = frames + pacing.hostCalls (frames - 1)
  | .before .host =>
    1 ≤ frames ∧ yields + 1 = frames ∧ windows + 2 = frames + pacing.hostCalls frames ∧
      pacing.Hosts frames
  | .after .host =>
    1 ≤ frames ∧ yields + 1 = frames ∧ windows + 1 = frames + pacing.hostCalls frames ∧
      pacing.Hosts frames
  | .before .frame =>
    1 ≤ frames ∧ yields + 1 = frames ∧ windows + 1 = frames + pacing.hostCalls frames
  | .after .frame =>
    1 ≤ frames ∧ yields + 1 = frames ∧ windows = frames + pacing.hostCalls frames
  | .yielded =>
    1 ≤ frames ∧ yields = frames ∧ windows = frames + pacing.hostCalls frames

section

variable {pacing : Pacing} {frames yields windows : Nat}

theorem Account.look (h : Account pacing frames yields windows .ran) :
    pacing.Hosts frames ∧ Account pacing frames yields windows (.before .host) ∨
      ¬pacing.Hosts frames ∧ Account pacing frames yields windows (.before .frame) := by
  obtain ⟨hpos, hyields, hwindows⟩ := h
  by_cases hhosts : pacing.Hosts frames
  · have hcalls := pacing.hostCalls_of_hosts hpos hhosts
    exact .inl ⟨hhosts, hpos, hyields, by omega, hhosts⟩
  · have hcalls := pacing.hostCalls_of_not_hosts hpos hhosts
    exact .inr ⟨hhosts, hpos, hyields, by omega⟩

theorem Account.count (h : Account pacing frames yields windows .ready) :
    Account pacing (frames + 1) yields windows .ran := by
  obtain ⟨rfl, rfl⟩ := h
  refine ⟨Nat.le_add_left 1 yields, rfl, ?_⟩
  rw [Nat.add_sub_cancel]
  omega

theorem Account.close {window : Window}
    (h : Account pacing frames yields windows (.before window)) :
    Account pacing frames yields (windows + 1) (.after window) := by
  cases window with
  | host => exact ⟨h.1, h.2.1, h.2.2.1, h.2.2.2⟩
  | frame => exact h

theorem Account.rest (h : Account pacing frames yields windows (.after .host)) :
    Account pacing frames yields windows (.before .frame) :=
  ⟨h.1, h.2.1, h.2.2.1⟩

theorem Account.yield (h : Account pacing frames yields windows (.after .frame)) :
    Account pacing frames (yields + 1) windows .yielded := h

theorem Account.proceed (h : Account pacing frames yields windows .yielded) :
    Account pacing frames yields windows .ready := h.2

/-- The account of a loop that has returned: it was told to at the end of a yield or of a window,
and if that was the window of a host call the frame had no rest. -/
structure Closed (pacing : Pacing) (frames yields windows : Nat) : Prop where
  frames_pos : 1 ≤ frames
  yields_eq : yields = frames ∨ yields + 1 = frames
  windows_eq : windows = frames + pacing.hostCalls frames ∨
    pacing.Hosts frames ∧ yields + 1 = frames ∧
      windows + 1 = frames + pacing.hostCalls frames

theorem Account.closed {place : Place} (h : Account pacing frames yields windows place)
    (hplace : (∃ window, place = .after window) ∨ place = .yielded) :
    Closed pacing frames yields windows := by
  obtain ⟨window, rfl⟩ | rfl := hplace
  · cases window with
    | host => exact ⟨h.1, .inr h.2.1, .inr ⟨h.2.2.2, h.2.1, h.2.2.1⟩⟩
    | frame => exact ⟨h.1, .inr h.2.1, .inl h.2.2⟩
  · exact ⟨h.1, .inl h.2.1, .inl h.2.2⟩

theorem Account.yields_le {place : Place} (h : Account pacing frames yields windows place) :
    yields ≤ frames := by
  cases place with
  | ready => exact Nat.le_of_eq h.1
  | ran => exact Nat.le_of_succ_le (Nat.le_of_eq h.2.1)
  | before window | after window =>
    cases window <;> exact Nat.le_of_succ_le (Nat.le_of_eq h.2.1)
  | yielded => exact Nat.le_of_eq h.2.1

theorem Account.windows_le {place : Place} (h : Account pacing frames yields windows place) :
    windows ≤ 2 * frames := by
  have hcalls := pacing.hostCalls_le frames
  have hearlier := pacing.hostCalls_le (frames - 1)
  cases place with
  | ready =>
    obtain ⟨_, hwindows⟩ := h
    omega
  | ran =>
    obtain ⟨_, _, hwindows⟩ := h
    omega
  | before window | after window =>
    cases window with
    | host =>
      obtain ⟨_, _, hwindows, _⟩ := h
      omega
    | frame =>
      obtain ⟨_, _, hwindows⟩ := h
      omega
  | yielded =>
    obtain ⟨_, _, hwindows⟩ := h
    omega

end

/-- The place that a stage of the loop stands for. -/
def place (self : ThreadState Machine) : MachineLoop.Stage → Place
  | .looking => .ran
  | .announcing _ => .before .host
  | .opening window | .inside window => .before window
  | .closing window => if self.activity.isEnding then .after window else .before window
  | .yielding => if self.activity.isIdle then .after .frame else .yielded
  | .starting | .loading | .addingCycles _ | .counting | .addingFrame _ | .leaving _ | .ended =>
    .ready

/-- The loop has returned or panicked. -/
def MachineLoop.Stage.isOver : MachineLoop.Stage → Bool
  | leaving _ | ended => true
  | _ => false

section

variable {self : ThreadState Machine} (window : Window)

theorem place_closing_of_ends (h : self.Ends .closeWindow) :
    place self (.closing window) = .after window := by
  obtain ⟨point, hpoint, hbusy⟩ := h
  rw [place, hbusy]
  exact if_pos hpoint

theorem place_closing_of_before
    (h : self.Rests ∨ self.activity = .busy .closeWindow .closing) :
    place self (.closing window) = .before window := by
  rw [place]
  obtain hrests | hbusy := h
  · rw [hrests.1]
    rfl
  · rw [hbusy]
    rfl

theorem place_yielding_of_runs (h : self.Runs) : place self .yielding = .after .frame := by
  rw [place, h.1]
  rfl

theorem place_yielding_of_busy {point : Point} (h : self.activity = .busy .yieldNow point) :
    place self .yielding = .yielded := by
  rw [place, h]
  rfl

end

/-- The counters of the lock are those of a place, and no more handovers are counted than yields;
before the worker looks whether to hand the lock over, there is one fewer. -/
structure InAccount (pacing : Pacing) (lock : Lock Machine) (state : ThreadState Machine)
    (place : Place) : Prop where
  account : Account pacing lock.value.frame.toNat lock.stats.yieldCalls.toNat
    lock.stats.windows.toNat place
  handoffs : lock.stats.handoffs.toNat ≤ lock.stats.yieldCalls.toNat
  polls : state.activity = .busy .yieldNow .polling →
    lock.stats.handoffs.toNat < lock.stats.yieldCalls.toNat

/-- The counters of the lock are those of a loop that has returned. -/
structure IsClosed (pacing : Pacing) (lock : Lock Machine) : Prop where
  closed : Closed pacing lock.value.frame.toNat lock.stats.yieldCalls.toNat
    lock.stats.windows.toNat
  handoffs : lock.stats.handoffs.toNat ≤ lock.stats.yieldCalls.toNat

/-- The counters of the lock at a stage of the loop on a thread that was started for it. Nothing is
said of them once the loop has panicked. -/
def Paced (pacing : Pacing) (lock : Lock Machine) (self : ThreadState Machine) :
    MachineLoop.Stage → Prop
  | .leaving outcome =>
    (self.activity = .idle ∨ ∃ point, self.activity = .busy (.finish outcome) point) ∧
      (outcome = none → IsClosed pacing lock)
  | .ended => ∃ outcome, self.activity = .finished outcome ∧
      (outcome = none → IsClosed pacing lock)
  | stage => InAccount pacing lock self (place self stage)

section

variable {pacing : Pacing} {lock after : Lock Machine} {self next : ThreadState Machine}
  {stage later : MachineLoop.Stage}

theorem paced_iff (hstage : stage.isOver = false) :
    Paced pacing lock self stage ↔ InAccount pacing lock self (place self stage) := by
  cases stage with
  | leaving | ended => cases hstage
  | _ => exact Iff.rfl

theorem InAccount.paced {here : Place} (h : InAccount pacing lock self here)
    (hstage : stage.isOver = false) (hplace : place self stage = here) :
    Paced pacing lock self stage := by rwa [paced_iff hstage, hplace]

theorem Paced.inAccount (h : Paced pacing lock self stage) (hstage : stage.isOver = false) :
    InAccount pacing lock self (place self stage) := (paced_iff hstage).mp h

/-- The counters with which a worker counts its yields and windows are as they were. -/
structure KeepsWork (before after : Stats) : Prop where
  yieldCalls : after.yieldCalls = before.yieldCalls
  handoffs : after.handoffs = before.handoffs
  windows : after.windows = before.windows

theorem KeepsWork.of_eq {before after : Stats} (h : after = before) : KeepsWork before after :=
  ⟨congrArg _ h, congrArg _ h, congrArg _ h⟩

/-- Only the frame counter and three of the counters of the lock matter. -/
theorem InAccount.congr {here : Place} (h : InAccount pacing lock self here)
    (hframe : after.value.frame = lock.value.frame)
    (hstats : KeepsWork lock.stats after.stats)
    (hpolls : next.activity = .busy .yieldNow .polling → self.activity = next.activity) :
    InAccount pacing after next here where
  account := by rw [hframe, hstats.yieldCalls, hstats.windows]; exact h.account
  handoffs := by rw [hstats.yieldCalls, hstats.handoffs]; exact h.handoffs
  polls hpolling := by
    rw [hstats.yieldCalls, hstats.handoffs]
    exact h.polls ((hpolls hpolling).trans hpolling)

theorem IsClosed.congr (h : IsClosed pacing lock) (hframe : after.value.frame = lock.value.frame)
    (hstats : KeepsWork lock.stats after.stats) : IsClosed pacing after where
  closed := by rw [hframe, hstats.yieldCalls, hstats.windows]; exact h.closed
  handoffs := by rw [hstats.yieldCalls, hstats.handoffs]; exact h.handoffs

/-- A place depends on what the thread is doing and on nothing else. -/
theorem place_congr (hsame : next.activity = self.activity) (stage : MachineLoop.Stage) :
    place next stage = place self stage := by
  cases stage with
  | closing window | yielding => rw [place, place, hsame]
  | _ => rfl

/-- The account is kept while others use the lock. -/
theorem Paced.congr (h : Paced pacing lock self stage)
    (hframe : after.value.frame = lock.value.frame)
    (hstats : KeepsWork lock.stats after.stats)
    (hsame : next.activity = self.activity) : Paced pacing after next stage := by
  cases hover : stage.isOver with
  | false =>
    rw [paced_iff hover] at h ⊢
    rw [place_congr hsame]
    exact h.congr hframe hstats fun _ ↦ hsame.symm
  | true =>
    cases stage with
    | leaving outcome =>
      rw [Paced, hsame]
      exact ⟨h.1, fun hnone ↦ (h.2 hnone).congr hframe hstats⟩
    | ended =>
      obtain ⟨outcome, hfinished, hclosed⟩ := h
      exact ⟨outcome, hsame.trans hfinished, fun hnone ↦ (hclosed hnone).congr hframe hstats⟩
    | _ => cases hover

/-- A loop whose thread has ended without a panic has closed its account. -/
theorem Paced.closed (h : Paced pacing lock self stage) (hloops : Plant.LoopsAt self stage)
    (hstage : stage ≠ .starting) (hfinished : self.activity = .finished none) :
    IsClosed pacing lock := by
  cases hout : stage.isOut with
  | false => exact absurd hfinished (hloops.ne_finished hout none)
  | true =>
    cases stage with
    | starting => exact absurd rfl hstage
    | leaving outcome =>
      obtain ⟨hidle | ⟨_, hbusy⟩, _⟩ := h
      · cases hidle.symm.trans hfinished
      · cases hbusy.symm.trans hfinished
    | ended =>
      obtain ⟨outcome, hended, hclosed⟩ := h
      exact hclosed (Activity.finished.inj (hended.symm.trans hfinished))
    | _ => cases hout

/-- The account at a place where nobody polls. -/
theorem inAccount_of_quiet {there : Place}
    (hhandoffs : after.stats.handoffs.toNat ≤ after.stats.yieldCalls.toNat)
    (haccount : Account pacing after.value.frame.toNat after.stats.yieldCalls.toNat
      after.stats.windows.toNat there)
    (hquiet : next.activity ≠ .busy .yieldNow .polling) : InAccount pacing after next there where
  account := haccount
  handoffs := hhandoffs
  polls hpolling := absurd hpolling hquiet

end

section

variable {build : Build} {pacing : Pacing} {me : Thread} {plant next : Plant}

/-- Twice as many windows as frames fit into a word, because the cycles of the frames do. -/
theorem Plant.Counted.frame_lt {machine : Machine} {stage : MachineLoop.Stage}
    (h : Plant.Counted true machine stage) : 2 * machine.frame.toNat + 2 < UInt64.size := by
  obtain ⟨ahead, htied⟩ := h.exists_tied
  have hlt := htied.frame_lt
  have hsize : UInt64.size = 2 ^ 64 := rfl
  rw [Machine.toNat_cyclesPerFrame] at hlt
  omega

/-- The loop is where it was in its account, or where nothing is counted in between. -/
theorem InAccount.of_kept {here : Place}
    (h : InAccount pacing plant.world.lock (plant.self me) here) (hkept : plant.Keeps next)
    (hquiet : (next.self me).activity ≠ .busy .yieldNow .polling) :
    InAccount pacing next.world.lock (next.self me) here := by
  apply h.congr (by rw [hkept.1]) (.of_eq hkept.2)
  exact fun hpolling ↦ absurd hpolling hquiet

theorem IsClosed.of_kept (h : IsClosed pacing plant.world.lock) (hkept : plant.Keeps next) :
    IsClosed pacing next.world.lock :=
  h.congr (by rw [hkept.1]) (.of_eq hkept.2)

theorem paced_start {effect : Effect Machine}
    (hsteps : Plant.Steps build pacing me plant next none effect)
    (hfits : (plant.self me).Fits plant.world.lock me) (hstage : plant.stage = .starting)
    (hstarts : (plant.self me).activity.isStarting = true)
    (hpaced : InAccount pacing plant.world.lock (plant.self me) .ready) :
    Paced pacing next.world.lock (next.self me) next.stage := by
  obtain ⟨point, hbusy⟩ := Activity.exists_of_isStarting hstarts
  have hstats := hsteps.rule.stats_eq_of_boundsLife hfits (.inr ⟨rfl, point, hbusy⟩) rfl
  have hkept := hsteps.keeps hstats
  obtain ⟨hnext, hstarts⟩ | ⟨hnext, hfinished⟩ | ⟨hnext, hruns⟩ :=
    hsteps.of_starting hfits.sound hstage hstarts
  · rw [hnext]
    apply hpaced.of_kept hkept
    intro hpolling
    rw [hpolling] at hstarts
    cases hstarts
  · rw [hnext]
    exact ⟨_, hfinished, nofun⟩
  · rw [hnext]
    exact hpaced.of_kept hkept (by rw [hruns.1]; nofun)

theorem paced_afterSum (hruns : (next.self me).Runs) {stage : Machine → MachineLoop.Stage}
    (h : ∀ machine, Paced pacing next.world.lock (next.self me) (stage machine))
    (sum : Except Panic Machine) :
    Paced pacing next.world.lock (next.self me) (MachineLoop.afterSum stage sum) := by
  cases sum with
  | ok machine => exact h machine
  | error panic => exact ⟨.inl hruns.1, nofun⟩

theorem paced_looked
    (hpaced : InAccount pacing plant.world.lock (plant.self me) .ran)
    (hlock : next.world.lock = plant.world.lock) (hruns : (next.self me).Runs) :
    Paced pacing next.world.lock (next.self me)
      (MachineLoop.answered build pacing .looking (.value plant.world.lock.value)) := by
  have hquiet : (next.self me).activity ≠ .busy .yieldNow .polling := by
    rw [hruns.1]
    nofun
  rw [MachineLoop.answered, hlock]
  obtain ⟨hhosts, haccount⟩ | ⟨hhosts, haccount⟩ := hpaced.account.look
  · rw [if_pos ((pacing.isHostFrame_iff _).mpr hhosts)]
    exact inAccount_of_quiet hpaced.handoffs haccount hquiet
  · rw [if_neg fun hframe ↦ hhosts ((pacing.isHostFrame_iff _).mp hframe)]
    exact inAccount_of_quiet hpaced.handoffs haccount hquiet

theorem paced_stored {machine : Machine}
    (hcounted : Plant.Counted true plant.world.lock.value plant.stage)
    (hpaced : Paced pacing plant.world.lock (plant.self me) plant.stage)
    (hstage : plant.stage = .addingCycles machine ∧ next.stage = .counting ∨
      plant.stage = .addingFrame machine ∧ next.stage = .looking)
    (hlock : next.world.lock = { plant.world.lock with value := machine })
    (hruns : (next.self me).Runs) :
    Paced pacing next.world.lock (next.self me) next.stage := by
  have hlt := hcounted.frame_lt
  have hquiet : (next.self me).activity ≠ .busy .yieldNow .polling := by
    rw [hruns.1]
    nofun
  obtain ⟨hstage, hnext⟩ | ⟨hstage, hnext⟩ := hstage
  · rw [hstage] at hcounted hpaced
    rw [hnext, hlock]
    exact InAccount.congr hpaced hcounted.2.2 (.of_eq rfl) fun hpolling ↦
      absurd hpolling hquiet
  · rw [hstage] at hcounted hpaced
    rw [hnext, hlock]
    refine inAccount_of_quiet hpaced.handoffs ?_ hquiet
    have hframe : machine.frame.toNat = plant.world.lock.value.frame.toNat + 1 := by
      rw [hcounted.2.2]
      exact toNat_add_one (by omega)
    change Account pacing machine.frame.toNat _ _ .ran
    rw [hframe]
    exact hpaced.account.count

/-- A window is counted, and the loop goes on after it or ends its session. -/
theorem paced_closed {window : Window}
    (hcounted : Plant.Counted true plant.world.lock.value plant.stage)
    (hpaced : InAccount pacing plant.world.lock (plant.self me) (.before window))
    (hvalue : next.world.lock.value = plant.world.lock.value)
    (hstats : next.world.lock.stats = plant.world.lock.stats.countWindow)
    (hnext : next.stage = MachineLoop.afterWindow window ∧ (next.self me).Runs ∨
      next.stage = .closing window ∧ (next.self me).Ends .closeWindow) :
    Paced pacing next.world.lock (next.self me) next.stage := by
  have hlt := hcounted.frame_lt
  have hwindows := hpaced.account.windows_le
  have hsum : next.world.lock.stats.windows.toNat = plant.world.lock.stats.windows.toNat + 1 := by
    rw [hstats]
    exact toNat_add_one (by omega)
  have hafter : InAccount pacing next.world.lock (next.self me) (.after window) := by
    refine inAccount_of_quiet ?_ ?_ ?_
    · rw [hstats]
      exact hpaced.handoffs
    · rw [hsum, hvalue, hstats]
      exact hpaced.account.close
    · obtain ⟨_, hidle, _⟩ | ⟨_, point, _, hbusy⟩ := hnext
      · rw [hidle]
        nofun
      · rw [hbusy]
        nofun
  obtain ⟨hnext, hruns⟩ | ⟨hnext, hends⟩ := hnext
  · rw [hnext]
    cases window with
    | host => exact ⟨hafter.account.rest, hafter.handoffs, hafter.polls⟩
    | frame => exact hafter.paced rfl (place_yielding_of_runs hruns)
  · rw [hnext]
    exact hafter.paced rfl (place_closing_of_ends window hends)

/-- A yield is counted. -/
theorem inAccount_of_countYield
    (hcounted : Plant.Counted true plant.world.lock.value plant.stage)
    (hpaced : InAccount pacing plant.world.lock (plant.self me) (.after .frame))
    (hvalue : next.world.lock.value = plant.world.lock.value)
    (hstats : next.world.lock.stats = plant.world.lock.stats.countYield) :
    InAccount pacing next.world.lock (next.self me) .yielded := by
  have hlt := hcounted.frame_lt
  have hyields := hpaced.account.yields_le
  have hsum : next.world.lock.stats.yieldCalls.toNat =
      plant.world.lock.stats.yieldCalls.toNat + 1 := by
    rw [hstats]
    exact toNat_add_one (by omega)
  have hhandoffs : next.world.lock.stats.handoffs = plant.world.lock.stats.handoffs := by
    rw [hstats]
    rfl
  refine ⟨?_, ?_, fun _ ↦ ?_⟩
  · rw [hsum, hvalue, hstats]
    exact hpaced.account.yield
  · rw [hsum, hhandoffs]
    exact Nat.le_succ_of_le hpaced.handoffs
  · rw [hsum, hhandoffs]
    exact Nat.lt_succ_of_le hpaced.handoffs

/-- A handover is counted, in a yield that has been counted before. -/
theorem inAccount_of_countHandoff
    (hpaced : InAccount pacing plant.world.lock (plant.self me) .yielded)
    (hpolls : (plant.self me).Polls) (hvalue : next.world.lock.value = plant.world.lock.value)
    (hstats : next.world.lock.stats = plant.world.lock.stats.countHandoff)
    (hquiet : (next.self me).activity ≠ .busy .yieldNow .polling) :
    InAccount pacing next.world.lock (next.self me) .yielded := by
  have hfewer := hpaced.polls hpolls.2
  have hsum : next.world.lock.stats.handoffs.toNat =
      plant.world.lock.stats.handoffs.toNat + 1 := by
    rw [hstats]
    exact toNat_add_one (Nat.lt_of_le_of_lt hfewer plant.world.lock.stats.yieldCalls.toNat_lt_size)
  have hyields : next.world.lock.stats.yieldCalls = plant.world.lock.stats.yieldCalls := by
    rw [hstats]
    rfl
  refine inAccount_of_quiet ?_ ?_ hquiet
  · rw [hsum, hyields]
    exact hfewer
  · rw [hvalue, hstats]
    exact hpaced.account

/-- A loop that is told to stop has closed its account. -/
theorem InAccount.leaves {here : Place}
    (h : InAccount pacing next.world.lock (next.self me) here)
    (hhere : (∃ window, here = .after window) ∨ here = .yielded)
    (hnext : next.stage = .leaving none) (hidle : (next.self me).activity = .idle) :
    Paced pacing next.world.lock (next.self me) next.stage := by
  rw [hnext]
  exact ⟨.inl hidle, fun _ ↦ ⟨h.account.closed hhere, h.handoffs⟩⟩

/-- A thread that leaves the loop makes the last call of its life or goes on in it. -/
theorem Plant.Steps.isIn_finish {outcome : Option Panic} {call? : Option (Call Machine)}
    {effect : Effect Machine} (h : Plant.Steps build pacing me plant next call? effect)
    (hcall : call? = none ∨ call? = some (.finish outcome))
    (hstands : (plant.self me).activity = .idle ∨
      ∃ point, (plant.self me).activity = .busy (.finish outcome) point) :
    (plant.self me).IsIn call? (.finish outcome) := by
  obtain rfl | rfl := hcall
  · obtain hidle | ⟨point, hbusy⟩ := hstands
    · exact absurd hidle h.rule.ne_idle
    · exact .inr ⟨rfl, point, hbusy⟩
  · exact .inl rfl

/-- A thread that leaves the loop ends with the outcome of the loop, or with the panic of its
teardown. -/
theorem paced_leave {outcome : Option Panic} {call? : Option (Call Machine)}
    {effect : Effect Machine} (hsteps : Plant.Steps build pacing me plant next call? effect)
    (hfits : (plant.self me).Fits plant.world.lock me) (hstage : plant.stage = .leaving outcome)
    (hcall : call? = none ∨ call? = some (.finish outcome))
    (hpaced : Paced pacing plant.world.lock (plant.self me) (.leaving outcome)) :
    Paced pacing next.world.lock (next.self me) next.stage := by
  obtain ⟨hstands, hclosed⟩ := hpaced
  have hin := hsteps.isIn_finish hcall hstands
  have hkept : plant.Keeps next := by
    refine ⟨(hsteps.of_leaving hstage hcall).1, ?_⟩
    rw [hsteps.lock_eq]
    exact hsteps.rule.stats_eq_of_boundsLife hfits hin rfl
  have hends : (∃ point, (next.self me).activity = .busy (.finish outcome) point) ∨
      ∃ ended, (next.self me).activity = .finished ended := by
    rw [hsteps.self_eq]
    obtain rfl | ⟨rfl, point, hbusy⟩ := hin
    · exact hsteps.rule.of_finish.imp And.left fun hfinished ↦ ⟨_, hfinished⟩
    · exact hsteps.rule.of_ending hfits.sound hbusy
  obtain ⟨point, hbusy⟩ | ⟨ended, hfinished⟩ := hends
  · have hanswers : effect.answers = [] := by
      apply Classical.byContradiction
      intro hanswers
      have hidle := hsteps.rule.isBusy_of_answers hanswers
      rw [← hsteps.self_eq, hbusy] at hidle
      cases hidle
    rw [hsteps.stage_of_none hanswers, hstage]
    exact ⟨.inr ⟨point, hbusy⟩, fun hnone ↦ (hclosed hnone).of_kept hkept⟩
  · have hended := hfinished
    rw [hsteps.self_eq] at hended
    rw [hsteps.stage_of_answer (hsteps.rule.answers_of_finished hended), hstage]
    refine ⟨ended, hfinished, ?_⟩
    rintro rfl
    obtain hends | ⟨_, hnone⟩ | ⟨_, hsome⟩ := hsteps.rule.of_finished hfits hended
    · obtain rfl : outcome = none := Call.finish.inj (hin.unique hends)
      exact (hclosed rfl).of_kept hkept
    · cases hnone
    · cases hsome

/-- The loop acquires no lock. -/
theorem Plant.Stride.acquisitions_eq (h : Plant.Stride build pacing me plant next)
    (hfits : (plant.self me).Fits plant.world.lock me)
    (hpaced : Paced pacing plant.world.lock (plant.self me) plant.stage) :
    next.world.lock.stats.acquisitions = plant.world.lock.stats.acquisitions := by
  cases h with
  | start hstage hstarts hsteps =>
    obtain ⟨point, hbusy⟩ := Activity.exists_of_isStarting hstarts
    rw [hsteps.lock_eq,
      hsteps.rule.stats_eq_of_boundsLife hfits (.inr ⟨rfl, point, hbusy⟩) rfl]
  | leave hstage hcall hsteps =>
    rw [hstage] at hpaced
    rw [hsteps.lock_eq,
      hsteps.rule.stats_eq_of_boundsLife hfits (hsteps.isIn_finish hcall hpaced.1) rfl]
  | compute _ hlock => rw [hlock]
  | store _ _ hlock => rw [hlock]
  | announce _ hworld | rest _ hworld => rw [hworld]
  | openWindow _ hkept | approach _ _ hkept | await _ _ hkept | proceed _ _ hkept
  | exit _ _ hkept => rw [hkept.2]
  | closeWindow _ _ _ hstats | beginYield _ _ _ hstats | handOver _ _ _ hstats =>
    rw [hstats]
    rfl
  | fail _ _ _ _ hacquired => exact hacquired

theorem Plant.Stride.paced (h : Plant.Stride build pacing me plant next)
    (hfits : (plant.self me).Fits plant.world.lock me)
    (hcounted : Plant.Counted true plant.world.lock.value plant.stage)
    (hpaced : Paced pacing plant.world.lock (plant.self me) plant.stage) :
    Paced pacing next.world.lock (next.self me) next.stage := by
  cases h with
  | start hstage hstarts hsteps =>
    rw [hstage] at hpaced
    exact paced_start hsteps hfits hstage hstarts hpaced
  | compute hstage hlock hruns hnext =>
    have hkept : plant.Keeps next := by
      rw [Plant.Keeps, hlock]
      exact ⟨rfl, rfl⟩
    have hquiet : (next.self me).activity ≠ .busy .yieldNow .polling := by
      rw [hruns.1]
      simp
    rw [hnext]
    obtain hstage | hstage | hstage := hstage
    · rw [hstage] at hpaced ⊢
      apply paced_afterSum hruns
      exact fun _ ↦ InAccount.of_kept hpaced hkept hquiet
    · rw [hstage] at hpaced ⊢
      apply paced_afterSum hruns
      exact fun _ ↦ InAccount.of_kept hpaced hkept hquiet
    · rw [hstage] at hpaced ⊢
      exact paced_looked hpaced hlock hruns
  | store machine hstage hlock hruns =>
    exact paced_stored hcounted hpaced hstage hlock hruns
  | announce hstage hworld hruns hnext =>
    rw [hstage] at hpaced
    rw [hnext, hworld]
    exact InAccount.congr hpaced rfl (.of_eq rfl) (by simp [hruns.1])
  | openWindow hstage hkept hrests hnext =>
    rw [hstage] at hpaced
    rw [hnext]
    exact InAccount.of_kept hpaced hkept (by simp [hrests.1])
  | @rest window hstage hworld hrests hnext =>
    rw [hstage] at hpaced
    rw [hnext]
    have hkept : plant.Keeps next := by
      rw [Plant.Keeps, hworld]
      exact ⟨rfl, rfl⟩
    refine (InAccount.of_kept hpaced hkept ?_).paced rfl
      (place_closing_of_before window (.inl hrests))
    simp [hrests.1]
  | @approach window hstage hbefore hkept hbusy hnext =>
    rw [hstage] at hpaced
    rw [hnext]
    have hplace := place_closing_of_before window hbefore
    refine (InAccount.of_kept (hplace ▸ hpaced.inAccount rfl) hkept ?_).paced rfl
      (place_closing_of_before window (.inr hbusy))
    simp [hbusy]
  | @closeWindow window hstage hbusy hvalue hstats hnext =>
    rw [hstage] at hpaced
    have hplace := place_closing_of_before window (.inr hbusy)
    exact paced_closed hcounted (hplace ▸ hpaced.inAccount rfl) hvalue hstats hnext
  | beginYield hstage hruns hvalue hstats hself hnext =>
    rw [hstage] at hpaced
    have hplace := place_yielding_of_runs hruns
    have hafter := inAccount_of_countYield hcounted (hplace ▸ hpaced.inAccount rfl) hvalue hstats
    obtain ⟨point, hbusy⟩ : ∃ point, (next.self me).activity = .busy .yieldNow point := by
      obtain ⟨_, hbusy⟩ | ⟨point, _, hbusy⟩ := hself
      · exact ⟨_, hbusy⟩
      · exact ⟨point, hbusy⟩
    exact hafter.paced (by rw [hnext]; rfl) (by rw [hnext, place_yielding_of_busy hbusy])
  | handOver hstage hpolls hvalue hstats hself hnext =>
    rw [hstage] at hpaced
    have hplace := place_yielding_of_busy hpolls.2
    have hafter := inAccount_of_countHandoff (hplace ▸ hpaced.inAccount rfl) hpolls hvalue hstats
      hself.quiet
    obtain ⟨_, point, _, hbusy⟩ := hself
    exact hafter.paced (by rw [hnext]; rfl) (by rw [hnext, place_yielding_of_busy hbusy])
  | await hstage hbefore hkept hself hnext =>
    rw [hstage] at hpaced
    obtain ⟨_, point, _, hbusy⟩ := hbefore
    have hplace := place_yielding_of_busy hbusy
    obtain ⟨later, hlater⟩ : ∃ later, (next.self me).activity = .busy .yieldNow later := by
      obtain ⟨_, later, _, hlater⟩ | ⟨later, _, hlater⟩ := hself
      · exact ⟨later, hlater⟩
      · exact ⟨later, hlater⟩
    have hquiet := hself.elim ThreadState.HandsOver.quiet ThreadState.Ends.quiet
    have hafter := InAccount.of_kept (hplace ▸ hpaced.inAccount rfl) hkept hquiet
    exact hafter.paced (by rw [hnext]; rfl) (by rw [hnext, place_yielding_of_busy hlater])
  | proceed hstage hbefore hkept hruns hnext =>
    rw [hstage] at hpaced
    obtain ⟨point, hbusy⟩ : ∃ point, (plant.self me).activity = .busy .yieldNow point := by
      obtain ⟨_, hbusy⟩ | ⟨_, point, _, hbusy⟩ := hbefore
      · exact ⟨_, hbusy⟩
      · exact ⟨point, hbusy⟩
    have hplace := place_yielding_of_busy hbusy
    have hquiet : (next.self me).activity ≠ .busy .yieldNow .polling := by
      simp [hruns.1]
    have hafter : InAccount pacing next.world.lock (next.self me) .yielded :=
      InAccount.of_kept (hplace ▸ hpaced.inAccount rfl) hkept hquiet
    rw [hnext]
    exact ⟨hafter.account.proceed, hafter.handoffs, hafter.polls⟩
  | exit hstage hends hkept hnext =>
    have hquiet : (next.self me).activity ≠ .busy .yieldNow .polling := by
      obtain ⟨_, hends⟩ | ⟨_, hidle⟩ := hnext
      · exact hends.quiet
      · simp [hidle]
    obtain ⟨rfl, window, hstage⟩ | ⟨rfl, hstage⟩ := hstage
    · rw [hstage] at hpaced hnext
      have hplace := place_closing_of_ends window hends
      have hafter := InAccount.of_kept (hplace ▸ hpaced.inAccount rfl) hkept hquiet
      obtain ⟨hnext, hends⟩ | ⟨hnext, hidle⟩ := hnext
      · exact hafter.paced (by rw [hnext]; rfl) (by rw [hnext, place_closing_of_ends window hends])
      · exact hafter.leaves (.inl ⟨window, rfl⟩) hnext hidle
    · rw [hstage] at hpaced hnext
      obtain ⟨_, _, hbusy⟩ := hends
      have hplace := place_yielding_of_busy hbusy
      have hafter := InAccount.of_kept (hplace ▸ hpaced.inAccount rfl) hkept hquiet
      obtain ⟨hnext, _, _, hbusy⟩ | ⟨hnext, hidle⟩ := hnext
      · exact hafter.paced (by rw [hnext]; rfl) (by rw [hnext, place_yielding_of_busy hbusy])
      · exact hafter.leaves (.inr rfl) hnext hidle
  | fail panic _ _ _ _ hidle hnext =>
    rw [hnext]
    exact ⟨.inl hidle, by simp⟩
  | leave hstage hcall hsteps =>
    rw [hstage] at hpaced
    exact paced_leave hsteps hfits hstage hcall hpaced

end

end Demo

end YieldLock
