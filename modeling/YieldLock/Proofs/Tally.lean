import YieldLock.Proofs.Course

/-!
# What the loop has counted when it returns

The loop may be entered on a thread that is the worker already, with a machine that
has run before. From there its yields and windows follow from the frames that it
executes, and its exit tells which of them the last frame still has. Main statements:
`Plant.Stride.tally`, what a step of the loop counts, and `exact_counts_of_return`.
-/

namespace YieldLock

section

variable {σ : Type} {build : Build} {me : Thread}

/-- A thread without a session counts neither yields nor windows. -/
theorem ThreadState.Rule.keepsWork {now : Nat} {lock : Lock σ} {self : ThreadState σ}
    {call? : Option (Call σ)} {effect : Effect σ}
    (rule : Rule build now me lock self call? effect) (h : self.Fits lock me)
    (hsession : self.session = none) : Demo.KeepsWork lock.stats effect.lock.stats := by
  cases rule.booking h with
  | nothing hstats => exact .of_eq hstats
  | acquisition _ _ _ hstats =>
    rw [hstats]
    exact ⟨rfl, rfl, rfl⟩
  | yielding _ hphase =>
    rw [phase?, hsession] at hphase
    cases hphase
  | handover _ hbusy =>
    obtain ⟨_, session, hsome, _⟩ := h.sound.place _ _ hbusy
    cases hsession.symm.trans hsome
  | window _ hbusy => cases hsession.symm.trans (h.sound.place _ _ hbusy).2

/-- Only the worker counts yields and windows. -/
theorem World.keepsWork_of_others {world next : World σ} {move : Move σ} {events : List (Event σ)}
    (hmove : world.move? build move = some (next, events)) (hreach : Reachable build world)
    (hworker : world.lock.worker = some me) (hother : move.thread? ≠ some me) :
    Demo.KeepsWork world.lock.stats next.lock.stats := by
  cases World.change_of_move? hmove with
  | enter | pass | spawn | spawnRefused => exact .of_eq rfl
  | own name call? effect _ rule =>
    rw [Move.thread?_ofThread] at hother
    have hne : name ≠ me := fun hname ↦ hother (congrArg some hname)
    exact rule.keepsWork (hreach.fits name) (hreach.session_eq_none hworker hne)

end

/-- A word that does not fall when it is counted up has not been exhausted. -/
theorem toNat_add_one_of_le {word : UInt64} (h : word ≤ word + 1) :
    (word + 1).toNat = word.toNat + 1 := by
  apply toNat_add_one
  have hle := UInt64.le_iff_toNat_le.mp h
  have hlt := word.toNat_lt_size
  rw [UInt64.toNat_add, UInt64.toNat_one] at hle
  by_contra hlarge
  have hlast : word.toNat + 1 = 2 ^ 64 := by
    change ¬ word.toNat + 1 < 2 ^ 64 at hlarge
    change word.toNat < 2 ^ 64 at hlt
    omega
  rw [hlast, Nat.mod_self] at hle
  omega

namespace Demo

namespace Pacing

instance (pacing : Pacing) (frames : Nat) : Decidable (pacing.Hosts frames) :=
  inferInstanceAs (Decidable (_ ∧ _))

/-- The number of host calls in the frames that follow a first number of them. -/
def hostCallsAfter (pacing : Pacing) (first frames : Nat) : Nat :=
  (List.range' 1 frames).countP fun number ↦ pacing.Hosts (first + number)

theorem hostCalls_add (pacing : Pacing) (first frames : Nat) :
    pacing.hostCalls (first + frames) =
      pacing.hostCalls first + pacing.hostCallsAfter first frames := by
  induction frames with
  | zero => rfl
  | succ frames ih =>
    have hpos : 1 ≤ first + (frames + 1) := Nat.le_add_left 1 (first + frames)
    have hlast : pacing.hostCallsAfter first (frames + 1) =
        pacing.hostCallsAfter first frames +
          if pacing.Hosts (first + (frames + 1)) then 1 else 0 := by
      rw [hostCallsAfter, hostCallsAfter, List.range'_1_concat, List.countP_append,
        List.countP_singleton, Nat.add_comm 1 frames]
      simp only [decide_eq_true_eq]
    rw [hlast, ← Nat.add_assoc (pacing.hostCalls first), ← ih]
    split
    · exact pacing.hostCalls_of_hosts hpos ‹_›
    · exact pacing.hostCalls_of_not_hosts hpos ‹_›

end Pacing

namespace MachineLoop

/-- The calls in which the loop can be told to exit. -/
inductive Exit where
  | window (which : Window)
  | yield
  deriving DecidableEq, Repr

namespace Exit

def stage : Exit → Stage
  | window which => .closing which
  | yield => .yielding

/-- The yields and the windows that an exit leaves counted, some frames after the first. -/
def Tallies (pacing : Pacing) (first frames yields windows : Nat) : Exit → Prop
  | window .host =>
    pacing.Hosts (first + frames) ∧ yields = frames - 1 ∧
      windows = frames - 1 + pacing.hostCallsAfter first frames
  | window .frame =>
    yields = frames - 1 ∧ windows = frames + pacing.hostCallsAfter first frames
  | yield => yields = frames ∧ windows = frames + pacing.hostCallsAfter first frames

theorem stage_inj {exit other : Exit} (h : exit.stage = other.stage) : exit = other := by
  cases exit <;> cases other <;> cases h <;> rfl

end Exit

namespace Stage

/-- How many frames the loop has executed with a step at a stage. -/
def frames : Stage → Nat
  | addingFrame _ => 1
  | _ => 0

/-- How many times the loop reaches for the machine in a step at a stage. -/
def touches : Stage → Nat
  | loading | addingCycles _ | counting | addingFrame _ | looking => 1
  | _ => 0

/-- How many times the loop is still to reach for the machine before the next window. -/
def touchesDue : Stage → Nat
  | loading => 5
  | addingCycles _ => 4
  | counting => 3
  | addingFrame _ => 2
  | looking => 1
  | _ => 0

/-- How many frames the loop is still to execute before the next window. -/
def framesDue : Stage → Nat
  | loading | addingCycles _ | counting | addingFrame _ => 1
  | _ => 0

end Stage

end MachineLoop

namespace Plant

/-- What the loop is about to store has the number that its frame is to have. -/
def Drafts (frame : UInt64) : MachineLoop.Stage → Prop
  | .addingCycles draft => draft.frame = frame
  | .addingFrame draft => draft.frame = frame + 1
  | _ => True

/-- None of the counters has fallen, as it would from its largest value. -/
structure CountsUp (plant next : Plant) : Prop where
  frame : plant.world.lock.value.frame ≤ next.world.lock.value.frame
  yields : plant.world.lock.stats.yieldCalls ≤ next.world.lock.stats.yieldCalls
  windows : plant.world.lock.stats.windows ≤ next.world.lock.stats.windows

instance (plant next : Plant) : Decidable (plant.CountsUp next) :=
  decidable_of_iff
    (plant.world.lock.value.frame ≤ next.world.lock.value.frame ∧
      plant.world.lock.stats.yieldCalls ≤ next.world.lock.stats.yieldCalls ∧
      plant.world.lock.stats.windows ≤ next.world.lock.stats.windows)
    ⟨fun ⟨hframe, hyields, hwindows⟩ ↦ ⟨hframe, hyields, hwindows⟩,
      fun h ↦ ⟨h.frame, h.yields, h.windows⟩⟩

/-- The counters some frames after the loop was entered. They stand as in a loop that has run from
the first frame on, but for the yields and the windows of the frames before. -/
structure Tally (pacing : Pacing) (me : Thread) (first frames : Nat) (plant : Plant) : Prop where
  isIn : plant.stage.isOut = false
  frame : plant.world.lock.value.frame.toNat = first + frames
  draft : Drafts plant.world.lock.value.frame plant.stage
  pos : place (plant.self me) plant.stage ≠ .ready → 1 ≤ frames
  account : Account pacing (first + frames) (first + plant.world.lock.stats.yieldCalls.toNat)
    (first + pacing.hostCalls first + plant.world.lock.stats.windows.toNat)
    (place (plant.self me) plant.stage)

section

variable {build : Build} {pacing : Pacing} {me : Thread} {plant next : Plant}
  {first frames : Nat}

/-- Only the frame counter and two of the counters of the lock matter. -/
theorem Tally.congr (h : Tally pacing me first frames plant) (hin : next.stage.isOut = false)
    (hframe : next.world.lock.value.frame = plant.world.lock.value.frame)
    (hyields : next.world.lock.stats.yieldCalls = plant.world.lock.stats.yieldCalls)
    (hwindows : next.world.lock.stats.windows = plant.world.lock.stats.windows)
    (hdraft : Drafts plant.world.lock.value.frame next.stage)
    (hplace : place (next.self me) next.stage = place (plant.self me) plant.stage) :
    Tally pacing me first frames next where
  isIn := hin
  frame := by rw [hframe, h.frame]
  draft := by rwa [hframe]
  pos := by rw [hplace]; exact h.pos
  account := by rw [hyields, hwindows, hplace]; exact h.account

theorem Tally.keep (h : Tally pacing me first frames plant) (hin : next.stage.isOut = false)
    (hkept : plant.Keeps next) (hdraft : Drafts plant.world.lock.value.frame next.stage)
    (hplace : place (next.self me) next.stage = place (plant.self me) plant.stage) :
    Tally pacing me first frames next :=
  h.congr hin (by rw [hkept.1]) (by rw [hkept.2]) (by rw [hkept.2]) hdraft hplace

/-- The loop has worked out what it is to store, or it has looked at the number of the frame. -/
theorem Tally.compute (h : Tally pacing me first frames plant)
    (hstage : plant.stage = .loading ∨ plant.stage = .counting ∨ plant.stage = .looking)
    (hlock : next.world.lock = plant.world.lock)
    (hnext : next.stage =
      MachineLoop.answered build pacing plant.stage (.value plant.world.lock.value))
    (hin : next.stage.isOut = false) : Tally pacing me first frames next := by
  have hkept : plant.Keeps next := ⟨by rw [hlock], by rw [hlock]⟩
  obtain hstage | hstage | hstage := hstage
  · rw [hstage, MachineLoop.answered_loading] at hnext
    cases hsum : plant.world.lock.value.addCycles build with
    | error panic =>
      rw [hnext, hsum] at hin
      cases hin
    | ok draft =>
      rw [hsum] at hnext
      obtain ⟨rfl, _⟩ := Machine.addCycles_eq_ok hsum
      apply h.keep hin hkept
      · rw [hnext]
        rfl
      · rw [hnext, hstage]
        rfl
  · rw [hstage, MachineLoop.answered_counting] at hnext
    cases hsum : plant.world.lock.value.countFrame build with
    | error panic =>
      rw [hnext, hsum] at hin
      cases hin
    | ok draft =>
      rw [hsum] at hnext
      obtain rfl := Machine.countFrame_eq_ok hsum
      apply h.keep hin hkept
      · rw [hnext]
        rfl
      · rw [hnext, hstage]
        rfl
  · have haccount := h.account
    have hpos := h.pos
    rw [hstage] at haccount hpos hnext
    rw [MachineLoop.answered_looking] at hnext
    refine ⟨hin, by rw [hlock, h.frame], ?_, fun _ ↦ hpos nofun, ?_⟩
    · rw [hnext]
      split <;> trivial
    · rw [hlock, hnext]
      obtain ⟨hhosts, hbefore⟩ | ⟨hhosts, hbefore⟩ := haccount.look
      all_goals rw [← h.frame, ← Pacing.isHostFrame_iff] at hhosts
      · rwa [if_pos hhosts]
      · rwa [if_neg hhosts]

/-- The loop stores the cycles of a frame, or it stores the machine with the frame counted. -/
theorem Tally.store (h : Tally pacing me first frames plant) {machine : Machine}
    (hstage : plant.stage = .addingCycles machine ∧ next.stage = .counting ∨
      plant.stage = .addingFrame machine ∧ next.stage = .looking)
    (hlock : next.world.lock = { plant.world.lock with value := machine })
    (hup : plant.CountsUp next) :
    Tally pacing me first (frames + plant.stage.frames) next := by
  have hdraft := h.draft
  obtain ⟨hstage, hnext⟩ | ⟨hstage, hnext⟩ := hstage
  · rw [hstage] at hdraft ⊢
    apply h.congr (by rw [hnext]; rfl) (by rw [hlock]; exact hdraft) (by rw [hlock])
      (by rw [hlock]) (by rw [hnext]; trivial)
    rw [hnext, hstage]
    rfl
  · have hframe : next.world.lock.value.frame = plant.world.lock.value.frame + 1 := by
      rw [hstage] at hdraft
      rw [hlock]
      exact hdraft
    have hcounted : next.world.lock.value.frame.toNat = first + frames + 1 := by
      have hle := hup.frame
      rw [hframe] at hle ⊢
      rw [toNat_add_one_of_le hle, h.frame]
    have haccount := h.account
    rw [hstage] at haccount ⊢
    refine ⟨by rw [hnext]; rfl, hcounted, by rw [hnext]; trivial,
      fun _ ↦ Nat.le_add_left 1 frames, ?_⟩
    rw [hlock, hnext]
    exact haccount.count

/-- A window is counted, and the loop goes on after it or ends its session. -/
theorem Tally.close (h : Tally pacing me first frames plant) {window : Window}
    (hstage : plant.stage = .closing window)
    (hbusy : (plant.self me).activity = .busy .closeWindow .closing)
    (hvalue : next.world.lock.value = plant.world.lock.value)
    (hstats : next.world.lock.stats = plant.world.lock.stats.countWindow)
    (hnext : next.stage = MachineLoop.afterWindow window ∧ (next.self me).Runs ∨
      next.stage = .closing window ∧ (next.self me).Ends .closeWindow)
    (hup : plant.CountsUp next) : Tally pacing me first frames next := by
  have hplace := place_closing_of_before window (.inr hbusy)
  have haccount := h.account
  have hpos := h.pos
  rw [hstage, hplace] at haccount hpos
  have hwindows : next.world.lock.stats.windows.toNat =
      plant.world.lock.stats.windows.toNat + 1 := by
    have hle := hup.windows
    rw [hstats] at hle ⊢
    exact toNat_add_one_of_le hle
  have hclosed : Account pacing (first + frames)
      (first + next.world.lock.stats.yieldCalls.toNat)
      (first + pacing.hostCalls first + next.world.lock.stats.windows.toNat) (.after window) := by
    rw [hwindows, hstats]
    exact haccount.close
  have hframe : next.world.lock.value.frame.toNat = first + frames := by rw [hvalue, h.frame]
  obtain ⟨hnext, hruns⟩ | ⟨hnext, hends⟩ := hnext
  · cases window with
    | host =>
      refine ⟨by rw [hnext]; rfl, hframe, by rw [hnext]; trivial, fun _ ↦ hpos nofun, ?_⟩
      rw [hnext]
      exact hclosed.rest
    | frame =>
      refine ⟨by rw [hnext]; rfl, hframe, by rw [hnext]; trivial, fun _ ↦ hpos nofun, ?_⟩
      rw [hnext, MachineLoop.afterWindow, place_yielding_of_runs hruns]
      exact hclosed
  · refine ⟨by rw [hnext]; rfl, hframe, by rw [hnext]; trivial, fun _ ↦ hpos nofun, ?_⟩
    rw [hnext, place_closing_of_ends window hends]
    exact hclosed

/-- A yield is counted. -/
theorem Tally.beginYield (h : Tally pacing me first frames plant) (hstage : plant.stage = .yielding)
    (hruns : (plant.self me).Runs)
    (hvalue : next.world.lock.value = plant.world.lock.value)
    (hstats : next.world.lock.stats = plant.world.lock.stats.countYield)
    (hself : (next.self me).Polls ∨ (next.self me).Ends .yieldNow)
    (hnext : next.stage = .yielding) (hup : plant.CountsUp next) :
    Tally pacing me first frames next := by
  have haccount := h.account
  have hpos := h.pos
  rw [hstage, place_yielding_of_runs hruns] at haccount hpos
  have hyields : next.world.lock.stats.yieldCalls.toNat =
      plant.world.lock.stats.yieldCalls.toNat + 1 := by
    have hle := hup.yields
    rw [hstats] at hle ⊢
    exact toNat_add_one_of_le hle
  obtain ⟨point, hbusy⟩ : ∃ point, (next.self me).activity = .busy .yieldNow point := by
    obtain ⟨_, hbusy⟩ | ⟨point, _, hbusy⟩ := hself
    · exact ⟨_, hbusy⟩
    · exact ⟨point, hbusy⟩
  refine ⟨by rw [hnext]; rfl, by rw [hvalue, h.frame], by rw [hnext]; trivial,
    fun _ ↦ hpos nofun, ?_⟩
  rw [hnext, place_yielding_of_busy hbusy, hyields, hstats]
  exact haccount.yield

/-- In a yield that goes on nothing is counted but handovers. -/
theorem Tally.inYield (h : Tally pacing me first frames plant) (hstage : plant.stage = .yielding)
    {point later : Point} (hbusy : (plant.self me).activity = .busy .yieldNow point)
    (hvalue : next.world.lock.value = plant.world.lock.value)
    (hyields : next.world.lock.stats.yieldCalls = plant.world.lock.stats.yieldCalls)
    (hwindows : next.world.lock.stats.windows = plant.world.lock.stats.windows)
    (hlater : (next.self me).activity = .busy .yieldNow later) (hnext : next.stage = .yielding) :
    Tally pacing me first frames next := by
  refine h.congr (by rw [hnext]; rfl) (by rw [hvalue]) hyields hwindows (by rw [hnext]; trivial) ?_
  rw [hnext, hstage, place_yielding_of_busy hbusy, place_yielding_of_busy hlater]

/-- A step of the loop keeps the tally, unless the loop is over. -/
theorem Stride.tally (h : Stride build pacing me plant next)
    (htally : Tally pacing me first frames plant) (hup : plant.CountsUp next)
    (hin : next.stage.isOut = false) :
    Tally pacing me first (frames + plant.stage.frames) next := by
  cases h with
  | start hstage | leave hstage =>
    have hbefore := htally.isIn
    rw [hstage] at hbefore
    cases hbefore
  | compute hstage hlock _ hnext =>
    have hframes : plant.stage.frames = 0 := by
      obtain hstage | hstage | hstage := hstage <;> rw [hstage] <;> rfl
    rw [hframes]
    exact htally.compute hstage hlock hnext hin
  | store machine hstage hlock => exact htally.store hstage hlock hup
  | announce hstage hworld _ hnext =>
    rw [hstage]
    apply htally.keep hin ⟨by rw [hworld], by rw [hworld]⟩ (by rw [hnext]; trivial)
    rw [hnext, hstage]
    rfl
  | openWindow hstage hkept _ hnext =>
    rw [hstage]
    apply htally.keep hin hkept (by rw [hnext]; trivial)
    rw [hnext, hstage]
    rfl
  | @rest window hstage hworld hrests hnext =>
    rw [hstage]
    apply htally.keep hin ⟨by rw [hworld], by rw [hworld]⟩ (by rw [hnext]; trivial)
    rw [hnext, hstage]
    exact place_closing_of_before window (.inl hrests)
  | @approach window hstage hbefore hkept hbusy hnext =>
    rw [hstage]
    apply htally.keep hin hkept (by rw [hnext]; trivial)
    rw [hnext, hstage, place_closing_of_before window hbefore,
      place_closing_of_before window (.inr hbusy)]
  | closeWindow hstage hbusy hvalue hstats hnext =>
    rw [hstage]
    exact htally.close hstage hbusy hvalue hstats hnext hup
  | beginYield hstage hruns hvalue hstats hself hnext =>
    rw [hstage]
    exact htally.beginYield hstage hruns hvalue hstats hself hnext hup
  | handOver hstage hpolls hvalue hstats hself hnext =>
    rw [hstage]
    obtain ⟨_, later, _, hlater⟩ := hself
    exact htally.inYield hstage hpolls.2 hvalue (by rw [hstats]; rfl) (by rw [hstats]; rfl)
      hlater hnext
  | await hstage hbefore hkept hself hnext =>
    rw [hstage]
    obtain ⟨_, point, _, hbusy⟩ := hbefore
    obtain ⟨later, hlater⟩ : ∃ later, (next.self me).activity = .busy .yieldNow later := by
      obtain ⟨_, later, _, hlater⟩ | ⟨later, _, hlater⟩ := hself
      · exact ⟨later, hlater⟩
      · exact ⟨later, hlater⟩
    exact htally.inYield hstage hbusy hkept.1 (by rw [hkept.2]) (by rw [hkept.2]) hlater hnext
  | proceed hstage hbefore hkept hruns hnext =>
    obtain ⟨point, hbusy⟩ : ∃ point, (plant.self me).activity = .busy .yieldNow point := by
      obtain ⟨_, hbusy⟩ | ⟨_, point, _, hbusy⟩ := hbefore
      · exact ⟨_, hbusy⟩
      · exact ⟨point, hbusy⟩
    have haccount := htally.account
    rw [hstage, place_yielding_of_busy hbusy] at haccount
    rw [hstage]
    refine ⟨hin, by rw [hkept.1, htally.frame]; rfl, by rw [hnext]; trivial, ?_, ?_⟩
    · rw [hnext]
      exact fun hplace ↦ absurd rfl hplace
    · rw [hnext, hkept.2]
      exact haccount.proceed
  | exit hstage hends hkept hnext =>
    obtain ⟨hnext, hlater⟩ | ⟨hnext, _⟩ := hnext
    · obtain ⟨rfl, window, hstage⟩ | ⟨rfl, hstage⟩ := hstage
      · rw [hstage] at hnext ⊢
        apply htally.keep hin hkept (by rw [hnext]; trivial)
        rw [hnext, hstage, place_closing_of_ends window hends, place_closing_of_ends window hlater]
      · obtain ⟨_, _, hbusy⟩ := hends
        obtain ⟨_, _, hbusy'⟩ := hlater
        rw [hstage] at hnext ⊢
        exact htally.inYield hstage hbusy hkept.1 (by rw [hkept.2]) (by rw [hkept.2]) hbusy' hnext
    · rw [hnext] at hin
      cases hin
  | fail _ _ _ _ _ _ hnext =>
    rw [hnext] at hin
    cases hin

/-- The loop goes on or is over, and it reaches for the machine five times for every frame. -/
theorem Stride.due (h : Stride build pacing me plant next) (hin : plant.stage.isOut = false) :
    next.stage.isOver = true ∨ next.stage.isOut = false ∧
      plant.stage.touches + next.stage.touchesDue + 5 * plant.stage.framesDue =
        plant.stage.touchesDue + 5 * (plant.stage.frames + next.stage.framesDue) := by
  cases h with
  | start hstage | leave hstage =>
    rw [hstage] at hin
    cases hin
  | compute hstage _ _ hnext =>
    obtain hstage | hstage | hstage := hstage
    · rw [hstage, MachineLoop.answered_loading] at hnext
      rw [hstage, hnext]
      cases plant.world.lock.value.addCycles build with
      | ok draft => exact .inr ⟨rfl, rfl⟩
      | error panic => exact .inl rfl
    · rw [hstage, MachineLoop.answered_counting] at hnext
      rw [hstage, hnext]
      cases plant.world.lock.value.countFrame build with
      | ok draft => exact .inr ⟨rfl, rfl⟩
      | error panic => exact .inl rfl
    · rw [hstage, MachineLoop.answered_looking] at hnext
      rw [hstage, hnext]
      split <;> exact .inr ⟨rfl, rfl⟩
  | store _ hstage =>
    obtain ⟨hstage, hnext⟩ | ⟨hstage, hnext⟩ := hstage
    all_goals
      rw [hstage, hnext]
      exact .inr ⟨rfl, rfl⟩
  | announce hstage _ _ hnext | openWindow hstage _ _ hnext | rest hstage _ _ hnext
  | approach hstage _ _ _ hnext | beginYield hstage _ _ _ _ hnext
  | handOver hstage _ _ _ _ hnext | await hstage _ _ _ hnext | proceed hstage _ _ _ hnext =>
    rw [hstage, hnext]
    exact .inr ⟨rfl, rfl⟩
  | @closeWindow window hstage _ _ _ hnext =>
    obtain ⟨hnext, _⟩ | ⟨hnext, _⟩ := hnext
    · rw [hstage, hnext]
      cases window <;> exact .inr ⟨rfl, rfl⟩
    · rw [hstage, hnext]
      exact .inr ⟨rfl, rfl⟩
  | exit hstage _ _ hnext =>
    obtain ⟨hnext, _⟩ | ⟨hnext, _⟩ := hnext
    · rw [hnext]
      obtain ⟨_, window, hstage⟩ | ⟨_, hstage⟩ := hstage
      all_goals
        rw [hstage]
        exact .inr ⟨rfl, rfl⟩
    · rw [hnext]
      exact .inl rfl
  | fail _ _ _ _ _ _ hnext =>
    rw [hnext]
    exact .inl rfl

/-- The stage tells whether the loop reaches for the machine. -/
theorem touches_moveOfLoop? (h : LoopsAt (plant.self me) plant.stage) :
    ((plant.moveOfLoop? pacing me).any YieldLock.Move.touches).toNat = plant.stage.touches := by
  unfold moveOfLoop?
  cases hstage : plant.stage with
  | loading | addingCycles | counting | addingFrame | looking =>
    rw [hstage] at h
    rw [h.1]
    rfl
  | _ => cases (plant.self me).activity <;> rfl

/-- What others do changes nothing that is tallied. -/
theorem Tally.beside (h : Tally pacing me first frames plant) (hwork : plant.IsAtWork build me)
    {move : YieldLock.Move Machine} {world : World Machine} {events : List (Event Machine)}
    (hmove : plant.world.move? build move = some (world, events))
    (hother : move.thread? ≠ some me)
    (hspares : sparesCounters plant.world.lock.value move = true) :
    Tally pacing me first frames { plant with world } := by
  have hkept := World.keepsWork_of_others hmove hwork.reachable (hwork.worker_eq h.isIn) hother
  refine h.congr h.isIn (counters_of_spared hmove hspares).1 hkept.yieldCalls hkept.windows
    h.draft ?_
  exact congrArg (place · plant.stage) (hwork.self_of_others h.isIn hmove hother)

end

section

variable {build : Build} {pacing : Pacing} {me : Thread} {first last : Plant}
  {beats : List Beat} {beat : Beat}

theorem Beat.toNat_endsFrame (hmove : beat.move = .loop) :
    beat.endsFrame.toNat = beat.before.stage.frames := by
  rw [endsFrame, hmove]
  cases beat.before.stage <;> rfl

theorem Beat.toNat_touches (hwork : beat.before.IsAtWork build me) (hmove : beat.move = .loop) :
    (beat.touches pacing me).toNat = beat.before.stage.touches := by
  rw [touches, hmove]
  exact touches_moveOfLoop? hwork.loopsAt

theorem Beat.move_of_touches (h : beat.touches pacing me = true) : beat.move = .loop := by
  unfold touches at h
  split at h
  · assumption
  · cases h

/-- The loop reaches for the machine while its session runs, in a frame and right after it. -/
theorem Beat.of_touches (hwork : beat.before.IsAtWork build me)
    (h : beat.touches pacing me = true) :
    (beat.before.self me).Runs ∧ (beat.before.stage = .loading ∨
      isInFrame beat.before.stage = true ∨ beat.before.stage = .looking) := by
  have hreaches : (beat.touches pacing me).toNat = beat.before.stage.touches :=
    toNat_touches hwork (move_of_touches h)
  have hloops := hwork.loopsAt
  rw [h] at hreaches
  cases hstage : beat.before.stage with
  | loading =>
    rw [hstage] at hloops
    exact ⟨hloops, .inl rfl⟩
  | addingCycles | counting | addingFrame =>
    rw [hstage] at hloops
    exact ⟨hloops, .inr (.inl rfl)⟩
  | looking =>
    rw [hstage] at hloops
    exact ⟨hloops, .inr (.inr rfl)⟩
  | _ =>
    rw [hstage] at hreaches
    cases hreaches

/-- In a course from where the loop is entered the counters are tallied at every moment, until the
loop is over. -/
theorem Course.tally {number : Nat} (course : Course build pacing me first beats last)
    (hwork : first.IsAtWork build me) (hstage : first.stage = .loading)
    (hstart : Tally pacing me number 0 first)
    (hup : ∀ beat ∈ beats, beat.before.CountsUp beat.after) :
    last.stage.isOver = true ∨
      Tally pacing me number (beats.countP Beat.endsFrame) last ∧
        beats.countP (Beat.touches pacing me) + last.stage.touchesDue =
          5 * (beats.countP Beat.endsFrame + last.stage.framesDue) := by
  induction course with
  | nil => exact .inr ⟨hstart, by rw [hstage]; rfl⟩
  | @snoc beats beat course hhappens ih =>
    have hwork := course.isAtWork hwork
    have hcounts := hup beat (by simp)
    obtain hover | ⟨htally, hdue⟩ := ih fun beat hmem ↦ hup beat (List.mem_append_left _ hmem)
    · exact .inl ((happens_of_move? hhappens).isOver hwork hover)
    · rw [List.countP_append, List.countP_append, Beat.countP_singleton, Beat.countP_singleton]
      cases hmove : beat.move with
      | loop =>
        rw [Beat.Happens, hmove] at hhappens
        rw [Beat.toNat_endsFrame hmove, Beat.toNat_touches hwork hmove]
        have hstride := stride hhappens hwork.loopsAt
        obtain hover | ⟨hin, hsteps⟩ := hstride.due htally.isIn
        · exact .inl hover
        · exact .inr ⟨hstride.tally htally hcounts hin, by omega⟩
      | launch =>
        rw [Beat.Happens, hmove] at hhappens
        have hbefore := htally.isIn
        rw [(of_move?_launch hhappens).1] at hbefore
        cases hbefore
      | beside move =>
        rw [Beat.Happens, hmove] at hhappens
        obtain ⟨hfree, hspares, world, events, hmade, hafter⟩ := of_move?_beside hhappens
        have hother := hfree.resolve_right (by rw [htally.isIn]; nofun)
        have hquiet : beat.endsFrame = false ∧ beat.touches pacing me = false := by
          rw [Beat.endsFrame, Beat.touches, hmove]
          exact ⟨rfl, rfl⟩
        rw [hquiet.1, hquiet.2, hafter]
        exact .inr ⟨htally.beside hwork hmade hother hspares, hdue⟩

/-- The loop that does not reach for the machine leaves it as it is. -/
theorem Beat.Happens.value_of_untouched (h : beat.Happens build pacing me)
    (hwork : beat.before.IsAtWork build me) (hmove : beat.move = .loop)
    (huntouched : beat.touches pacing me = false) :
    beat.after.world.lock.value = beat.before.world.lock.value := by
  rw [Beat.Happens, hmove] at h
  apply (stride h hwork.loopsAt).value_eq
  have hnone : (beat.touches pacing me).toNat = beat.before.stage.touches :=
    toNat_touches hwork hmove
  rw [huntouched] at hnone
  cases hstage : beat.before.stage with
  | addingCycles | counting | addingFrame =>
    rw [hstage] at hnone
    cases hnone
  | _ => rfl

/-- A loop that is over reaches for the machine no more. -/
theorem Course.touches_of_isOver (course : Course build pacing me first beats last)
    (hwork : first.IsAtWork build me) (hover : first.stage.isOver = true) (hmem : beat ∈ beats) :
    beat.touches pacing me = false := by
  obtain ⟨_, _, hcourse, _⟩ := course.exists_of_mem hmem
  have hlater := hcourse.isOver hwork hover
  apply Bool.eq_false_iff.mpr
  intro htouches
  have hstage := (Beat.of_touches (hcourse.isAtWork hwork) htouches).2
  cases hcase : beat.before.stage with
  | leaving | ended =>
    rw [hcase] at hstage
    obtain hother | hother | hother := hstage <;> cases hother
  | _ =>
    rw [hcase] at hlater
    cases hlater

/-- When nothing has been counted, the tally begins with the loop. -/
theorem tally_of_entry (hstage : first.stage = .loading)
    (hyields : first.world.lock.stats.yieldCalls = 0)
    (hwindows : first.world.lock.stats.windows = 0) :
    Tally pacing me first.world.lock.value.frame.toNat 0 first where
  isIn := by rw [hstage]; rfl
  frame := rfl
  draft := by rw [hstage]; trivial
  pos := by rw [hstage]; exact fun hplace ↦ absurd rfl hplace
  account := by rw [hstage, hyields, hwindows]; exact ⟨rfl, rfl⟩

/-- A loop that returns owes no frame, and does not reach for the machine in that step. -/
theorem Leaves.spent (h : Leaves me plant next) :
    plant.stage.isOver = false ∧ plant.stage.frames = 0 ∧ plant.stage.touches = 0 ∧
      plant.stage.touchesDue = 0 ∧ plant.stage.framesDue = 0 := by
  obtain ⟨⟨window, hstage⟩, _⟩ | ⟨hstage, _⟩ := h.stage
  all_goals
    rw [hstage]
    exact ⟨rfl, rfl, rfl, rfl, rfl⟩

/-- The exit of the loop tells what is tallied. -/
theorem Leaves.tallies {plant next : Plant} {number frames : Nat} (h : Leaves me plant next)
    (htally : Tally pacing me number frames plant) :
    1 ≤ frames ∧ ∃ exit : MachineLoop.Exit, plant.stage = exit.stage ∧
      exit.Tallies pacing number frames next.world.lock.stats.yieldCalls.toNat
        next.world.lock.stats.windows.toNat := by
  have haccount := htally.account
  have hpos := htally.pos
  have hcalls := pacing.hostCalls_add number frames
  rw [h.keeps.2]
  obtain ⟨⟨window, hstage⟩, hends⟩ | ⟨hstage, _, _, hbusy⟩ := h.stage
  · rw [hstage, place_closing_of_ends window hends] at haccount hpos
    refine ⟨hpos nofun, .window window, hstage, ?_⟩
    cases window with
    | host =>
      obtain ⟨_, hyields, hwindows, hhosts⟩ := haccount
      exact ⟨hhosts, by omega, by omega⟩
    | frame =>
      obtain ⟨_, hyields, hwindows⟩ := haccount
      exact ⟨by omega, by omega⟩
  · rw [hstage, place_yielding_of_busy hbusy] at haccount hpos
    obtain ⟨_, hyields, hwindows⟩ := haccount
    exact ⟨hpos nofun, .yield, hstage, by omega, by omega⟩

end

end Plant

open Plant in
/-- A loop that is entered by a worker with a running session, when no yield and no window has been
counted, has counted when it returns what its exit says: a host call of the last frame comes before
the rest after it, and that before the yield. The loop has executed a frame at least, and it reaches
for the machine in its frames and once after each, and never once it was told to exit. -/
theorem exact_counts_of_return {build : Build} {pacing : Pacing} {me : Thread}
    {first last : Plant} {beats : List Plant.Beat} {exiting : Plant.Beat}
    (hreach : YieldLock.Reachable build first.world) (hstage : first.stage = .loading)
    (hruns : (first.self me).Runs) (hyields : first.world.lock.stats.yieldCalls = 0)
    (hwindows : first.world.lock.stats.windows = 0)
    (course : Course build pacing me first (beats ++ [exiting]) last)
    (hreturns : exiting.Returns)
    (hup : ∀ beat ∈ beats ++ [exiting], beat.before.CountsUp beat.after) :
    let number := first.world.lock.value.frame.toNat
    let frames := (beats ++ [exiting]).countP Plant.Beat.endsFrame
    1 ≤ frames ∧
    last.world.lock.value.frame.toNat = number + frames ∧
    (last.self me).session = some { phase := .terminated, holds := false } ∧
    (∃! exit : MachineLoop.Exit, exiting.before.stage = exit.stage ∧
      exit.Tallies pacing number frames last.world.lock.stats.yieldCalls.toNat
        last.world.lock.stats.windows.toNat) ∧
    (beats ++ [exiting]).countP (Plant.Beat.touches pacing me) = 5 * frames ∧
    (∀ beat ∈ beats ++ [exiting],
      (beat.touches pacing me = true → (beat.before.self me).Runs ∧
        (beat.before.stage = .loading ∨ isInFrame beat.before.stage = true ∨
          beat.before.stage = .looking)) ∧
      (beat.move = .loop → beat.touches pacing me = false →
        beat.after.world.lock.value = beat.before.world.lock.value)) ∧
    (∀ later final, Course build pacing me last later final →
      ∀ beat ∈ later, beat.touches pacing me = false) := by
  intro number frames
  have hwork : first.IsAtWork build me := ⟨hreach, by rw [hstage]; exact hruns⟩
  obtain ⟨hearlier, hhappens, rfl⟩ := course.of_snoc
  have hbefore := hearlier.isAtWork hwork
  obtain ⟨hmove, hleaves⟩ := hhappens.leaves hbefore hreturns
  obtain ⟨hin, hframes, htouches, htouchesDue, hframesDue⟩ := hleaves.spent
  have hlast : frames = beats.countP Plant.Beat.endsFrame := by
    change List.countP _ _ = _
    rw [List.countP_append, Plant.Beat.countP_singleton, Plant.Beat.toNat_endsFrame hmove, hframes,
      Nat.add_zero]
  obtain hover | ⟨htally, hdue⟩ := hearlier.tally hwork hstage
    (tally_of_entry hstage hyields hwindows) fun beat hmem ↦ hup beat (List.mem_append_left _ hmem)
  · cases hover.symm.trans hin
  rw [← hlast] at htally hdue
  obtain ⟨hpos, exit, hexit, htallies⟩ := hleaves.tallies htally
  refine ⟨hpos, ?_, hleaves.session, ⟨exit, ⟨hexit, htallies⟩, ?_⟩, ?_, ?_, ?_⟩
  · rw [hleaves.keeps.1, htally.frame]
  · rintro other ⟨hother, _⟩
    exact MachineLoop.Exit.stage_inj (hother.symm.trans hexit)
  · rw [List.countP_append, Plant.Beat.countP_singleton,
      Plant.Beat.toNat_touches hbefore hmove, htouches]
    omega
  · intro beat hmem
    obtain ⟨_, _, hcourse, hbeat⟩ := course.exists_of_mem hmem
    have hwork := hcourse.isAtWork hwork
    exact ⟨Plant.Beat.of_touches hwork, hbeat.value_of_untouched hwork⟩
  · intro later final hcourse beat hmem
    exact hcourse.touches_of_isOver (course.isAtWork hwork) (by rw [hreturns.2]; rfl) hmem

open Plant in
/-- A loop that is entered on a machine that has run five frames, with a host call every three, is
told to exit at the rest after its second frame. -/
theorem exact_counts_of_second_rest :
    ∃ (pacing : Pacing) (first last : Plant) (beats : List Plant.Beat) (exiting : Plant.Beat),
      Course .checked pacing "worker" first (beats ++ [exiting]) last ∧ exiting.Returns ∧
      first.world.lock.value.frame = 5 ∧ exiting.before.stage = .closing .frame ∧
      (beats ++ [exiting]).countP Plant.Beat.endsFrame = 2 ∧
      last.world.lock.value.frame.toNat = 5 + 2 ∧
      (∃! exit : MachineLoop.Exit, exiting.before.stage = exit.stage ∧
        exit.Tallies pacing 5 2 last.world.lock.stats.yieldCalls.toNat
          last.world.lock.stats.windows.toNat) ∧
      last.world.lock.stats.windows = 3 ∧
      (beats ++ [exiting]).countP (Plant.Beat.touches pacing "worker") = 5 * 2 := by
  let pacing : Pacing := ⟨.zero, 3, .zero⟩
  let start : World Machine := { lock := .standard .checked { frame := 5 } }
  let moves : List Plant.Move :=
    List.replicate 22 .loop ++ .beside (.call "main" .requestShutdown) :: List.replicate 5 .loop
  have hplay : ∃ adopted ∈ start.play? .checked [.call "worker" .adopt, .step "worker"],
      (adopted.2.thread "worker").activity = .idle ∧
      (adopted.2.thread "worker").session = some {} ∧
      adopted.2.lock.stats.yieldCalls = 0 ∧ adopted.2.lock.stats.windows = 0 ∧
      adopted.2.lock.value.frame = 5 ∧
      ∃ played ∈ Plant.course? .checked pacing "worker" ⟨adopted.2, .loading⟩ moves,
      ∃ last ∈ played.2.move? .checked pacing "worker" .loop,
        (∀ beat ∈ played.1 ++ [(⟨played.2, .loop, last⟩ : Plant.Beat)],
          beat.before.CountsUp beat.after) ∧
        played.2.stage = .closing .frame ∧ last.stage = .leaving none ∧
        (played.1 ++ [(⟨played.2, .loop, last⟩ : Plant.Beat)]).countP Plant.Beat.endsFrame = 2 ∧
        last.world.lock.stats.windows = 3 := by
    decide +kernel
  obtain ⟨⟨turns, world⟩, hturns, hidle, hsession, hyields, hwindows, hfive, ⟨beats, middle⟩,
    hbeats, last, hlast, hup, hstage, hleaving, htwo, hthree⟩ := hplay
  have hreach : YieldLock.Reachable .checked world :=
    (run_of_play? hturns).reachable ⟨.standard .checked ({ frame := 5 } : Machine), rfl⟩
  let first : Plant := ⟨world, .loading⟩
  let exiting : Plant.Beat := ⟨middle, .loop, last⟩
  have hruns : (first.self "worker").Runs := ⟨hidle, hsession⟩
  have hreturns : exiting.Returns := ⟨by rw [hstage]; nofun, hleaving⟩
  have course : Course .checked pacing "worker" first (beats ++ [exiting]) last :=
    Course.snoc (course_of_course? hbeats : Course _ _ _ _ _ exiting.before) hlast
  obtain ⟨_, hframe, _, hexit, htouches, _⟩ :=
    exact_counts_of_return hreach rfl hruns hyields hwindows course hreturns hup
  rw [htwo] at hframe hexit htouches
  have hnumber : first.world.lock.value.frame.toNat = 5 := by rw [hfive]; rfl
  rw [hnumber] at hframe hexit
  exact ⟨pacing, first, last, beats, exiting, course, hreturns, hfive, hstage, htwo, hframe, hexit,
    hthree, htouches⟩

end Demo

end YieldLock
