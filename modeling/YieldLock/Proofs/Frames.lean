import YieldLock.Proofs.Loop

/-!
# The counters of the machine

A frame is counted in two stores, between which the cycles are one frame ahead.
The loop owns the lock from the first to the second, so nobody else sees the
machine then, and a sum that is too large stops the frame before the first. Main
statements: `Plant.Reachable.counted`, how the counters stand at each stage, and
`machine_consistent_for_others`.
-/

namespace YieldLock

/-- What is written in a turn is written by a call. -/
theorem Turn.exists_of_written? {σ : Type} {turn : Turn σ} {value : σ}
    (h : turn.written? = some value) :
    ∃ name access, turn.move = .call name (.write access value) := by
  unfold written? at h
  split at h
  · rename_i name call hmove
    unfold Call.written? at h
    split at h
    · cases h
      exact ⟨name, _, hmove⟩
    · cases h
  · cases h

namespace Build

variable {build : Build} {left right : UInt64}

theorem eq_of_add_eq_ok {sum : UInt64} (h : build.add left right = .ok sum) :
    sum = left + right ∧
      (build.isChecked = true → left.toNat + right.toNat < UInt64.size) := by
  unfold add at h
  split at h
  · cases h
  · rename_i hfits
    cases h
    refine ⟨rfl, fun hchecked ↦ ?_⟩
    rw [hchecked, Bool.true_and, decide_eq_true_eq] at hfits
    exact Nat.lt_of_not_le hfits

theorem add_eq_error_iff {panic : Panic} : build.add left right = .error panic ↔
    panic = .overflow ∧ build.isChecked = true ∧
      UInt64.size ≤ left.toNat + right.toNat := by
  unfold add
  split
  · rename_i hlarge
    rw [Bool.and_eq_true, decide_eq_true_eq] at hlarge
    constructor
    · intro h
      cases h
      exact ⟨rfl, hlarge⟩
    · rintro ⟨rfl, _⟩
      rfl
  · rename_i hsmall
    rw [Bool.and_eq_true, decide_eq_true_eq] at hsmall
    constructor
    · intro h
      cases h
    · rintro ⟨_, hlarge⟩
      exact absurd hlarge hsmall

end Build

namespace Demo

namespace Machine

theorem toNat_cyclesPerFrame : cyclesPerFrame.toNat = 19656 := rfl

/-- The cycles are those of the frames that are counted and of some more, and if no sum was cut off
this is so without wrapping. -/
structure Tied (isExact : Bool) (ahead : UInt64) (machine : Machine) : Prop where
  wrapped : machine.cycles = cyclesPerFrame * (machine.frame + ahead)
  exact : isExact = true →
    machine.cycles.toNat = cyclesPerFrame.toNat * (machine.frame.toNat + ahead.toNat)

variable {build : Build} {isExact : Bool} {machine after : Machine}

theorem tied_default (isExact : Bool) : Tied isExact 0 {} where
  wrapped := rfl
  exact _ := rfl

/-- Only the counters matter. -/
theorem Tied.congr {ahead : UInt64} (h : machine.Tied isExact ahead)
    (hframe : after.frame = machine.frame) (hcycles : after.cycles = machine.cycles) :
    after.Tied isExact ahead where
  wrapped := by rw [hframe, hcycles, h.wrapped]
  exact hexact := by rw [hframe, hcycles, h.exact hexact]

theorem addCycles_eq_ok (h : machine.addCycles build = .ok after) :
    after = { machine with cycles := machine.cycles + cyclesPerFrame } ∧
      (build.isChecked = true →
        machine.cycles.toNat + cyclesPerFrame.toNat < UInt64.size) := by
  unfold addCycles at h
  cases hsum : build.add machine.cycles cyclesPerFrame with
  | error panic =>
    rw [hsum] at h
    cases h
  | ok cycles =>
    rw [hsum] at h
    cases h
    obtain ⟨rfl, hfits⟩ := Build.eq_of_add_eq_ok hsum
    exact ⟨rfl, hfits⟩

theorem countFrame_eq_ok (h : machine.countFrame build = .ok after) :
    after = { machine with frame := machine.frame + 1 } := by
  unfold countFrame at h
  cases hsum : build.add machine.frame 1 with
  | error panic =>
    rw [hsum] at h
    cases h
  | ok frame =>
    rw [hsum] at h
    cases h
    obtain ⟨rfl, _⟩ := Build.eq_of_add_eq_ok hsum
    rfl

theorem addCycles_eq_error_iff {panic : Panic} : machine.addCycles build = .error panic ↔
    panic = .overflow ∧ build.isChecked = true ∧
      UInt64.size ≤ machine.cycles.toNat + cyclesPerFrame.toNat := by
  rw [← Build.add_eq_error_iff, addCycles]
  cases build.add machine.cycles cyclesPerFrame with
  | ok cycles => exact ⟨nofun, nofun⟩
  | error other =>
    constructor
    · exact fun h ↦ congrArg Except.error (Except.error.inj h)
    · exact fun h ↦ congrArg Except.error (Except.error.inj h)

theorem countFrame_eq_error_iff {panic : Panic} : machine.countFrame build = .error panic ↔
    panic = .overflow ∧ build.isChecked = true ∧
      UInt64.size ≤ machine.frame.toNat + 1 := by
  rw [← UInt64.toNat_one, ← Build.add_eq_error_iff, countFrame]
  cases build.add machine.frame 1 with
  | ok frame => exact ⟨nofun, nofun⟩
  | error other =>
    constructor
    · exact fun h ↦ congrArg Except.error (Except.error.inj h)
    · exact fun h ↦ congrArg Except.error (Except.error.inj h)

/-- With the cycles of a frame the machine is one frame ahead. -/
theorem Tied.addCycles (h : machine.Tied isExact 0) (hok : machine.addCycles build = .ok after)
    (hexact : isExact = true → build.isChecked = true ∨
      machine.cycles.toNat + cyclesPerFrame.toNat < UInt64.size) : after.Tied isExact 1 := by
  obtain ⟨rfl, hfits⟩ := addCycles_eq_ok hok
  constructor
  · calc
      machine.cycles + cyclesPerFrame
        = cyclesPerFrame * (machine.frame + 0) + cyclesPerFrame := by rw [h.wrapped]
      _ = cyclesPerFrame * (machine.frame + 1) := by
        rw [UInt64.add_zero, UInt64.mul_add, UInt64.mul_one]
  · intro hyes
    have hsmall := (hexact hyes).elim hfits id
    calc
      (machine.cycles + cyclesPerFrame).toNat
        = machine.cycles.toNat + cyclesPerFrame.toNat := by
          rw [UInt64.toNat_add, Nat.mod_eq_of_lt hsmall]
      _ = cyclesPerFrame.toNat * (machine.frame.toNat + 0) + cyclesPerFrame.toNat := by
        rw [h.exact hyes]
        rfl
      _ = cyclesPerFrame.toNat * (machine.frame.toNat + (1 : UInt64).toNat) := rfl

/-- The frame counter is small enough that the cycles are, so it can be counted up. -/
theorem Tied.frame_lt {ahead : UInt64} (h : machine.Tied true ahead) :
    cyclesPerFrame.toNat * (machine.frame.toNat + ahead.toNat) < UInt64.size := by
  rw [← h.exact rfl]
  exact machine.cycles.toNat_lt

theorem Tied.frame_succ_lt (h : machine.Tied true 1) : machine.frame.toNat + 1 < UInt64.size := by
  have hlt := h.frame_lt
  rw [toNat_cyclesPerFrame, UInt64.toNat_one] at hlt
  omega

/-- A further frame is too much for the cycles exactly after the last frame whose cycles fit. -/
theorem Tied.frame_eq_iff (h : machine.Tied true 0) :
    machine.frame.toNat = (UInt64.size - 1) / 19656 ↔
      UInt64.size ≤ machine.cycles.toNat + cyclesPerFrame.toNat := by
  have hcycles := h.exact rfl
  have hlt := machine.cycles.toNat_lt
  have hsize : UInt64.size = 2 ^ 64 := rfl
  rw [toNat_cyclesPerFrame] at hcycles ⊢
  change machine.cycles.toNat = 19656 * machine.frame.toNat at hcycles
  rw [hsize]
  omega

/-- Once the frame is counted the counters agree again. -/
theorem Tied.countFrame (h : machine.Tied isExact 1)
    (hok : machine.countFrame build = .ok after) : after.Tied isExact 0 := by
  obtain rfl := countFrame_eq_ok hok
  constructor
  · calc
      machine.cycles = cyclesPerFrame * (machine.frame + 1) := h.wrapped
      _ = cyclesPerFrame * (machine.frame + 1 + 0) := by rw [UInt64.add_zero]
  · intro hyes
    subst hyes
    have hframe : (machine.frame + 1).toNat = machine.frame.toNat + 1 := by
      rw [toNat_add_one h.frame_succ_lt]
    calc
      machine.cycles.toNat = cyclesPerFrame.toNat * (machine.frame.toNat + 1) := h.exact rfl
      _ = cyclesPerFrame.toNat * ((machine.frame + 1).toNat + (0 : UInt64).toNat) := by
        rw [hframe]
        rfl

end Machine

namespace Plant

/-- The sum that the loop is about to work out is too large for a word. -/
def Overflows (plant : Plant) : Prop :=
  plant.stage = .loading ∧
      UInt64.size ≤ plant.world.lock.value.cycles.toNat + Machine.cyclesPerFrame.toNat ∨
    plant.stage = .counting ∧ UInt64.size ≤ plant.world.lock.value.frame.toNat + 1

/-- How the counters stand at a stage of the loop, those of the machine that is guarded and those
of the machine that is about to be stored. -/
def Counted (isExact : Bool) (machine : Machine) : MachineLoop.Stage → Prop
  | .addingCycles after =>
    machine.Tied isExact 0 ∧ after.Tied isExact 1 ∧ after.frame = machine.frame
  | .counting => machine.Tied isExact 1
  | .addingFrame after =>
    machine.Tied isExact 1 ∧ after.Tied isExact 0 ∧ after.frame = machine.frame + 1
  | _ => machine.Tied isExact 0

/-- The stages from the first sum of a frame to its last store. -/
def isInFrame : MachineLoop.Stage → Bool
  | .addingCycles _ | .counting | .addingFrame _ => true
  | _ => false

section

variable {build : Build} {pacing : Pacing} {me : Thread} {plant next : Plant} {isExact : Bool}
  {machine after : Machine} {stage : MachineLoop.Stage}

/-- Between frames the counters agree. -/
theorem counted_iff_tied (hstage : isInFrame stage = false) :
    Counted isExact machine stage ↔ machine.Tied isExact 0 := by
  cases stage with
  | addingCycles | counting | addingFrame => cases hstage
  | _ => exact Iff.rfl

/-- Only the counters of the machine that is guarded matter. -/
theorem Counted.congr (h : Counted isExact machine stage) (hframe : after.frame = machine.frame)
    (hcycles : after.cycles = machine.cycles) : Counted isExact after stage := by
  cases stage with
  | addingCycles | addingFrame =>
    exact ⟨h.1.congr hframe hcycles, h.2.1, by rw [hframe]; exact h.2.2⟩
  | _ => exact Machine.Tied.congr h hframe hcycles

theorem Counted.exists_tied (h : Counted isExact machine stage) :
    ∃ ahead, machine.Tied isExact ahead := by
  cases stage with
  | addingCycles => exact ⟨0, h.1⟩
  | counting => exact ⟨1, h⟩
  | addingFrame => exact ⟨1, h.1⟩
  | _ => exact ⟨0, h⟩

theorem isInFrame_of_isOut (hstage : stage.isOut = true) : isInFrame stage = false := by
  cases stage with
  | addingCycles | counting | addingFrame => cases hstage
  | _ => rfl

/-- A step from a stage between frames to another one leaves the counters alone. -/
theorem Counted.of_kept (h : Counted isExact plant.world.lock.value plant.stage)
    (hvalue : next.world.lock.value = plant.world.lock.value)
    (hstage : isInFrame plant.stage = false) (hnext : isInFrame next.stage = false) :
    Counted isExact next.world.lock.value next.stage := by
  rw [counted_iff_tied hstage] at h
  rwa [counted_iff_tied hnext, hvalue]

theorem Counted.of_loading (h : machine.Tied isExact 0)
    (hexact : isExact = true → build.isChecked = true ∨
      machine.cycles.toNat + Machine.cyclesPerFrame.toNat < UInt64.size) :
    Counted isExact machine (MachineLoop.answered build pacing .loading (.value machine)) := by
  rw [MachineLoop.answered]
  cases hsum : machine.addCycles build with
  | ok after =>
    refine ⟨h, h.addCycles hsum hexact, ?_⟩
    rw [(Machine.addCycles_eq_ok hsum).1]
  | error panic => exact h

/-- A frame that has its cycles is counted, because its number is smaller than they are. -/
theorem Counted.of_counting (h : machine.Tied isExact 1)
    (hchecked : build.isChecked = true → isExact = true) :
    Counted isExact machine (MachineLoop.answered build pacing .counting (.value machine)) := by
  rw [MachineLoop.answered]
  cases hsum : machine.countFrame build with
  | ok after =>
    refine ⟨h, h.countFrame hsum, ?_⟩
    rw [Machine.countFrame_eq_ok hsum]
  | error panic =>
    obtain ⟨_, hyes, hlarge⟩ := Machine.countFrame_eq_error_iff.mp hsum
    obtain rfl := hchecked hyes
    exact absurd h.frame_succ_lt (Nat.not_lt.mpr hlarge)

/-- A step of the loop keeps the account of the counters, as long as no sum is cut off that is to
be exact. -/
theorem Stride.counted (h : Stride build pacing me plant next) (hsound : (plant.self me).IsSound)
    (hchecked : build.isChecked = true → isExact = true)
    (hexact : isExact = true → build.isChecked = true ∨ ¬plant.Overflows)
    (hcounted : Counted isExact plant.world.lock.value plant.stage) :
    Counted isExact next.world.lock.value next.stage := by
  cases h with
  | start hstage hstarts hsteps =>
    apply hcounted.of_kept hsteps.value_eq (by rw [hstage]; rfl)
    obtain ⟨hnext, _⟩ | ⟨hnext, _⟩ | ⟨hnext, _⟩ := hsteps.of_starting hsound hstage hstarts
    all_goals
      rw [hnext]
      rfl
  | compute hstage hlock _ hnext =>
    rw [hnext, hlock]
    obtain hstage | hstage | hstage := hstage
    · rw [hstage] at hcounted ⊢
      apply Counted.of_loading hcounted
      intro hyes
      refine (hexact hyes).imp_right fun hsmall ↦ ?_
      exact Nat.lt_of_not_le fun hlarge ↦ hsmall (.inl ⟨hstage, hlarge⟩)
    · rw [hstage] at hcounted ⊢
      exact Counted.of_counting hcounted hchecked
    · rw [hstage] at hcounted ⊢
      rw [MachineLoop.answered]
      split <;> exact hcounted
  | store machine hstage hlock =>
    obtain ⟨hstage, hnext⟩ | ⟨hstage, hnext⟩ := hstage
    all_goals
      rw [hstage] at hcounted
      rw [hnext, hlock]
      exact hcounted.2.1
  | announce hstage hworld _ hnext | rest hstage hworld _ hnext =>
    apply hcounted.of_kept (by rw [hworld]) (by rw [hstage]; rfl)
    rw [hnext]
    rfl
  | openWindow hstage hkept _ hnext | approach hstage _ hkept _ hnext =>
    apply hcounted.of_kept hkept.1 (by rw [hstage]; rfl)
    rw [hnext]
    rfl
  | @closeWindow window hstage _ hvalue _ hnext =>
    apply hcounted.of_kept hvalue (by rw [hstage]; rfl)
    obtain ⟨hnext, _⟩ | ⟨hnext, _⟩ := hnext
    · rw [hnext]
      cases window <;> rfl
    · rw [hnext]
      rfl
  | beginYield hstage _ hvalue _ _ hnext | handOver hstage _ hvalue _ _ hnext =>
    apply hcounted.of_kept hvalue (by rw [hstage]; rfl)
    rw [hnext]
    rfl
  | await hstage _ hkept _ hnext | proceed hstage _ hkept _ hnext =>
    apply hcounted.of_kept hkept.1 (by rw [hstage]; rfl)
    rw [hnext]
    rfl
  | exit hstage _ hkept hnext =>
    have hbefore : isInFrame plant.stage = false := by
      obtain ⟨_, window, hstage⟩ | ⟨_, hstage⟩ := hstage
      all_goals
        rw [hstage]
        rfl
    apply hcounted.of_kept hkept.1 hbefore
    obtain ⟨hnext, _⟩ | ⟨hnext, _⟩ := hnext
    · rw [hnext, hbefore]
    · rw [hnext]
      rfl
  | fail panic hstage _ hvalue _ _ hnext =>
    refine hcounted.of_kept hvalue ?_ (by rw [hnext]; rfl)
    obtain ⟨window, hstage | hstage⟩ | hstage := hstage
    all_goals
      rw [hstage]
      rfl
  | leave hstage hcall hsteps =>
    obtain ⟨hvalue, hnext⟩ := hsteps.of_leaving hstage hcall
    apply hcounted.of_kept hvalue (by rw [hstage]; rfl)
    obtain hnext | hnext := hnext
    all_goals
      rw [hnext]
      rfl

/-- A move that spares the counters leaves them as they are. -/
theorem counters_of_spared {move : YieldLock.Move Machine} {world after : World Machine}
    {events : List (Event Machine)} (hmove : world.move? build move = some (after, events))
    (hspares : sparesCounters world.lock.value move = true) :
    after.lock.value.frame = world.lock.value.frame ∧
      after.lock.value.cycles = world.lock.value.cycles := by
  let turn : Turn Machine := ⟨world, move, after, events⟩
  have hturn : turn.IsMove build := hmove
  have hvalue : after.lock.value = turn.written?.getD world.lock.value := hturn.value_eq
  cases hwritten : turn.written? with
  | none =>
    rw [hvalue, hwritten]
    exact ⟨rfl, rfl⟩
  | some machine =>
    obtain ⟨name, access, hwrites⟩ := Turn.exists_of_written? hwritten
    obtain rfl : move = .call name (.write access machine) := hwrites
    rw [hvalue, hwritten]
    rw [sparesCounters, Bool.and_eq_true, decide_eq_true_eq, decide_eq_true_eq] at hspares
    exact hspares

theorem Happens.counted (h : Happens build pacing me plant next)
    (hsound : (plant.self me).IsSound) (hloops : LoopsAt (plant.self me) plant.stage)
    (hchecked : build.isChecked = true → isExact = true)
    (hexact : plant.loop? build pacing me = some next → isExact = true →
      build.isChecked = true ∨ ¬plant.Overflows)
    (hcounted : Counted isExact plant.world.lock.value plant.stage) :
    Counted isExact next.world.lock.value next.stage := by
  cases h with
  | loop hloop => exact (stride hloop hloops).counted hsound hchecked (hexact hloop) hcounted
  | launch hstage =>
    rw [hstage] at hcounted
    exact hcounted
  | beside hmove _ hspares =>
    obtain ⟨hframe, hcycles⟩ := counters_of_spared hmove hspares
    exact hcounted.congr hframe hcycles

/-- In a checked build the counters are exact, and in an unchecked build they agree up to
wrapping. -/
theorem Reachable.counted (h : Reachable build pacing me plant) :
    Counted build.isChecked plant.world.lock.value plant.stage := by
  induction h with
  | new _ hvalue =>
    rw [hvalue]
    exact Machine.tied_default _
  | move h _ hmove ih =>
    exact (happens_of_move? hmove).counted (h.world.fits me).sound h.loopsAt id (fun _ ↦ .inl) ih

/-- While a frame is under way the loop owns the lock. -/
theorem Reachable.depth_pos (h : Reachable build pacing me plant)
    (hstage : isInFrame plant.stage = true) : 0 < plant.world.lock.mutex.depth me := by
  have hruns : (plant.self me).Runs := by
    have hloops := h.loopsAt
    cases hcase : plant.stage with
    | addingCycles | counting | addingFrame => rwa [hcase] at hloops
    | _ =>
      rw [hcase] at hstage
      cases hstage
  have hlevels := ThreadState.levels_of_holds hruns.2 rfl (by rw [hruns.1]; rfl)
  rw [(h.world.fits me).depth]
  exact Nat.lt_of_lt_of_eq (Nat.succ_pos _) hlevels.symm

/-- Between frames the loop leaves the machine alone. -/
theorem Stride.value_eq (h : Stride build pacing me plant next)
    (hstage : isInFrame plant.stage = false) :
    next.world.lock.value = plant.world.lock.value := by
  cases h with
  | start _ _ hsteps => exact hsteps.value_eq
  | compute _ hlock => rw [hlock]
  | store machine hadding =>
    obtain ⟨hadding, _⟩ | ⟨hadding, _⟩ := hadding
    all_goals
      rw [hadding] at hstage
      cases hstage
  | announce _ hworld | rest _ hworld => rw [hworld]
  | openWindow _ hkept | approach _ _ hkept | await _ _ hkept | proceed _ _ hkept
  | exit _ _ hkept => exact hkept.1
  | closeWindow _ _ hvalue | beginYield _ _ hvalue | handOver _ _ hvalue | fail _ _ _ hvalue =>
    exact hvalue
  | leave hleaving hcall hsteps => exact (hsteps.of_leaving hleaving hcall).1

/-- Of all sums that the loop works out only that of the cycles can be too large. -/
theorem Stride.of_overflow (h : Stride build pacing me plant next)
    (hsound : (plant.self me).IsSound)
    (hcounted : Counted build.isChecked plant.world.lock.value plant.stage)
    (hbefore : plant.stage ≠ .leaving (some .overflow))
    (hnext : next.stage = .leaving (some .overflow)) :
    plant.stage = .loading ∧ build.isChecked = true ∧ next.world.lock = plant.world.lock ∧
      UInt64.size ≤ plant.world.lock.value.cycles.toNat + Machine.cyclesPerFrame.toNat := by
  cases h with
  | start hstage hstarts hsteps =>
    obtain ⟨hother, _⟩ | ⟨hother, _⟩ | ⟨hother, _⟩ := hsteps.of_starting hsound hstage hstarts
    all_goals cases hother.symm.trans hnext
  | compute hstage hlock _ hcomputed =>
    rw [hnext] at hcomputed
    obtain hstage | hstage | hstage := hstage
    · rw [hstage, MachineLoop.answered] at hcomputed
      cases hsum : plant.world.lock.value.addCycles build with
      | ok after =>
        rw [hsum] at hcomputed
        cases hcomputed
      | error panic =>
        obtain ⟨_, hyes, hlarge⟩ := Machine.addCycles_eq_error_iff.mp hsum
        exact ⟨hstage, hyes, hlock, hlarge⟩
    · -- The frame is smaller than the cycles, which have been added without a panic.
      rw [hstage] at hcounted hcomputed
      rw [MachineLoop.answered] at hcomputed
      cases hsum : plant.world.lock.value.countFrame build with
      | ok after =>
        rw [hsum] at hcomputed
        cases hcomputed
      | error panic =>
        obtain ⟨_, hyes, hlarge⟩ := Machine.countFrame_eq_error_iff.mp hsum
        rw [hyes] at hcounted
        exact absurd (Machine.Tied.frame_succ_lt hcounted) (Nat.not_lt.mpr hlarge)
    · rw [hstage, MachineLoop.answered] at hcomputed
      split at hcomputed <;> cases hcomputed
  | store machine hstage =>
    obtain ⟨_, hother⟩ | ⟨_, hother⟩ := hstage
    all_goals cases hother.symm.trans hnext
  | announce _ _ _ hother | openWindow _ _ _ hother | rest _ _ _ hother | approach _ _ _ _ hother
  | beginYield _ _ _ _ _ hother | handOver _ _ _ _ _ hother | await _ _ _ _ hother
  | proceed _ _ _ _ hother => cases hother.symm.trans hnext
  | @closeWindow window _ _ _ _ hother =>
    obtain ⟨hother, _⟩ | ⟨hother, _⟩ := hother
    · cases window <;> cases hother.symm.trans hnext
    · cases hother.symm.trans hnext
  | exit _ _ _ hother =>
    obtain ⟨hother, _⟩ | ⟨hother, _⟩ := hother
    · exact absurd (hother.symm.trans hnext) hbefore
    · cases hother.symm.trans hnext
  | fail panic _ hpanic _ _ _ hother =>
    cases hother.symm.trans hnext
    exact absurd rfl hpanic
  | leave hstage hcall hsteps =>
    obtain ⟨_, hother | hother⟩ := hsteps.of_leaving hstage hcall
    · rw [hstage, ← hother] at hbefore
      exact absurd hnext hbefore
    · cases hother.symm.trans hnext

end

end Plant

/-- Whenever a thread other than the loop's owns the lock, and once the loop is over, the cycles are
those of the frames that are counted: exactly in a checked build, and up to wrapping in an unchecked
one. In a checked build the frame counter never comes near its limit. The one sum that can be too
large is that of the cycles, in the frame after the last whose cycles fit into a word, and it leaves
the machine as it was. -/
theorem machine_consistent_for_others {build : Build} {pacing : Pacing} {me : Thread}
    {plant : Plant} (h : Plant.Reachable build pacing me plant) :
    ((∃ other, other ≠ me ∧ plant.world.lock.mutex.isHeldBy other = true) ∨
        plant.stage.isOut = true →
      plant.world.lock.value.cycles = 19656 * plant.world.lock.value.frame ∧
      (build.isChecked = true →
        plant.world.lock.value.cycles.toNat = 19656 * plant.world.lock.value.frame.toNat)) ∧
    (build.isChecked = true →
      plant.world.lock.value.frame.toNat ≤ (UInt64.size - 1) / 19656) ∧
    (∀ next, plant.loop? build pacing me = some next →
      plant.stage ≠ .leaving (some .overflow) → next.stage = .leaving (some .overflow) →
      build.isChecked = true ∧ plant.stage = .loading ∧
      plant.world.lock.value.frame.toNat = (UInt64.size - 1) / 19656 ∧
      next.world.lock.value = plant.world.lock.value) ∧
    (build.isChecked = true → plant.stage = .loading →
      plant.world.lock.value.frame.toNat = (UInt64.size - 1) / 19656 →
      ∀ next, plant.loop? build pacing me = some next →
        next.stage = .leaving (some .overflow)) := by
  have hcounted := h.counted
  have hsound := (h.world.fits me).sound
  refine ⟨fun hseen ↦ ?_, fun hchecked ↦ ?_, ?_, ?_⟩
  · have hbetween : Plant.isInFrame plant.stage = false := by
      apply Bool.eq_false_iff.mpr
      intro hframe
      obtain ⟨other, hother, hheld⟩ | hout := hseen
      · exact hother (Mutex.depth_pos_unique (of_decide_eq_true hheld) (h.depth_pos hframe))
      · exact absurd hframe (by rw [Plant.isInFrame_of_isOut hout]; nofun)
    have htied := (Plant.counted_iff_tied hbetween).mp hcounted
    refine ⟨?_, htied.exact⟩
    calc
      plant.world.lock.value.cycles
        = Machine.cyclesPerFrame * (plant.world.lock.value.frame + 0) := htied.wrapped
      _ = 19656 * plant.world.lock.value.frame := by rw [UInt64.add_zero, Machine.cyclesPerFrame]
  · rw [hchecked] at hcounted
    obtain ⟨ahead, htied⟩ := hcounted.exists_tied
    have hlt := htied.frame_lt
    rw [Machine.toNat_cyclesPerFrame] at hlt
    omega
  · intro next hloop hbefore hnext
    obtain ⟨hstage, hchecked, hlock, hlarge⟩ :=
      (Plant.stride hloop h.loopsAt).of_overflow hsound hcounted hbefore hnext
    refine ⟨hchecked, hstage, ?_, by rw [hlock]⟩
    rw [hchecked, hstage] at hcounted
    exact (Machine.Tied.frame_eq_iff hcounted).mpr hlarge
  · intro hchecked hstage hframe next hloop
    rw [hchecked, hstage] at hcounted
    have hlarge := (Machine.Tied.frame_eq_iff hcounted).mp hframe
    have hsum := Machine.addCycles_eq_error_iff.mpr ⟨rfl, hchecked, hlarge⟩
    rw [(Plant.stride hloop h.loopsAt).stage_of_loading hstage, hsum]
    rfl

/-- A controller that acquires the lock while the loop rests after its first frame sees the cycles
of one frame. -/
theorem machine_consistent_in_first_rest :
    ∃ (pacing : Pacing) (plant : Plant), Plant.Reachable .checked pacing "worker" plant ∧
      plant.world.lock.mutex.isHeldBy "main" = true ∧ plant.world.lock.value.frame = 1 ∧
      plant.world.lock.value.cycles.toNat = 19656 ∧
      plant.world.lock.value.frame.toNat ≤ (UInt64.size - 1) / 19656 := by
  let pacing : Pacing := ⟨.zero, 0, .zero⟩
  let start : World Machine := { lock := .standard .checked {} }
  let moves : List Plant.Move :=
    [.beside (.call "main" (.spawn "worker")), .loop, .loop, .loop, .loop, .loop, .loop, .loop,
      .loop, .beside (.call "main" .acquire), .beside (.step "main")]
  have hnew : Plant.Reachable .checked pacing "worker" { world := start } :=
    .new ⟨.standard .checked ({} : Machine), rfl⟩ rfl
  have hplay : ∃ plant ∈ Plant.play? .checked pacing "worker" { world := start } moves,
      plant.world.lock.mutex.isHeldBy "main" = true ∧ plant.world.lock.value.frame = 1 := by
    decide +kernel
  obtain ⟨plant, hplant, hheld, hframe⟩ := hplay
  have hreach := hnew.play? hplant
  obtain ⟨hseen, hsmall, _⟩ := machine_consistent_for_others hreach
  have hcycles := (hseen (.inl ⟨"main", by decide, hheld⟩)).2 rfl
  rw [hframe] at hcycles
  exact ⟨pacing, plant, hreach, hheld, hframe, hcycles, hsmall rfl⟩

end Demo

end YieldLock
