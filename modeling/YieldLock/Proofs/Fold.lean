import YieldLock.Proofs.Frames
import YieldLock.Proofs.Ledger
import YieldLock.Proofs.Serving

/-!
# The controller's loop is a fold

A controller serves events while other threads use the lock and send. At each of its
stages the border, the acquisitions and the number that it has reached follow from
the events that it has received. Main statements: `Controller.Desk.Stride.agrees`
and `Controller.Desk.serves_of_step?`, what a step of the controller adds to them,
and `controller_is_fold`.
-/

namespace YieldLock

variable {σ : Type}

namespace ThreadState

section

variable {build : Build} {now : Nat} {me : Thread} {lock : Lock σ} {self : ThreadState σ}
  {call? : Option (Call σ)} {effect : Effect σ}

/-- A thread that is counted as a waiter waits in an acquisition. -/
theorem IsSound.exists_of_isCounted (h : self.IsSound) (hcounted : self.activity.isCounted = true) :
    ∃ watch, self.activity = .busy .acquire (.waiting watch) := by
  cases hactivity : self.activity with
  | idle | finished =>
    rw [hactivity] at hcounted
    cases hcounted
  | busy call point =>
    rw [hactivity] at hcounted
    cases point with
    | waiting watch => exact ⟨watch, by rw [show call = .acquire from h.place _ _ hactivity]⟩
    | _ => cases hcounted

/-- An acquisition is counted by the step with which a thread ceases to be a waiter. -/
theorem Rule.acquisitions (rule : Rule build now me lock self call? effect) (h : self.Fits lock me)
    (hmatched : self.activity.isCounted = true → lock.waiters.isMatched = true) :
    effect.lock.stats.acquisitions = lock.stats.acquisitions + UInt64.ofNat
      (call?.isNone && self.activity.isCounted && !effect.self.activity.isCounted).toNat := by
  have hkeeps (hstats : effect.lock.stats.acquisitions = lock.stats.acquisitions)
      (hnone : (call?.isNone && self.activity.isCounted) = false) :
      effect.lock.stats.acquisitions = lock.stats.acquisitions + UInt64.ofNat
        (call?.isNone && self.activity.isCounted && !effect.self.activity.isCounted).toNat := by
    rw [hstats, hnone]
    exact (UInt64.add_zero _).symm
  cases hcounted : call?.isNone && self.activity.isCounted with
  | true =>
    rw [Bool.and_eq_true, Option.isNone_iff_eq_none] at hcounted
    obtain ⟨rfl, hcounted⟩ := hcounted
    obtain ⟨watch, hbusy⟩ := h.sound.exists_of_isCounted hcounted
    obtain rfl | ⟨waited, rfl⟩ := rule.of_waiting hbusy (hmatched hcounted)
    · rw [hcounted]
      exact (UInt64.add_zero _).symm
    · rfl
  | false =>
    rw [← hcounted]
    cases rule.booking h with
    | nothing hstats | yielding _ _ hstats | handover _ _ hstats | window _ _ hstats =>
      exact hkeeps ((congrArg Stats.acquisitions hstats).trans rfl) hcounted
    | acquisition _ hnone hbusy =>
      rw [hnone, hbusy] at hcounted
      cases hcounted

end

end ThreadState

/-- A thread ceases to be a waiter by a further step of its call. -/
def World.leavesWaiters (world next : World σ) : Move σ → Bool
  | .step name =>
    (world.thread name).activity.isCounted && !(next.thread name).activity.isCounted
  | _ => false

/-- The acquisitions are counted when threads cease to be waiters. -/
theorem Reachable.acquisitions_of_move? {build : Build} {world next : World σ} {move : Move σ}
    {events : List (Event σ)} (h : Reachable build world)
    (hmove : world.move? build move = some (next, events)) :
    next.lock.stats.acquisitions =
      world.lock.stats.acquisitions + UInt64.ofNat (world.leavesWaiters next move).toNat := by
  cases World.change_of_move? hmove with
  | enter | pass | spawn | spawnRefused => exact (UInt64.add_zero _).symm
  | own name call? effect _ rule =>
    have hcounts := rule.acquisitions (h.fits name) (h.waiters_isSet ·)
    cases call? with
    | none =>
      rw [← world.thread_after_self name effect] at hcounts
      exact hcounts
    | some call => exact hcounts

/-- The threads that are counted are others than one that is idle. -/
theorem Reachable.waiters_of_idle {build : Build} {world : World σ} {me : Thread}
    (h : Reachable build world) (hidle : (world.thread me).activity = .idle) :
    (world.lock.waiters.count.toNat : ℕ∞) =
      {name | name ≠ me ∧ world.IsAcquiring name}.encard := by
  rw [h.waiters_eq_encard]
  congr
  ext name
  refine ⟨fun hname ↦ ⟨?_, hname⟩, And.right⟩
  rintro rfl
  obtain ⟨⟨point, hbusy⟩, _⟩ := hname
  cases hidle.symm.trans hbusy

namespace Demo

/-- What comes out of a channel was in it, or the channel has come to its end. -/
theorem Channel.receive?_cases {channel next : Channel} {delivery : Delivery}
    (h : channel.receive? = some (delivery, next)) :
    (∃ event, delivery = .event event ∧ channel.events = event :: next.events) ∨
      delivery = .ended ∧ next = channel ∧ channel.events = [] ∧ channel.hasSender = false ∨
      delivery = .pending ∧ next.events = channel.events := by
  unfold receive? at h
  split at h
  · rename_i event events hevents
    cases h
    exact .inl ⟨event, rfl, hevents⟩
  · rename_i hevents
    split at h
    · rename_i hsender
      cases h
      exact .inr (.inl ⟨rfl, rfl, hevents, by simpa using hsender⟩)
    · split at h
      · cases h
        exact .inr (.inr ⟨rfl, rfl⟩)
      · cases h

/-- A move that writes no machine, or one with the border of the machine that is there. -/
def sparesBorder (machine : Machine) : Move Machine → Bool
  | .call _ (.write _ written) => written.border = machine.border
  | _ => true

/-- A move by which a thread is started as a worker. -/
def starts (name : Thread) : Move Machine → Bool
  | .call _ (.spawn child) => child = name
  | _ => false

theorem border_of_spared {build : Build} {move : Move Machine} {world after : World Machine}
    {events : List (Event Machine)} (hmove : world.move? build move = some (after, events))
    (hspares : sparesBorder world.lock.value move = true) :
    after.lock.value.border = world.lock.value.border := by
  let turn : Turn Machine := ⟨world, move, after, events⟩
  have hturn : turn.IsMove build := hmove
  have hvalue : after.lock.value = turn.written?.getD world.lock.value := hturn.value_eq
  cases hwritten : turn.written? with
  | none => rw [hvalue, hwritten, Option.getD_none]
  | some machine =>
    obtain ⟨name, access, hwrites⟩ := Turn.exists_of_written? hwritten
    obtain rfl : move = .call name (.write access machine) := hwrites
    rw [hvalue, hwritten]
    exact of_decide_eq_true hspares

/-- The colour that an event sets, if it sets one. -/
def UiEvent.color? : UiEvent → Option UInt8
  | poke color => some color
  | _ => none

namespace Controller

theorem borderAfter_append (border : UInt8) (events more : List UiEvent) :
    borderAfter border (events ++ more) = borderAfter (borderAfter border events) more :=
  List.foldl_append

/-- The border has the last colour that was set. -/
theorem borderAfter_eq (border : UInt8) (events : List UiEvent) :
    borderAfter border events = (events.filterMap UiEvent.color?).getLast?.getD border := by
  induction events using List.reverseRecOn with
  | nil => rfl
  | append_singleton events event ih =>
    rw [borderAfter_append, ih, List.filterMap_append]
    cases event with
    | poke color =>
      change _ = (events.filterMap UiEvent.color? ++ [color]).getLast?.getD border
      rw [List.getLast?_concat]
      rfl
    | inspect | quit =>
      change _ = (events.filterMap UiEvent.color? ++ []).getLast?.getD border
      rw [List.append_nil]
      rfl

/-- What was served is what came before the wish to quit. -/
theorem served_append_quit {past : List UiEvent} (h : ∀ event ∈ past, event ≠ .quit)
    (more : List UiEvent) : served (past ++ .quit :: more) = past := by
  rw [served, List.takeWhile_append_of_pos fun event hmem ↦ decide_eq_true (h event hmem),
    List.takeWhile_cons_of_neg (by decide), List.append_nil]

theorem served_eq_self {past : List UiEvent} (h : ∀ event ∈ past, event ≠ .quit) :
    served past = past :=
  List.takeWhile_eq_self_iff.mpr fun event hmem ↦ decide_eq_true (h event hmem)

namespace Stage

/-- The number of events that the controller counts as served. -/
def handled : Stage → UInt64
  | awaiting handled | acquiring _ handled | loading _ handled | painting _ _ handled
  | reporting _ handled | releasing handled | requesting handled | announcing handled
  | done handled => handled

/-- The number of events that are being served and not counted yet. -/
def uncounted : Stage → UInt64
  | acquiring .. | loading .. | painting .. | reporting .. => 1
  | _ => 0

/-- The number of events for which the lock is still to be acquired. -/
def unacquired : Stage → UInt64
  | acquiring .. => 1
  | _ => 0

/-- The event whose border is not painted yet, if there is one. -/
def unpainted : Stage → List UiEvent
  | acquiring event _ | loading event _ => [event]
  | painting _ color _ => [.poke color]
  | _ => []

/-- The controller takes no more events. -/
def isClosing : Stage → Bool
  | requesting _ | announcing _ | done _ => true
  | _ => false

/-- The controller has asked for shutdown. -/
def hasAsked : Stage → Bool
  | announcing _ | done _ => true
  | _ => false

end Stage

namespace Desk

/-- What the events that the controller has received come to at a stage. -/
structure Serves (first : Desk) (others : Nat) (past : List UiEvent) (desk : Desk) : Prop where
  plain : ∀ event ∈ past, event ≠ .quit
  handled : desk.stage.handled + desk.stage.uncounted = UInt64.ofNat past.length
  border : borderAfter desk.world.lock.value.border desk.stage.unpainted =
    borderAfter first.world.lock.value.border past
  acquisitions : desk.world.lock.stats.acquisitions + desk.stage.unacquired =
    first.world.lock.stats.acquisitions + UInt64.ofNat others + UInt64.ofNat past.length
  lowered : desk.stage.hasAsked = true → desk.world.lock.keepAlive.isSet = false

/-- All events that have arrived were received or are still on the way. A controller that takes no
more of them has received the wish to quit, or there are none and none will come. -/
def Accounts (arrived past : List UiEvent) (desk : Desk) : Prop :=
  if desk.stage.isClosing then
    arrived = past ++ .quit :: desk.channel.events ∨
      arrived = past ∧ desk.channel.events = [] ∧ desk.channel.hasSender = false
  else arrived = past ++ desk.channel.events

section

variable {build : Build} {me : Thread} {first desk next : Desk} {others : Nat}
  {arrived past : List UiEvent}

/-- Two desks that agree on what the events have come to. -/
structure Agrees (desk next : Desk) : Prop where
  handled : next.stage.handled + next.stage.uncounted =
    desk.stage.handled + desk.stage.uncounted
  border : borderAfter next.world.lock.value.border next.stage.unpainted =
    borderAfter desk.world.lock.value.border desk.stage.unpainted
  acquisitions : next.world.lock.stats.acquisitions + next.stage.unacquired =
    desk.world.lock.stats.acquisitions + desk.stage.unacquired
  lowered : (desk.stage.hasAsked = true → desk.world.lock.keepAlive.isSet = false) →
    next.stage.hasAsked = true → next.world.lock.keepAlive.isSet = false

theorem Serves.congr (h : Serves first others past desk) (hagrees : Agrees desk next) :
    Serves first others past next where
  plain := h.plain
  handled := hagrees.handled.trans h.handled
  border := hagrees.border.trans h.border
  acquisitions := hagrees.acquisitions.trans h.acquisitions
  lowered := hagrees.lowered h.lowered

/-- A stage that asks for nothing and stands for the same as the one before. -/
theorem Agrees.of_keeps (hkept : desk.Keeps next)
    (hhandled : next.stage.handled + next.stage.uncounted =
      desk.stage.handled + desk.stage.uncounted)
    (hborder : ∀ border, borderAfter border next.stage.unpainted =
      borderAfter border desk.stage.unpainted)
    (hacquired : next.stage.unacquired = desk.stage.unacquired)
    (hlowered : (desk.stage.hasAsked = true → desk.world.lock.keepAlive.isSet = false) →
      next.stage.hasAsked = true → next.world.lock.keepAlive.isSet = false) :
    Agrees desk next where
  handled := hhandled
  border := by rw [hborder, hkept.1]
  acquisitions := by rw [hacquired, hkept.2]
  lowered := hlowered

theorem Accounts.congr (h : Accounts arrived past desk) (hchannel : next.channel = desk.channel)
    (hclosing : next.stage.isClosing = desk.stage.isClosing) : Accounts arrived past next := by
  rw [Accounts, hchannel, hclosing]
  exact h

/-- An event that is not the wish to quit is received and not yet served. -/
theorem Serves.receive (h : Serves first others past desk) {event : UiEvent} {handled : UInt64}
    (hevent : event ≠ .quit) (hstage : desk.stage = .awaiting handled)
    (hworld : next.world = desk.world) (hnext : next.stage = .acquiring event handled) :
    Serves first others (past ++ [event]) next := by
  have hhandled := h.handled
  have hborder := h.border
  have hacquisitions := h.acquisitions
  rw [hstage] at hhandled hborder hacquisitions
  have hlength : UInt64.ofNat (past ++ [event]).length = UInt64.ofNat past.length + 1 := by
    rw [List.length_append, UInt64.ofNat_add]
    rfl
  constructor
  · intro other hother
    rw [List.mem_append, List.mem_singleton] at hother
    obtain hother | rfl := hother
    · exact h.plain other hother
    · exact hevent
  · rw [hlength, ← hhandled, hnext]
    change handled + 1 = handled + 0 + 1
    rw [UInt64.add_zero]
  · rw [borderAfter_append, ← hborder, hnext, hworld]
    rfl
  · rw [hlength, ← UInt64.add_assoc, ← hacquisitions, hnext, hworld]
    change _ + 1 = _ + 0 + 1
    rw [UInt64.add_zero]
  · rw [hnext]
    nofun

/-- A step by which no event is received changes nothing of what the events have come to. -/
theorem Stride.agrees (h : Stride desk next) (hstage : ∀ handled, desk.stage ≠ .awaiting handled) :
    Agrees desk next ∧ next.stage.isClosing = desk.stage.isClosing := by
  cases h with
  | receive hawaits => exact absurd hawaits (hstage _)
  | wait hstage hkept hnext =>
    refine ⟨.of_keeps hkept ?_ ?_ ?_ ?_, ?_⟩
    all_goals rw [hnext]
    · exact fun _ ↦ rfl
    · rw [hstage]
      exact fun _ ↦ nofun
  | acquire waited hstage hvalue hstats hnext =>
    refine ⟨⟨?_, ?_, ?_, ?_⟩, ?_⟩
    all_goals rw [hnext, hstage]
    · rfl
    · rw [hvalue]
      rfl
    · rw [hstats]
      exact UInt64.add_zero _
    · exact fun _ ↦ nofun
    · rfl
  | @load event handled hstage hkept hnext =>
    refine ⟨.of_keeps hkept ?_ ?_ ?_ ?_, ?_⟩
    all_goals rw [hnext, hstage]
    · cases event <;> rfl
    · cases event <;> exact fun _ ↦ rfl
    · cases event <;> rfl
    · cases event <;> exact fun _ ↦ nofun
    · cases event <;> rfl
  | paint hstage hvalue hstats hnext =>
    refine ⟨⟨?_, ?_, ?_, ?_⟩, ?_⟩
    all_goals rw [hnext, hstage]
    · rfl
    · rw [hvalue]
      rfl
    · rw [hstats]
      rfl
    · exact fun _ ↦ nofun
    · rfl
  | report hstage hworld hnext =>
    refine ⟨.of_keeps ⟨by rw [hworld], by rw [hworld]⟩ ?_ ?_ ?_ ?_, ?_⟩
    all_goals rw [hnext, hstage]
    · exact UInt64.add_zero _
    · exact fun _ ↦ rfl
    · rfl
    · exact fun _ ↦ nofun
    · rfl
  | release hstage hkept hnext =>
    refine ⟨.of_keeps hkept ?_ ?_ ?_ ?_, ?_⟩
    all_goals rw [hnext, hstage]
    · rfl
    · exact fun _ ↦ rfl
    · rfl
    · exact fun _ ↦ nofun
    · rfl
  | request hstage hkept hlow hnext =>
    obtain hnext | hnext := hnext
    all_goals
      refine ⟨.of_keeps hkept ?_ ?_ ?_ fun _ _ ↦ hlow, ?_⟩
      all_goals rw [hnext, hstage]
      · rfl
      · exact fun _ ↦ rfl
      · rfl
      · rfl
  | announce hstage hworld hnext =>
    refine ⟨.of_keeps ⟨by rw [hworld], by rw [hworld]⟩ ?_ ?_ ?_ ?_, ?_⟩
    all_goals rw [hnext, hstage]
    · rfl
    · exact fun _ ↦ rfl
    · rfl
    · rw [hworld]
      exact fun hlow _ ↦ hlow rfl
    · rfl

/-- The controller receives an event to serve, or the events come to an end for it, or it waits. -/
theorem Stride.serves_of_receive (hserves : Serves first others past desk)
    (haccounts : Accounts arrived past desk) {handled : UInt64} {delivery : Channel.Delivery}
    (hstage : desk.stage = .awaiting handled) (hworld : next.world = desk.world)
    (hreceive : desk.channel.receive? = some (delivery, next.channel))
    (hnext : next.stage = .delivered handled delivery) :
    ∃ past, Serves first others past next ∧ Accounts arrived past next := by
  have hkept : desk.Keeps next := ⟨by rw [hworld], by rw [hworld]⟩
  -- A controller that is to take no more events has counted those that it has taken.
  have hcloses (hlater : next.stage = .requesting handled) : Serves first others past next := by
    apply hserves.congr
    refine .of_keeps hkept ?_ ?_ ?_ ?_
    all_goals rw [hlater, hstage]
    · rfl
    · exact fun _ ↦ rfl
    · rfl
    · exact fun _ ↦ nofun
  rw [Accounts, hstage] at haccounts
  change arrived = past ++ desk.channel.events at haccounts
  obtain ⟨event, rfl, hevents⟩ | ⟨rfl, hchannel, hnone, hgone⟩ | ⟨rfl, hevents⟩ :=
    Channel.receive?_cases hreceive
  · rw [hevents] at haccounts
    by_cases hquit : event = .quit
    · subst hquit
      refine ⟨past, hcloses hnext, ?_⟩
      rw [Accounts, hnext]
      exact .inl haccounts
    · have hlater : next.stage = .acquiring event handled := by
        rw [hnext]
        cases event with
        | quit => exact absurd rfl hquit
        | _ => rfl
      refine ⟨past ++ [event], hserves.receive hquit hstage hworld hlater, ?_⟩
      rw [Accounts, hlater]
      exact haccounts.trans (List.append_cons past event next.channel.events)
  · refine ⟨past, hcloses hnext, ?_⟩
    rw [hnone, List.append_nil] at haccounts
    rw [Accounts, hnext, hchannel]
    exact .inr ⟨haccounts, hnone, hgone⟩
  · have hlater : next.stage = desk.stage := by rw [hnext, hstage]; rfl
    refine ⟨past, hserves.congr ?_, ?_⟩
    · refine .of_keeps hkept ?_ ?_ ?_ ?_
      all_goals rw [hlater]
      · exact fun _ ↦ rfl
      · rw [hworld]
        exact id
    · rw [Accounts, hlater, hstage, hevents]
      exact haccounts

/-- A step of the controller keeps what the events that it has received come to, and it may receive
one more. -/
theorem serves_of_step? (h : desk.step? build me = some next) (hstride : Stride desk next)
    (hserves : Serves first others past desk) (haccounts : Accounts arrived past desk) :
    ∃ past, Serves first others past next ∧ Accounts arrived past next := by
  have hother (hstage : ∀ handled, desk.stage ≠ .awaiting handled) :
      ∃ past, Serves first others past next ∧ Accounts arrived past next := by
    obtain ⟨hagrees, hclosing⟩ := hstride.agrees hstage
    exact ⟨past, hserves.congr hagrees, haccounts.congr (channel_of_step? h hstage) hclosing⟩
  cases hstride with
  | receive hstage hworld hreceive hnext =>
    exact Stride.serves_of_receive hserves haccounts hstage hworld hreceive hnext
  | wait hstage | acquire _ hstage | load hstage | paint hstage | report hstage | release hstage
  | request hstage | announce hstage =>
    apply hother
    rw [hstage]
    exact fun _ ↦ nofun

end

/-- What happens at a desk: the controller goes on, or another thread moves or sends an event, or no
more events will be sent. -/
inductive Move where
  | serve
  | beside (move : YieldLock.Move Machine)
  | send (event : UiEvent)
  | hangUp
  deriving DecidableEq, Repr

/-- Lets something happen if it can; another thread leaves the border as it is, and none is started
in the place of the controller. -/
def move? (build : Build) (me : Thread) (desk : Desk) : Move → Option Desk
  | .serve => desk.step? build me
  | .beside move =>
    if move.thread? ≠ some me && !starts me move && sparesBorder desk.world.lock.value move then
      (desk.world.move? build move).map fun (world, _) ↦ { desk with world }
    else none
  | .send event =>
    if desk.channel.hasSender then
      (desk.channel.send? event).map fun (_, channel) ↦ { desk with channel }
    else none
  | .hangUp => some { desk with channel := desk.channel.dropSender }

/-- One thing that happens at a desk, with the desk before and after it. -/
structure Beat where
  before : Desk
  move : Move
  after : Desk
  deriving DecidableEq, Repr

namespace Beat

def Happens (build : Build) (me : Thread) (beat : Beat) : Prop :=
  beat.before.move? build me beat.move = some beat.after

/-- The event that comes into the channel, if one does. -/
def sent? (beat : Beat) : Option UiEvent :=
  match beat.move with
  | .send event => if beat.before.channel.hasReceiver then some event else none
  | _ => none

/-- Another thread gets the lock by an acquisition for which it was counted as a waiter. -/
def acquires (beat : Beat) : Bool :=
  match beat.move with
  | .beside move => beat.before.world.leavesWaiters beat.after.world move
  | _ => false

theorem countP_acquires (beat : Beat) : [beat].countP acquires = beat.acquires.toNat := by
  rw [List.countP_singleton]
  cases beat.acquires <;> rfl

theorem filterMap_sent? (beat : Beat) : [beat].filterMap sent? = beat.sent?.toList := by
  rw [List.filterMap_cons]
  cases beat.sent? <;> rfl

end Beat

/-- A history of a desk, with all that has happened in it. -/
inductive History (build : Build) (me : Thread) (first : Desk) : List Beat → Desk → Prop where
  | nil : History build me first [] first
  | snoc {beats : List Beat} {beat : Beat} (history : History build me first beats beat.before)
      (hhappens : beat.Happens build me) : History build me first (beats ++ [beat]) beat.after

/-- Lets things happen one after the other if each can, and tells what has happened. -/
def history? (build : Build) (me : Thread) (desk : Desk) : List Move → Option (List Beat × Desk)
  | [] => some ([], desk)
  | move :: moves =>
    (desk.move? build me move).bind fun next ↦
      (next.history? build me moves).map fun (beats, last) ↦ (⟨desk, move, next⟩ :: beats, last)

section

variable {build : Build} {me : Thread} {desk next : Desk} {start : ThreadState Machine}
  {others : Nat} {arrived past : List UiEvent}

theorem of_move?_beside {move : YieldLock.Move Machine}
    (h : desk.move? build me (.beside move) = some next) :
    move.thread? ≠ some me ∧ starts me move = false ∧
      sparesBorder desk.world.lock.value move = true ∧
      ∃ world events, desk.world.move? build move = some (world, events) ∧
        next = { desk with world } := by
  unfold move? at h
  simp only [Bool.and_eq_true, Bool.not_eq_true', decide_eq_true_eq] at h
  split at h
  · rename_i hfree
    obtain ⟨⟨world, events⟩, hmove, rfl⟩ := Option.map_eq_some_iff.mp h
    exact ⟨hfree.1.1, hfree.1.2, hfree.2, world, events, hmove, rfl⟩
  · cases h

/-- What is sent comes last in the channel, or there is no receiver. -/
theorem of_move?_send {event : UiEvent} (h : desk.move? build me (.send event) = some next) :
    next.world = desk.world ∧ next.stage = desk.stage ∧ desk.channel.hasSender = true ∧
      (desk.channel.hasReceiver = false ∧ next.channel = desk.channel ∨
        desk.channel.hasReceiver = true ∧
          next.channel.events = desk.channel.events ++ [event]) := by
  unfold move? at h
  simp only at h
  split at h
  · obtain ⟨⟨isReceived, channel⟩, hsend, rfl⟩ := Option.map_eq_some_iff.mp h
    refine ⟨rfl, rfl, ‹_›, ?_⟩
    unfold Channel.send? at hsend
    split at hsend
    · cases hsend
      exact .inl ⟨by simpa using ‹(!desk.channel.hasReceiver) = true›, rfl⟩
    · split at hsend
      · cases hsend
        exact .inr ⟨by simpa using ‹¬(!desk.channel.hasReceiver) = true›, rfl⟩
      · cases hsend
  · cases h

/-- What others do leaves the controller's thread as it was. -/
theorem Minds.of_others (h : desk.Minds me start) {move : YieldLock.Move Machine}
    {world : World Machine} {events : List (Event Machine)}
    (hmove : desk.world.move? build move = some (world, events)) (hother : move.thread? ≠ some me)
    (hstarts : starts me move = false) : Minds me start { desk with world } where
  worker := (World.change_of_move? hmove).worker_of_others hother h.worker
  self := by
    obtain ⟨activity, hstands, hself⟩ := h.self
    refine ⟨activity, hstands, ?_⟩
    rw [← hself]
    apply (World.change_of_move? hmove).thread_of_unspawned hother
    rintro parent rfl
    cases (decide_eq_true rfl : starts me (.call parent (.spawn me)) = true).symm.trans hstarts

/-- What others do adds their acquisitions. -/
theorem Serves.of_others {first : Desk} (h : Serves first others past desk)
    (hreach : YieldLock.Reachable build desk.world) {move : YieldLock.Move Machine}
    {world : World Machine} {events : List (Event Machine)}
    (hmove : desk.world.move? build move = some (world, events))
    (hspares : sparesBorder desk.world.lock.value move = true) :
    Serves first (others + (desk.world.leavesWaiters world move).toNat) past
      { desk with world } where
  plain := h.plain
  handled := h.handled
  border := by
    rw [← h.border]
    exact congrArg (borderAfter · desk.stage.unpainted) (border_of_spared hmove hspares)
  acquisitions := by
    have hcounts := hreach.acquisitions_of_move? hmove
    have hbefore := h.acquisitions
    rw [UInt64.ofNat_add]
    generalize UInt64.ofNat (desk.world.leavesWaiters world move).toNat = more at hcounts ⊢
    calc
      _ = desk.world.lock.stats.acquisitions + more + desk.stage.unacquired := by rw [hcounts]
      _ = desk.world.lock.stats.acquisitions + desk.stage.unacquired + more := by ac_rfl
      _ = first.world.lock.stats.acquisitions + UInt64.ofNat others + UInt64.ofNat past.length +
          more := by rw [hbefore]
      _ = _ := by ac_rfl
  lowered hasked := (World.change_of_move? hmove).advances.keepAlive (h.lowered hasked)

/-- An event that was sent is on the way. -/
theorem Accounts.send (h : Accounts arrived past desk) {event : UiEvent}
    (hstage : next.stage = desk.stage) (hsender : desk.channel.hasSender = true)
    (hevents : next.channel.events = desk.channel.events ++ [event]) :
    Accounts (arrived ++ [event]) past next := by
  unfold Accounts at h ⊢
  rw [hstage, hevents]
  split at h
  · rw [if_pos ‹_›]
    obtain rfl | ⟨_, _, hgone⟩ := h
    · exact .inl (by rw [List.append_assoc, List.cons_append])
    · cases hsender.symm.trans hgone
  · rw [if_neg ‹_›, h, List.append_assoc]

theorem Accounts.hangUp (h : Accounts arrived past desk) :
    Accounts arrived past { desk with channel := desk.channel.dropSender } := by
  unfold Accounts at h ⊢
  split at h
  · exact (if_pos ‹_›).mpr (h.imp id fun hended ↦ ⟨hended.1, hended.2.1, rfl⟩)
  · exact (if_neg ‹_›).mpr h

end

/-- What holds of a desk after all that has happened at it. -/
structure Tells (build : Build) (me : Thread) (first : Desk) (beats : List Beat) (last : Desk) :
    Prop where
  reachable : YieldLock.Reachable build last.world
  minds : last.Minds me (first.world.thread me)
  serves : ∃ past, Serves first (beats.countP Beat.acquires) past last ∧
    Accounts (first.channel.events ++ beats.filterMap Beat.sent?) past last

section

variable {build : Build} {me : Thread} {first middle last : Desk} {beats others : List Beat}
  {beat : Beat} {start : ThreadState Machine} {acquired : Nat} {arrived past : List UiEvent}

theorem tells_nil (hreach : YieldLock.Reachable build first.world)
    (hstage : first.stage = .awaiting 0) (hidle : (first.world.thread me).activity = .idle)
    (hworker : first.world.lock.worker ≠ some me) : Tells build me first [] first where
  reachable := hreach
  minds := by
    refine ⟨hworker, .idle, .idle _, ?_⟩
    rw [hstage, ← hidle]
    rfl
  serves := by
    refine ⟨[], ⟨nofun, ?_, ?_, ?_, ?_⟩, ?_⟩
    · rw [hstage]
      rfl
    · rw [hstage]
      rfl
    · rw [hstage]
      exact (UInt64.add_zero _).symm
    · rw [hstage]
      nofun
    · rw [Accounts, hstage]
      exact List.append_nil _

theorem Beat.Happens.reachable (h : beat.Happens build me)
    (hreach : YieldLock.Reachable build beat.before.world) :
    YieldLock.Reachable build beat.after.world := by
  obtain ⟨before, move, after⟩ := beat
  cases move with
  | serve =>
    obtain ⟨deed, hdeed, hworld, _⟩ := exists_deed_of_step? h
    exact hworld ▸ reachable_of_perform? hdeed hreach
  | beside move =>
    obtain ⟨_, _, _, world, events, hmove, hafter⟩ := of_move?_beside h
    exact congrArg Desk.world hafter ▸ hreach.move hmove
  | send event => exact (of_move?_send h).1 ▸ hreach
  | hangUp => exact congrArg Desk.world (Option.some_inj.mp h) ▸ hreach

theorem Beat.Happens.minds (h : beat.Happens build me)
    (hreach : YieldLock.Reachable build beat.before.world) (hminds : beat.before.Minds me start) :
    beat.after.Minds me start := by
  obtain ⟨before, move, after⟩ := beat
  cases move with
  | serve => exact (stride h hreach hminds).2
  | beside move =>
    obtain ⟨hother, hstarts, _, world, events, hmove, hafter⟩ := of_move?_beside h
    exact hafter ▸ hminds.of_others hmove hother hstarts
  | send event =>
    obtain ⟨hworld, hstage, _⟩ := of_move?_send h
    exact ⟨hworld ▸ hminds.worker, by rw [hworld, hstage]; exact hminds.self⟩
  | hangUp => exact Option.some_inj.mp h ▸ ⟨hminds.worker, hminds.self⟩

/-- What happens adds the acquisitions of others and what was sent, and the controller may receive
an event. -/
theorem Beat.Happens.serves (h : beat.Happens build me)
    (hreach : YieldLock.Reachable build beat.before.world) (hminds : beat.before.Minds me start)
    (hserves : Serves first acquired past beat.before)
    (haccounts : Accounts arrived past beat.before) :
    ∃ past, Serves first (acquired + beat.acquires.toNat) past beat.after ∧
      Accounts (arrived ++ beat.sent?.toList) past beat.after := by
  have hunsent {past : List UiEvent} (hnone : beat.sent? = none)
      (haccounts : Accounts arrived past beat.after) :
      Accounts (arrived ++ beat.sent?.toList) past beat.after := by
    rwa [hnone, Option.toList_none, List.append_nil]
  obtain ⟨before, move, after⟩ := beat
  cases move with
  | serve =>
    obtain ⟨past, hserves, haccounts⟩ :=
      serves_of_step? h (stride h hreach hminds).1 hserves haccounts
    exact ⟨past, hserves, hunsent rfl haccounts⟩
  | beside move =>
    obtain ⟨_, _, hspares, world, events, hmove, hnext⟩ := of_move?_beside h
    have hafter : after = { before with world } := hnext
    subst hafter
    exact ⟨past, hserves.of_others hreach hmove hspares, hunsent rfl haccounts⟩
  | send event =>
    obtain ⟨hworld, hstage, hsender, hsent⟩ := of_move?_send h
    have hagrees : Agrees before after := by
      refine .of_keeps ⟨by rw [hworld], by rw [hworld]⟩ ?_ ?_ ?_ ?_
      all_goals rw [hstage]
      · exact fun _ ↦ rfl
      · rw [hworld]
        exact id
    refine ⟨past, hserves.congr hagrees, ?_⟩
    obtain ⟨hreceiver, hchannel⟩ | ⟨hreceiver, hevents⟩ := hsent
    · refine hunsent ?_ (haccounts.congr hchannel (by rw [hstage]))
      rw [Beat.sent?, hreceiver]
      rfl
    · have hsome : Beat.sent? ⟨before, .send event, after⟩ = some event := by
        rw [Beat.sent?, hreceiver]
        rfl
      rw [hsome]
      exact haccounts.send hstage hsender hevents
  | hangUp =>
    have hafter : after = { before with channel := before.channel.dropSender } :=
      (Option.some_inj.mp h).symm
    subst hafter
    exact ⟨past, hserves.congr ⟨rfl, rfl, rfl, id⟩, hunsent rfl haccounts.hangUp⟩

theorem Tells.snoc (h : Tells build me first beats beat.before) (hhappens : beat.Happens build me) :
    Tells build me first (beats ++ [beat]) beat.after where
  reachable := hhappens.reachable h.reachable
  minds := hhappens.minds h.reachable h.minds
  serves := by
    obtain ⟨past, hserves, haccounts⟩ := h.serves
    obtain ⟨later, hserves, haccounts⟩ :=
      hhappens.serves h.reachable h.minds hserves haccounts
    refine ⟨later, ?_, ?_⟩
    · rwa [List.countP_append, beat.countP_acquires]
    · rwa [List.filterMap_append, beat.filterMap_sent?, ← List.append_assoc]

theorem History.tells (history : History build me first beats last)
    (hnew : Tells build me first [] first) : Tells build me first beats last := by
  induction history with
  | nil => exact hnew
  | snoc history hhappens ih => exact ih.snoc hhappens

/-- What happens in a history happens after a part of it. -/
theorem History.exists_of_mem (history : History build me first beats last) (hmem : beat ∈ beats) :
    ∃ earlier, History build me first earlier beat.before ∧ beat.Happens build me := by
  induction history with
  | nil => cases hmem
  | @snoc earlier other history hhappens ih =>
    rw [List.mem_append, List.mem_singleton] at hmem
    obtain hmem | rfl := hmem
    · exact ih hmem
    · exact ⟨earlier, history, hhappens⟩

/-- Only a thread inside an acquisition leaves the waiters. -/
theorem Beat.exists_of_acquires (hreach : YieldLock.Reachable build beat.before.world)
    (h : beat.acquires = true) :
    ∃ name, beat.move = .beside (.step name) ∧ beat.before.world.IsAcquiring name := by
  obtain ⟨before, move, after⟩ := beat
  cases move with
  | beside move =>
    cases move with
    | step name =>
      have hcounted := (Bool.and_eq_true_iff.mp h).1
      exact ⟨name, rfl, hreach.isCounted_iff.mp hcounted⟩
    | _ => cases h
  | _ => cases h

/-- Without another thread inside an acquisition none is added by others. -/
theorem History.countP_acquires_eq_zero (history : History build me first beats last)
    (hnew : Tells build me first [] first)
    (halone : ∀ beat ∈ beats, ∀ name, name ≠ me → ¬beat.before.world.IsAcquiring name) :
    beats.countP Beat.acquires = 0 := by
  rw [List.countP_eq_zero]
  intro beat hmem hacquires
  obtain ⟨earlier, hearlier, hhappens⟩ := history.exists_of_mem hmem
  obtain ⟨name, hmove, hacquiring⟩ :=
    Beat.exists_of_acquires (hearlier.tells hnew).reachable hacquires
  rw [Beat.Happens, hmove] at hhappens
  have hother := (of_move?_beside hhappens).1
  exact halone beat hmem name (fun hname ↦ hother (congrArg some hname)) hacquiring

/-- A controller that has come to its end has left its thread as it was. -/
theorem Minds.thread_of_done (h : last.Minds me start) {handled : UInt64}
    (hdone : last.stage = .done handled) (hidle : start.activity = .idle) :
    last.world.thread me = start := by
  obtain ⟨activity, hstands, hself⟩ := h.self
  rw [hdone] at hstands hself
  rw [hself, hstands.idle_of_idle, ← hidle]
  rfl

/-- What a controller that has come to its end has received is what came before the first wish to
quit. -/
theorem Tells.of_done (h : Tells build me first beats last) {handled : UInt64}
    (hdone : last.stage = .done handled) :
    let arrived := first.channel.events ++ beats.filterMap Beat.sent?
    handled = UInt64.ofNat (served arrived).length ∧
    last.world.lock.value.border =
      ((served arrived).filterMap UiEvent.color?).getLast?.getD first.world.lock.value.border ∧
    last.world.lock.stats.acquisitions = first.world.lock.stats.acquisitions +
      UInt64.ofNat (beats.countP Beat.acquires) + handled ∧
    last.world.lock.keepAlive.isSet = false ∧
    (arrived = served arrived ++ .quit :: last.channel.events ∨
      arrived = served arrived ∧ last.channel.events = [] ∧
        last.channel.hasSender = false) := by
  intro arrived
  obtain ⟨past, hserves, haccounts⟩ := h.serves
  rw [Accounts, hdone] at haccounts
  change arrived = past ++ .quit :: last.channel.events ∨
    arrived = past ∧ last.channel.events = [] ∧ last.channel.hasSender = false at haccounts
  have hserved : served arrived = past := by
    obtain harrived | ⟨harrived, _⟩ := haccounts
    · exact (congrArg served harrived).trans (served_append_quit hserves.plain _)
    · exact (congrArg served harrived).trans (served_eq_self hserves.plain)
  have hhandled := hserves.handled
  have hborder := hserves.border
  have hacquisitions := hserves.acquisitions
  rw [hdone] at hhandled hborder hacquisitions
  have hlength : handled = UInt64.ofNat past.length :=
    (UInt64.add_zero handled).symm.trans hhandled
  rw [hserved]
  refine ⟨hlength, ?_, ?_, hserves.lowered (by rw [hdone]; rfl), haccounts⟩
  · rw [← borderAfter_eq, ← hborder]
    rfl
  · rw [← hlength] at hacquisitions
    exact (UInt64.add_zero _).symm.trans hacquisitions

theorem History.append (history : History build me first beats middle)
    (more : History build me middle others last) :
    History build me first (beats ++ others) last := by
  induction more with
  | nil => rwa [List.append_nil]
  | snoc more hhappens ih =>
    rw [← List.append_assoc]
    exact .snoc ih hhappens

theorem history_of_history? {moves : List Move}
    (h : first.history? build me moves = some (beats, last)) :
    History build me first beats last := by
  induction moves generalizing first beats with
  | nil =>
    cases h
    exact .nil
  | cons move moves ih =>
    obtain ⟨next, hmove, hlater⟩ := Option.bind_eq_some_iff.mp h
    obtain ⟨⟨beats, final⟩, hhistory, hlast⟩ := Option.map_eq_some_iff.mp hlater
    cases hlast
    let beat : Beat := ⟨first, move, next⟩
    have hhappens : beat.Happens build me := hmove
    exact (History.snoc .nil hhappens).append (ih hhistory)

end

end Desk

end Controller

open Controller Desk in
/-- Whatever others do with the lock but paint the border, and whenever the events come: a
controller that has come to its end has served the events before the first wish to quit. It tells
how many they are, the border has the last colour that they set, the acquisitions have grown by
their number and by the acquisitions of others, and the controller is at the lock as it was.
Shutdown is requested, and what came after the wish to quit is still in the channel. -/
theorem controller_is_fold {build : Build} {me : Thread} {handled : UInt64} {first last : Desk}
    {beats : List Desk.Beat} (hreach : YieldLock.Reachable build first.world)
    (hstage : first.stage = .awaiting 0) (hidle : (first.world.thread me).activity = .idle)
    (hworker : first.world.lock.worker ≠ some me) (history : Desk.History build me first beats last)
    (hdone : last.stage = .done handled) :
    let arrived := first.channel.events ++ beats.filterMap Desk.Beat.sent?
    handled = UInt64.ofNat (Controller.served arrived).length ∧
    last.world.lock.value.border =
      ((Controller.served arrived).filterMap UiEvent.color?).getLast?.getD
        first.world.lock.value.border ∧
    last.world.lock.stats.acquisitions = first.world.lock.stats.acquisitions +
      UInt64.ofNat (beats.countP Desk.Beat.acquires) + handled ∧
    ((∀ beat ∈ beats, ∀ name, name ≠ me → ¬beat.before.world.IsAcquiring name) →
      last.world.lock.stats.acquisitions = first.world.lock.stats.acquisitions + handled) ∧
    last.world.thread me = first.world.thread me ∧
    last.world.lock.mutex.depth me = first.world.lock.mutex.depth me ∧
    (∀ world ∈ [first.world, last.world], (world.lock.waiters.count.toNat : ℕ∞) =
      {name | name ≠ me ∧ world.IsAcquiring name}.encard) ∧
    last.world.lock.keepAlive.isSet = false ∧
    (arrived = Controller.served arrived ++ .quit :: last.channel.events ∨
      arrived = Controller.served arrived ∧ last.channel.events = [] ∧
        last.channel.hasSender = false) := by
  intro arrived
  have hnew := tells_nil hreach hstage hidle hworker
  have htells := history.tells hnew
  obtain ⟨hhandled, hborder, hacquisitions, hlow, harrived⟩ := htells.of_done hdone
  have hthread := htells.minds.thread_of_done hdone hidle
  refine ⟨hhandled, hborder, hacquisitions, fun halone ↦ ?_, hthread, ?_, ?_, hlow, harrived⟩
  · rw [hacquisitions, history.countP_acquires_eq_zero hnew halone]
    exact congrArg (· + handled) (UInt64.add_zero _)
  · rw [(htells.reachable.fits me).depth, (hreach.fits me).depth, hthread]
  · intro world hworld
    rw [List.mem_cons, List.mem_singleton] at hworld
    obtain rfl | rfl := hworld
    · exact hreach.waiters_of_idle hidle
    · exact htells.reachable.waiters_of_idle (by rw [hthread, hidle])

open Controller Desk in
/-- A controller serves a look at the machine while the worker yields and a poke while the worker
has a window open. The second poke comes after the wish to quit and stays in the channel. -/
theorem controller_serves_two_of_four :
    ∃ (first last : Desk) (beats : List Desk.Beat), first.world.IsNew ∧
      first.channel.events = [.inspect, .poke 7] ∧
      beats.filterMap Desk.Beat.sent? = [.quit, .poke 9] ∧
      Desk.History .checked "controller" first beats last ∧ last.stage = .done 2 ∧
      last.world.lock.value.border = 7 ∧ last.world.lock.stats.acquisitions = 2 ∧
      last.world.thread "controller" = {} ∧ last.world.lock.keepAlive.isSet = false ∧
      last.channel.events = [.poke 9] := by
  let first : Desk :=
    { world := { lock := .standard .checked {} }, channel := { events := [.inspect, .poke 7] } }
  let worker (call : Call Machine) : Desk.Move := .beside (.call "worker" call)
  let goOn : Desk.Move := .beside (.step "worker")
  let moves : List Desk.Move :=
    [worker .adopt, goOn] ++ List.replicate 3 .serve ++ [worker .yieldNow, goOn] ++
      List.replicate 4 .serve ++
      [goOn, goOn, worker (.write .session { frame := 1, cycles := 10 }), .send .quit] ++
      List.replicate 3 .serve ++ [worker .openWindow, .serve, .send (.poke 9)] ++
      List.replicate 7 .serve
  have hplay : ∃ played ∈ first.history? .checked "controller" moves,
      played.2.stage = .done 2 ∧ played.1.filterMap Desk.Beat.sent? = [.quit, .poke 9] ∧
      played.1.countP Desk.Beat.acquires = 0 := by
    decide +kernel
  obtain ⟨⟨beats, last⟩, hplayed, hdone, hsent, hnone⟩ := hplay
  have history : Desk.History .checked "controller" first beats last := history_of_history? hplayed
  have hnew : first.world.IsNew := ⟨.standard .checked ({} : Machine), rfl⟩
  obtain ⟨_, hborder, hacquisitions, _, hthread, _, _, hlow, harrived⟩ :=
    controller_is_fold (Run.nil.reachable hnew) rfl rfl nofun history hdone
  rw [hsent] at hborder harrived
  rw [hnone] at hacquisitions
  refine ⟨first, last, beats, hnew, rfl, hsent, history, hdone, hborder, hacquisitions, hthread,
    hlow, ?_⟩
  obtain hrest | ⟨hall, _⟩ := harrived
  · have hevents : [.inspect, .poke 7, .quit] ++ [.poke 9] =
        [.inspect, .poke 7, .quit] ++ last.channel.events := hrest
    exact (List.append_cancel_left hevents).symm
  · cases hall

end Demo

end YieldLock
