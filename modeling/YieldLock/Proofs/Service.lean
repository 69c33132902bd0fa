import YieldLock.Proofs.Attending
import YieldLock.Proofs.Supply

/-!
# A controller and the source of its events

A controller is fed by a source while others use the lock as they like. Between the
two nothing is lost, so the controller ends after it has served all the events of the
source. Main statements: `Controller.Service.Tells.of_done`, what it has come to then,
`Controller.Service.exists_own_move`, one of the two goes on until then, and
`source_and_controller_fit`.
-/

namespace YieldLock.Demo

namespace EventSource

/-- The events of a source leave the colour of the last one that sets it. -/
theorem borderAfter_events (border : UInt8) (count : Nat) :
    Controller.borderAfter border ((List.range count).map eventAt) =
      if count < 3 then border else UInt8.ofNat ((3 * (count / 3) - 1) % 16) := by
  induction count with
  | zero => rfl
  | succ count ih =>
    rw [List.range_succ, List.map_append, Controller.borderAfter_append, ih]
    change Controller.borderAfter _ [eventAt count] = _
    unfold eventAt
    by_cases hsets : count % 3 = 2
    · have hlast : 3 * ((count + 1) / 3) - 1 = count := by omega
      rw [if_pos hsets, if_neg (show ¬count + 1 < 3 by omega), hlast]
      rfl
    · have hsame : (count + 1) / 3 = count / 3 := by omega
      have hsmall : count + 1 < 3 ↔ count < 3 := by omega
      rw [if_neg hsets, hsame]
      simp only [hsmall]
      rfl

end EventSource

namespace Controller

/-- A controller at its desk, and the source at the other end of its channel. -/
structure Service where
  desk : Desk
  source : EventSource.Stage
  deriving DecidableEq, Repr

namespace Service

/-- What happens in a service: the controller or the source goes on, or another thread moves. -/
inductive Move where
  | serve
  | supply
  | beside (move : YieldLock.Move Machine)
  deriving DecidableEq, Repr

/-- The source with the channel. -/
def feed (service : Service) : EventSource.Feed where
  channel := service.desk.channel
  stage := service.source
  left := none

/-- Lets something happen if it can; no worker is started in the place of the controller. -/
def move? (build : Build) (me : Thread) (count : Nat) (service : Service) : Move → Option Service
  | .serve => (service.desk.step? build me).map fun desk ↦ { service with desk }
  | .supply =>
    (service.feed.send? count).map fun feed ↦
      { desk := { service.desk with channel := feed.channel }, source := feed.stage }
  | .beside move =>
    if move.thread? ≠ some me && !starts me move then
      (service.desk.world.move? build move).map fun (world, _) ↦
        { service with desk := { service.desk with world } }
    else none

/-- A controller that is about to begin, with a source that is, at a channel. -/
def start (count : Nat) (capacity : Option Nat) (world : World Machine) : Service where
  desk := { world, channel := { capacity } }
  source := EventSource.stageAt count 0

/-- One thing that happens in a service, with the service before and after it. -/
structure Beat where
  before : Service
  move : Move
  after : Service
  deriving DecidableEq, Repr

namespace Beat

def Happens (build : Build) (me : Thread) (count : Nat) (beat : Beat) : Prop :=
  beat.before.move? build me count beat.move = some beat.after

/-- The controller or the source goes on. -/
def isOwn (beat : Beat) : Bool :=
  match beat.move with
  | .beside _ => false
  | _ => true

/-- What another thread does leaves the border as it is. -/
def spares (beat : Beat) : Bool :=
  match beat.move with
  | .beside move => sparesBorder beat.before.desk.world.lock.value move
  | _ => true

end Beat

/-- A history of a service, with all that has happened in it. -/
inductive History (build : Build) (me : Thread) (count : Nat) (first : Service) :
    List Beat → Service → Prop where
  | nil : History build me count first [] first
  | snoc {beats : List Beat} {beat : Beat}
      (history : History build me count first beats beat.before)
      (hhappens : beat.Happens build me count) :
      History build me count first (beats ++ [beat]) beat.after

/-- Lets things happen one after the other if each can, and tells what has happened. -/
def history? (build : Build) (me : Thread) (count : Nat) (service : Service) :
    List Move → Option (List Beat × Service)
  | [] => some ([], service)
  | move :: moves =>
    (service.move? build me count move).bind fun next ↦
      (next.history? build me count moves).map fun (beats, last) ↦
        (⟨service, move, next⟩ :: beats, last)

/-- What the source has sent and what the controller has received come to; the border follows the
events if all others spare it. -/
structure Serves (count : Nat) (spared : Prop) (border : UInt8) (arrived past : List UiEvent)
    (service : Service) : Prop where
  supplies : EventSource.Supplies count arrived service.desk.channel service.source
  accounts : Desk.Accounts arrived past service.desk
  plain : ∀ event ∈ past, event ≠ .quit
  handled : service.desk.stage.handled + service.desk.stage.uncounted = UInt64.ofNat past.length
  border : spared → borderAfter service.desk.world.lock.value.border service.desk.stage.unpainted =
    borderAfter border past

/-- How much the controller and the source can still do. An event costs the controller up to seven
steps more than the one by which it is received. -/
def work (me : Thread) (count : Nat) (service : Service) : Nat :=
  8 * service.feed.work count + service.desk.effort me

section

variable {build : Build} {me : Thread} {count : Nat} {service next : Service} {spared : Prop}
  {border : UInt8} {arrived past : List UiEvent}

theorem of_move?_beside {move : YieldLock.Move Machine}
    (h : service.move? build me count (.beside move) = some next) :
    move.thread? ≠ some me ∧ starts me move = false ∧
      ∃ world events, service.desk.world.move? build move = some (world, events) ∧
        next = { service with desk := { service.desk with world } } := by
  unfold move? at h
  simp only [Bool.and_eq_true, Bool.not_eq_true', decide_eq_true_eq] at h
  split at h
  · rename_i hfree
    obtain ⟨⟨world, events⟩, hmove, rfl⟩ := Option.map_eq_some_iff.mp h
    exact ⟨hfree.1, hfree.2, world, events, hmove, rfl⟩
  · cases h

theorem of_move?_supply (h : service.move? build me count .supply = some next) :
    ∃ feed sent?, EventSource.Feed.Sends count service.feed feed sent? ∧
      next = { desk := { service.desk with channel := feed.channel }, source := feed.stage } := by
  obtain ⟨feed, hsend, rfl⟩ := Option.map_eq_some_iff.mp h
  obtain ⟨sent?, hsends⟩ := EventSource.Feed.exists_sends_of_send? hsend
  exact ⟨feed, sent?, hsends, rfl⟩

theorem of_move?_serve (h : service.move? build me count .serve = some next) :
    service.desk.step? build me = some next.desk ∧ next.source = service.source := by
  obtain ⟨desk, hstep, rfl⟩ := Option.map_eq_some_iff.mp h
  exact ⟨hstep, rfl⟩

/-- A step by which no event is received leaves what the events have come to as it is. -/
theorem Serves.of_works (h : Serves count spared border arrived past service)
    (hworks : service.desk.Works me next.desk) (hsource : next.source = service.source) :
    Serves count spared border arrived past next where
  supplies := by
    rw [hworks.channel, hsource]
    exact h.supplies
  accounts := h.accounts.congr hworks.channel hworks.closing
  plain := h.plain
  handled := hworks.handled.trans h.handled
  border hspared := hworks.border.trans (h.border hspared)

/-- What a receiver does keeps the two ends of the channel. -/
theorem ends_of_receive? {channel after : Channel} {delivery : Channel.Delivery}
    (h : channel.receive? = some (delivery, after)) :
    after.hasSender = channel.hasSender ∧ after.hasReceiver = channel.hasReceiver := by
  unfold Channel.receive? at h
  split at h
  · cases h
    exact ⟨rfl, rfl⟩
  · split at h
    · cases h
      exact ⟨rfl, rfl⟩
    · split at h
      · cases h
        exact ⟨rfl, rfl⟩
      · cases h

/-- The controller receives an event to serve, or the events come to an end for it, or it waits. -/
theorem Serves.of_receives (h : Serves count spared border arrived past service)
    (hreceives : service.desk.Receives next.desk) (hsource : next.source = service.source) :
    ∃ past, Serves count spared border arrived past next := by
  obtain ⟨⟨handled, delivery, hstage, hreceive, hnext⟩, hworld⟩ := hreceives
  obtain ⟨hsupplies, haccounts, hplain, hhandled, hborder⟩ := h
  obtain ⟨hsender, hreceiver⟩ := ends_of_receive? hreceive
  have hlater : EventSource.Supplies count arrived next.desk.channel next.source := by
    rw [hsource]
    exact hsupplies.congr hsender (hreceiver ▸ id)
  rw [hstage] at hhandled hborder
  rw [Desk.Accounts, hstage] at haccounts
  change arrived = past ++ service.desk.channel.events at haccounts
  -- A stage at which no event is served has the events that were received before.
  have hkept (hdelivered : next.desk.stage = .requesting handled ∨
        next.desk.stage = .awaiting handled) (haccounts : Desk.Accounts arrived past next.desk) :
      Serves count spared border arrived past next := by
    obtain hdelivered | hdelivered := hdelivered
    all_goals
      refine ⟨hlater, haccounts, hplain, ?_, ?_⟩
      · rw [hdelivered]
        exact hhandled
      · rw [hdelivered, hworld]
        exact hborder
  obtain ⟨event, rfl, hevents⟩ | ⟨rfl, hchannel, hnone, hgone⟩ | ⟨rfl, hevents⟩ :=
    Channel.receive?_cases hreceive
  · rw [hevents] at haccounts
    by_cases hquit : event = .quit
    · subst hquit
      refine ⟨past, hkept (.inl hnext) ?_⟩
      rw [Desk.Accounts, hnext]
      exact .inl haccounts
    · have hacquires : next.desk.stage = .acquiring event handled := by
        rw [hnext]
        cases event with
        | quit => exact absurd rfl hquit
        | _ => rfl
      refine ⟨past ++ [event], hlater, ?_, ?_, ?_, ?_⟩
      · rw [Desk.Accounts, hacquires]
        exact haccounts.trans (List.append_cons ..)
      · intro other hother
        rw [List.mem_append, List.mem_singleton] at hother
        obtain hother | rfl := hother
        · exact hplain other hother
        · exact hquit
      · rw [List.length_append, UInt64.ofNat_add, ← hhandled, hacquires]
        change handled + 1 = handled + 0 + 1
        rw [UInt64.add_zero]
      · intro hspared
        rw [borderAfter_append, ← hborder hspared, hacquires, hworld]
        rfl
  · refine ⟨past, hkept (.inl hnext) ?_⟩
    rw [hnone, List.append_nil] at haccounts
    rw [Desk.Accounts, hnext, hchannel]
    exact .inr ⟨haccounts, hnone, hgone⟩
  · refine ⟨past, hkept (.inr hnext) ?_⟩
    rw [Desk.Accounts, hnext, hevents]
    exact haccounts

/-- What the source does is accounted for. -/
theorem Serves.of_sends (h : Serves count spared border arrived past service)
    {feed : EventSource.Feed} {sent? : Option UiEvent}
    (hsends : EventSource.Feed.Sends count service.feed feed sent?) :
    Serves count spared border (arrived ++ sent?.toList) past
      { desk := { service.desk with channel := feed.channel }, source := feed.stage } where
  supplies := hsends.supplies h.supplies
  accounts := by
    cases hsends with
    | rest _ hnext | refused _ _ hnext =>
      rw [hnext, Option.toList_none, List.append_nil]
      exact h.accounts
    | hangUp _ _ hnext =>
      rw [hnext, Option.toList_none, List.append_nil]
      exact h.accounts.hangUp
    | send hstage _ hnext =>
      rw [hnext]
      refine h.accounts.send rfl ?_ rfl
      cases hsender : service.desk.channel.hasSender with
      | true => rfl
      | false => cases hstage.symm.trans (h.supplies.sender hsender)
  plain := h.plain
  handled := h.handled
  border := h.border

/-- What others do counts only where it concerns the border. -/
theorem Serves.of_others (h : Serves count spared border arrived past service)
    {move : YieldLock.Move Machine} {world : World Machine} {events : List (Event Machine)}
    (hmove : service.desk.world.move? build move = some (world, events)) :
    Serves count (spared ∧ sparesBorder service.desk.world.lock.value move = true) border arrived
      past { service with desk := { service.desk with world } } where
  supplies := h.supplies
  accounts := h.accounts
  plain := h.plain
  handled := h.handled
  border hspared := by
    rw [← h.border hspared.1]
    exact congrArg (borderAfter · service.desk.stage.unpainted)
      (border_of_spared hmove hspared.2)

/-- What is received leaves less to do at a channel, unless it is the end. -/
theorem work_of_receive? {channel after : Channel} {delivery : Channel.Delivery}
    (h : channel.receive? = some (delivery, after)) (hreceiver : channel.hasReceiver = true) :
    delivery = .ended ∧ after = channel ∨ after.work + 1 = channel.work := by
  unfold Channel.receive? at h
  split at h
  · rename_i event events hevents
    cases h
    right
    simp only [Channel.work, hevents, List.length_cons]
    omega
  · split at h
    · cases h
      exact .inl ⟨rfl, rfl⟩
    · split at h
      · rename_i hwaits
        cases h
        rw [Bool.and_eq_true, Bool.not_eq_true'] at hwaits
        right
        simp only [Channel.work, hreceiver, hwaits.2, Bool.not_true, Bool.not_false,
          Bool.and_true, Bool.and_false, Bool.toNat_true, Bool.toNat_false]
      · cases h

theorem work_lt_of_receives (hreceives : service.desk.Receives next.desk)
    (hsource : next.source = service.source)
    (hreceiver : service.desk.channel.hasReceiver = true) :
    next.work me count < service.work me count := by
  obtain ⟨⟨handled, delivery, hstage, hreceive, hnext⟩, hworld⟩ := hreceives
  have hbefore : service.desk.effort me = 3 := by
    rw [Desk.effort, hstage]
    rfl
  unfold work EventSource.Feed.work feed
  simp only [hsource, hbefore]
  obtain ⟨rfl, hchannel⟩ | hless := work_of_receive? hreceive hreceiver
  · have hafter : next.desk.effort me = 2 := by
      rw [Desk.effort, hnext]
      rfl
    rw [hchannel, hafter]
    omega
  · have hafter : next.desk.effort me ≤ 10 := Desk.effort_le me next.desk
    omega

theorem work_lt_of_works (hworks : service.desk.Works me next.desk)
    (hsource : next.source = service.source) : next.work me count < service.work me count := by
  have hless := hworks.effort
  unfold work EventSource.Feed.work feed
  rw [hworks.channel, hsource]
  omega

theorem work_lt_of_sends {feed : EventSource.Feed} {sent? : Option UiEvent}
    (hsends : EventSource.Feed.Sends count service.feed feed sent?)
    (hwithin : service.source.IsWithin count) :
    work me count
        { desk := { service.desk with channel := feed.channel }, source := feed.stage } <
      service.work me count := by
  have hless := hsends.work_lt hwithin
  have hsame : EventSource.Feed.work count
      (Service.feed { desk := { service.desk with channel := feed.channel },
                      source := feed.stage }) = feed.work count := rfl
  have heffort : Desk.effort me { service.desk with channel := feed.channel } =
      service.desk.effort me := rfl
  unfold work
  rw [hsame, heffort]
  omega

end

/-- What holds of a service after all that has happened in it. -/
structure Tells (build : Build) (me : Thread) (count : Nat) (first : Service) (beats : List Beat)
    (last : Service) : Prop where
  reachable : YieldLock.Reachable build last.desk.world
  attends : last.desk.Attends me
  receiver : last.desk.channel.hasReceiver = true
  serves : ∃ arrived past, Serves count (∀ beat ∈ beats, beat.spares = true)
    first.desk.world.lock.value.border arrived past last
  work : beats.countP Beat.isOwn + last.work me count ≤ first.work me count

section

variable {build : Build} {me : Thread} {count : Nat} {first middle last : Service}
  {beats others : List Beat} {beat : Beat} {capacity : Option Nat} {world : World Machine}

theorem tells_start (count : Nat) (capacity : Option Nat)
    (hreach : YieldLock.Reachable build world) (hidle : (world.thread me).activity = .idle) :
    Tells build me count (start count capacity world) [] (start count capacity world) where
  reachable := hreach
  attends := ⟨Nat.zero_le _, .inl hidle⟩
  receiver := rfl
  serves :=
    ⟨[], [], EventSource.supplies_start count capacity, rfl, nofun, rfl, fun _ ↦ rfl⟩
  work := Nat.le_of_eq (Nat.zero_add _)

theorem forall_spares_concat :
    (∀ other ∈ beats ++ [beat], other.spares = true) ↔
      (∀ other ∈ beats, other.spares = true) ∧ beat.spares = true := by
  rw [List.forall_mem_append, List.forall_mem_singleton]

theorem countP_isOwn_concat (beats : List Beat) (beat : Beat) :
    (beats ++ [beat]).countP Beat.isOwn = beats.countP Beat.isOwn + beat.isOwn.toNat := by
  rw [List.countP_append, List.countP_singleton]
  cases beat.isOwn <;> rfl

theorem Serves.imp {spared more : Prop} {border : UInt8} {arrived past : List UiEvent}
    (h : Serves count spared border arrived past last) (himp : more → spared) :
    Serves count more border arrived past last :=
  { h with border := h.border ∘ himp }

/-- A move of the controller or of the source, which leaves less to do. -/
theorem Tells.own (h : Tells build me count first beats middle) {move : Move}
    (hmove : Beat.isOwn ⟨middle, move, last⟩ = true)
    (hreach : YieldLock.Reachable build last.desk.world) (hattends : last.desk.Attends me)
    (hreceiver : last.desk.channel.hasReceiver = true)
    (hserves : ∃ arrived past, Serves count (∀ beat ∈ beats, beat.spares = true)
      first.desk.world.lock.value.border arrived past last)
    (hless : last.work me count < middle.work me count) :
    Tells build me count first (beats ++ [⟨middle, move, last⟩]) last where
  reachable := hreach
  attends := hattends
  receiver := hreceiver
  serves := by
    obtain ⟨arrived, past, hserves⟩ := hserves
    exact ⟨arrived, past, hserves.imp fun hspares ↦ (forall_spares_concat.mp hspares).1⟩
  work := by
    have hwork := h.work
    rw [countP_isOwn_concat, hmove, Bool.toNat_true]
    omega

theorem Tells.serve (h : Tells build me count first beats middle)
    (hmove : middle.move? build me count .serve = some last) :
    Tells build me count first (beats ++ [⟨middle, .serve, last⟩]) last := by
  obtain ⟨hstep, hsource⟩ := of_move?_serve hmove
  obtain ⟨deed, hdeed, hworld, _⟩ := Desk.exists_deed_of_step? hstep
  have hreach : YieldLock.Reachable build last.desk.world :=
    hworld ▸ reachable_of_perform? hdeed h.reachable
  obtain ⟨arrived, past, hserves⟩ := h.serves
  obtain ⟨hreceives | hworks, hattends⟩ := Desk.step_cases hstep h.reachable h.attends
  · obtain ⟨_, _, _, hreceive, _⟩ := hreceives.awaits
    exact h.own rfl hreach hattends ((ends_of_receive? hreceive).2.trans h.receiver)
      ⟨arrived, hserves.of_receives hreceives hsource⟩
      (work_lt_of_receives hreceives hsource h.receiver)
  · exact h.own rfl hreach hattends (hworks.channel ▸ h.receiver)
      ⟨arrived, past, hserves.of_works hworks hsource⟩ (work_lt_of_works hworks hsource)

theorem Tells.supply (h : Tells build me count first beats middle)
    (hmove : middle.move? build me count .supply = some last) :
    Tells build me count first (beats ++ [⟨middle, .supply, last⟩]) last := by
  obtain ⟨feed, sent?, hsends, rfl⟩ := of_move?_supply hmove
  obtain ⟨arrived, past, hserves⟩ := h.serves
  have hreceiver : feed.channel.hasReceiver = true := by
    cases hsends with
    | rest _ hnext | send _ _ hnext | refused _ _ hnext | hangUp _ _ hnext =>
      rw [hnext]
      exact h.receiver
  exact h.own rfl h.reachable (h.attends.congr rfl rfl) hreceiver
    ⟨_, past, hserves.of_sends hsends⟩
    (work_lt_of_sends hsends hserves.supplies.within)

theorem Tells.beside (h : Tells build me count first beats middle)
    {move : YieldLock.Move Machine}
    (hmove : middle.move? build me count (.beside move) = some last) :
    Tells build me count first (beats ++ [⟨middle, .beside move, last⟩]) last := by
  obtain ⟨hother, hstarts, world, events, hmade, rfl⟩ := of_move?_beside hmove
  obtain ⟨hattends, heffort⟩ := h.attends.of_others hmade hother hstarts
  obtain ⟨arrived, past, hserves⟩ := h.serves
  refine ⟨h.reachable.move hmade, hattends, h.receiver, ⟨arrived, past, ?_⟩, ?_⟩
  · exact (hserves.of_others hmade).imp forall_spares_concat.mp
  · rw [countP_isOwn_concat]
    exact (Nat.add_le_add_left (Nat.add_le_add_left heffort _) _).trans h.work

theorem History.tells (history : History build me count (start count capacity world) beats last)
    (hreach : YieldLock.Reachable build world) (hidle : (world.thread me).activity = .idle) :
    Tells build me count (start count capacity world) beats last := by
  induction history with
  | nil => exact tells_start count capacity hreach hidle
  | @snoc beats beat history hhappens ih =>
    obtain ⟨before, move, after⟩ := beat
    cases move with
    | serve => exact ih.serve hhappens
    | supply => exact ih.supply hhappens
    | beside move => exact ih.beside hhappens

/-- A controller that has come to its end has received all the events of the source. -/
theorem Tells.of_done (h : Tells build me count first beats last) {handled : UInt64}
    (hdone : last.desk.stage = .done handled) :
    handled = UInt64.ofNat count ∧
      ((∀ beat ∈ beats, beat.spares = true) →
        last.desk.world.lock.value.border =
          if count < 3 then first.desk.world.lock.value.border
          else UInt8.ofNat ((3 * (count / 3) - 1) % 16)) := by
  obtain ⟨arrived, past, hsupplies, haccounts, hplain, hhandled, hborder⟩ := h.serves
  rw [Desk.Accounts, hdone] at haccounts
  change arrived = past ++ .quit :: last.desk.channel.events ∨
    arrived = past ∧ last.desk.channel.events = [] ∧
      last.desk.channel.hasSender = false at haccounts
  have hpast : past = (List.range count).map EventSource.eventAt := by
    obtain harrived | ⟨rfl, _, hgone⟩ := haccounts
    · obtain ⟨unsent, hsplit⟩ := hsupplies.isPrefix
      rw [harrived, List.append_assoc, List.cons_append] at hsplit
      have hlength := (EventSource.of_sequence_eq hsplit.symm).2.mp rfl
      have hstart : past = (EventSource.sequence count).take count := by
        rw [← hsplit, ← hlength, List.take_left]
      rw [hstart, EventSource.sequence, List.take_append_of_le_length (by simp),
        List.take_of_length_le (by simp)]
    · -- A source that has hung up has sent the wish to quit, and that was received.
      have hall := hsupplies.eq_of_gone hgone h.receiver
      exact absurd rfl (hplain .quit (hall ▸ List.mem_concat_self))
  rw [hdone] at hhandled hborder
  have hlength : past.length = count := by rw [hpast, List.length_map, List.length_range]
  refine ⟨?_, fun hspared ↦ ?_⟩
  · rw [← hlength, ← hhandled]
    exact (UInt64.add_zero handled).symm
  · rw [← EventSource.borderAfter_events, ← hpast]
    exact hborder hspared

/-- Until the controller has come to its end, it goes on or the source does, unless the controller
waits for the lock. -/
theorem Tells.exists_own_move (h : Tells build me count first beats last)
    (hdone : ∀ handled, last.desk.stage ≠ .done handled)
    (hroom : last.desk.world.hasRoomFor [me] = true)
    (hfree : last.desk.world.isHeldUp me = false) :
    ∃ beat : Beat, beat.Happens build me count ∧ beat.before = last ∧ beat.isOwn = true := by
  obtain ⟨next, hsend⟩ | hreceive := last.feed.exists_send?_or_receive? count h.receiver
  · have hmove : ∃ after, last.move? build me count .supply = some after :=
      ⟨_, Option.map_eq_some_iff.mpr ⟨next, hsend, rfl⟩⟩
    obtain ⟨after, hmove⟩ := hmove
    exact ⟨⟨last, .supply, after⟩, hmove, rfl, rfl⟩
  · obtain ⟨next, hstep⟩ :=
      Desk.exists_step? h.reachable h.attends hroom hdone hfree fun _ _ ↦ hreceive
    have hmove : ∃ after, last.move? build me count .serve = some after :=
      ⟨_, Option.map_eq_some_iff.mpr ⟨next, hstep, rfl⟩⟩
    obtain ⟨after, hmove⟩ := hmove
    exact ⟨⟨last, .serve, after⟩, hmove, rfl, rfl⟩

/-- There is so much to do for the controller and the source. -/
theorem work_start_le (me : Thread) (count : Nat) (capacity : Option Nat) (world : World Machine) :
    (start count capacity world).work me count ≤ 32 * count + 59 := by
  have hfeed : (start count capacity world).feed.work count ≤ 4 * count + 7 :=
    EventSource.Feed.work_start_le count capacity none
  have heffort : (start count capacity world).desk.effort me = 3 := rfl
  rw [work, heffort]
  omega

theorem History.append (history : History build me count first beats middle)
    (more : History build me count middle others last) :
    History build me count first (beats ++ others) last := by
  induction more with
  | nil => rwa [List.append_nil]
  | snoc more hhappens ih =>
    rw [← List.append_assoc]
    exact .snoc ih hhappens

theorem history_of_history? {moves : List Move}
    (h : first.history? build me count moves = some (beats, last)) :
    History build me count first beats last := by
  induction moves generalizing first beats with
  | nil =>
    cases h
    exact .nil
  | cons move moves ih =>
    obtain ⟨next, hmove, hlater⟩ := Option.bind_eq_some_iff.mp h
    obtain ⟨⟨beats, final⟩, hhistory, hlast⟩ := Option.map_eq_some_iff.mp hlater
    cases hlast
    let beat : Beat := ⟨first, move, next⟩
    have hhappens : beat.Happens build me count := hmove
    exact (History.snoc .nil hhappens).append (ih hhistory)

end

end Service

end Controller

open EventSource in
/-- Whoever receives the events of a source, at a channel of any capacity, gets a beginning of its
sequence, and at the end all of it or as much as it wanted to take, unless it went away before. A
source without a receiver stops when it offers an event, and it offers the wish to quit only after
all the events were sent. A controller on any thread that is fed by a source, while others use the
lock and write the machine, ends only after it has served all the events of the source, and the
border is then as the last of them leaves it if nobody else paints it. Until then one of the two can
go on unless the controller waits for the lock, and they come to an end. -/
theorem source_and_controller_fit (count : UInt64) :
    (∀ (capacity take : Option Nat) (beats : List Feed.Beat) (feed : Feed),
      Feed.History count.toNat (.start count.toNat capacity take) beats feed →
      feed.taken.reverse <+: sequence count.toNat ∧
      ((∀ beat ∈ beats, beat.move ≠ .leave) → feed.IsStuck count.toNat →
        feed.taken.reverse = take.elim (sequence count.toNat) (sequence count.toNat).take) ∧
      beats.length ≤ 4 * count.toNat + 7 ∧
      (∀ event, (program count.toNat .zero).action feed.stage = .send event →
        feed.channel.hasReceiver = false →
        feed.send? count.toNat = some { feed with stage := .stopped }) ∧
      ((program count.toNat .zero).action feed.stage = .send .quit →
        beats.filterMap (Feed.Beat.sent? count.toNat) =
          (List.range count.toNat).map eventAt)) ∧
    (∀ (build : Build) (me : Thread) (capacity : Option Nat) (world : World Machine)
      (beats : List Controller.Service.Beat) (last : Controller.Service),
      YieldLock.Reachable build world → (world.thread me).activity = .idle →
      Controller.Service.History build me count.toNat (.start count.toNat capacity world)
        beats last →
      (∀ handled, last.desk.stage = .done handled → handled = count ∧
        ((∀ beat ∈ beats, beat.spares = true) → last.desk.world.lock.value.border =
          if count.toNat < 3 then world.lock.value.border
          else UInt8.ofNat ((3 * (count.toNat / 3) - 1) % 16))) ∧
      ((∀ handled, last.desk.stage ≠ .done handled) → last.desk.world.hasRoomFor [me] = true →
        last.desk.world.isHeldUp me = false →
        ∃ beat : Controller.Service.Beat,
          beat.Happens build me count.toNat ∧ beat.before = last ∧ beat.isOwn = true) ∧
      beats.countP Controller.Service.Beat.isOwn ≤ 32 * count.toNat + 59) := by
  refine ⟨fun capacity take beats feed history ↦ ?_,
    fun build me capacity world beats last hreach hidle history ↦ ?_⟩
  · have htells := history.tells
    refine ⟨(List.prefix_append ..).trans (htells.passed ▸ htells.supplies.isPrefix),
      Feed.taken_of_isStuck history, ?_, fun event ↦ ?_, history.sent_of_quit⟩
    · exact (Nat.le_add_right ..).trans history.length_le
    · exact Feed.send?_of_refused
  · have htells := history.tells hreach hidle
    refine ⟨fun handled hdone ↦ ?_, htells.exists_own_move, ?_⟩
    · obtain ⟨hhandled, hborder⟩ := htells.of_done hdone
      exact ⟨hhandled.trans UInt64.ofNat_toNat, hborder⟩
    · exact (Nat.le_add_right ..).trans
        (htells.work.trans (Controller.Service.work_start_le me _ capacity world))

open EventSource in
/-- A receiver that stays gets the three events and the wish to quit, at a channel without room. If
it goes away after the first event the source stops at the second one. A worker that is fed by the
source serves three events and leaves the border in the colour of the third. -/
theorem source_and_controller_fit_of_three :
    (∃ beats feed, Feed.History 3 (.start 3 (some 0) none) beats feed ∧
      feed.taken.reverse = [.inspect, .inspect, .poke 2, .quit]) ∧
    (∃ beats feed, Feed.History 3 (.start 3 none none) beats feed ∧ feed.taken = [.inspect] ∧
      feed.send? 3 = some { feed with stage := .stopped }) ∧
    ∃ (world : World Machine) (beats : List Controller.Service.Beat)
      (last : Controller.Service), world.lock.worker = some "worker" ∧
      Controller.Service.History .checked "worker" 3 (.start 3 (some 1) world) beats last ∧
      last.desk.stage = .done 3 ∧ last.desk.world.lock.value.border = 2 := by
  obtain ⟨hreceives, hserves⟩ := source_and_controller_fit 3
  refine ⟨?_, ?_, ?_⟩
  · have hplay : ∃ played ∈ Feed.history? 3 (.start 3 (some 0) none)
          [.send, .take, .send, .take, .send, .take, .send, .take, .send, .take, .send, .take,
            .take, .send, .take, .send, .take],
        played.2.IsStuck 3 ∧ ∀ beat ∈ played.1, beat.move ≠ .leave := by
      unfold Feed.IsStuck
      decide +kernel
    obtain ⟨⟨beats, feed⟩, hplayed, hstuck, hnever⟩ := hplay
    have history : Feed.History 3 (.start 3 (some 0) none) beats feed :=
      Feed.history_of_history? hplayed
    obtain ⟨_, hall, _⟩ := hreceives (some 0) none beats feed history
    exact ⟨beats, feed, history, hall hnever hstuck⟩
  · have hplay : ∃ played ∈ Feed.history? 3 (.start 3 none none)
          [.send, .send, .take, .leave, .send],
        played.2.taken = [.inspect] ∧ played.2.channel.hasReceiver = false ∧
          (program 3 .zero).action played.2.stage = .send .inspect := by
      decide +kernel
    obtain ⟨⟨beats, feed⟩, hplayed, htaken, hgone, hoffers⟩ := hplay
    have history : Feed.History 3 (.start 3 none none) beats feed :=
      Feed.history_of_history? hplayed
    obtain ⟨_, _, _, hstops, _⟩ := hreceives none none beats feed history
    exact ⟨beats, feed, history, htaken, hstops .inspect hoffers hgone⟩
  · let new : World Machine := { lock := .standard .checked { border := 9 } }
    let moves : List Controller.Service.Move :=
      [.supply, .supply] ++ List.replicate 6 .serve ++
        [.beside (.call "main" .requestShutdown), .supply, .supply] ++
        List.replicate 6 .serve ++ [.supply, .supply] ++ List.replicate 7 .serve ++ [.supply] ++
        List.replicate 2 .serve
    have hplay : ∃ adopting ∈ new.move? .checked (.call "worker" .adopt),
        ∃ adopted ∈ adopting.1.move? .checked (.step "worker"),
        ∃ played ∈ (Controller.Service.start 3 (some 1) adopted.1).history? .checked "worker" 3
          moves,
        (adopted.1.thread "worker").activity = .idle ∧
          adopted.1.lock.worker = some "worker" ∧ played.2.desk.stage = .done 3 ∧
          ∀ beat ∈ played.1, beat.spares = true := by
      decide +kernel
    obtain ⟨adopting, hadopting, ⟨world, events⟩, hadopted, ⟨beats, last⟩, hplayed, hidle, hworker,
      hdone, hspares⟩ := hplay
    have hnew : new.IsNew := ⟨.standard .checked ({ border := 9 } : Machine), rfl⟩
    have hreach : YieldLock.Reachable .checked world :=
      ((Run.nil.reachable hnew).move hadopting).move hadopted
    have history : Controller.Service.History .checked "worker" 3 (.start 3 (some 1) world) beats
      last := Controller.Service.history_of_history? hplayed
    obtain ⟨hends, _⟩ := hserves .checked "worker" (some 1) world beats last hreach hidle history
    obtain ⟨_, hborder⟩ := hends 3 hdone
    exact ⟨world, beats, last, hworker, history, hdone, hborder hspares⟩

end YieldLock.Demo
