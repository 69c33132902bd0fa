import YieldLock.Proofs.Feed

/-!
# A source and whoever receives its events

A receiver may take events whenever it likes, wait for more, or go away. What it has
taken, what is on the way and what the source has left make up the sequence of the
source. Main statements: `Feed.History.tells`, which says so of all that can happen,
`Feed.History.length_le`, the two come to an end, `Feed.taken_of_isStuck`, what a
receiver has then, and `received_eq`, what it has when both are executed.
-/

namespace YieldLock.Demo

/-- How much can still happen at a channel without a further event: its ends go away, its events are
taken, and a receiver begins to wait. -/
def Channel.work (channel : Channel) : Nat :=
  channel.hasSender.toNat + channel.events.length + channel.hasReceiver.toNat +
    (channel.hasReceiver && !channel.isAwaited).toNat

namespace EventSource

/-- What a source offers after so many events. -/
def offerAt (count index : Nat) : UiEvent := if index < count then eventAt index else .quit

/-- An event costs a rest, an offer, and what the receiver does about it. -/
def Stage.work (count : Nat) : Stage → Nat
  | resting index => 4 * (count + 1 - index)
  | offering index => 4 * (count + 1 - index) - 1
  | stopped => 0

/-- What a source has sent is the beginning of its sequence, and it has left all the rest, unless it
has stopped because there was no receiver. -/
structure Supplies (count : Nat) (sent : List UiEvent) (channel : Channel) (stage : Stage) :
    Prop where
  within : stage.IsWithin count
  split : ∃ unsent, sequence count = sent ++ unsent ∧
    (stage ≠ .stopped ∨ channel.hasReceiver = true → unsent = stage.left count)
  sender : channel.hasSender = false → stage = .stopped

section

variable {count : Nat} {sent : List UiEvent} {channel after : Channel} {stage : Stage}

theorem supplies_start (count : Nat) (capacity : Option Nat) :
    Supplies count [] { capacity } (stageAt count 0) where
  within := isWithin_stageAt (Nat.zero_le count)
  split := ⟨sequence count, rfl, fun _ ↦ by rw [left_stageAt, List.drop_zero]⟩
  sender := nofun

theorem Supplies.isPrefix (h : Supplies count sent channel stage) : sent <+: sequence count := by
  obtain ⟨unsent, hsplit, _⟩ := h.split
  exact ⟨unsent, hsplit.symm⟩

/-- What a receiver does leaves the source as it is. -/
theorem Supplies.congr (h : Supplies count sent channel stage)
    (hsender : after.hasSender = channel.hasSender)
    (hreceiver : after.hasReceiver = true → channel.hasReceiver = true) :
    Supplies count sent after stage where
  within := h.within
  split := by
    obtain ⟨unsent, hsplit, hleft⟩ := h.split
    exact ⟨unsent, hsplit, fun hstays ↦ hleft (hstays.imp id hreceiver)⟩
  sender hgone := h.sender (hsender ▸ hgone)

/-- A source that has gone while there was a receiver has sent everything. -/
theorem Supplies.eq_of_gone (h : Supplies count sent channel stage)
    (hsender : channel.hasSender = false) (hreceiver : channel.hasReceiver = true) :
    sent = sequence count := by
  obtain ⟨unsent, hsplit, hleft⟩ := h.split
  rw [hleft (.inr hreceiver), h.sender hsender] at hsplit
  exact (hsplit.trans (List.append_nil sent)).symm

/-- All events have been sent before the wish to quit is offered. -/
theorem Supplies.eq_of_offering (h : Supplies count sent channel (.offering count)) :
    sent = (List.range count).map eventAt := by
  obtain ⟨unsent, hsplit, hleft⟩ := h.split
  rw [hleft (.inl nofun), Stage.left, drop_sequence (Nat.le_refl count),
    if_neg (Nat.lt_irrefl count), List.drop_of_length_le (by rw [length_sequence])] at hsplit
  exact (List.append_cancel_right hsplit).symm

theorem offerAt_eq_quit_iff {index : Nat} (h : index ≤ count) :
    offerAt count index = .quit ↔ index = count := by
  unfold offerAt
  split
  · exact iff_of_false (eventAt_ne_quit index) (by omega)
  · exact iff_of_true rfl (by omega)

/-- The stage after an event was sent costs less, by more than the event on the way. -/
theorem work_next {index : Nat} (h : index ≤ count) :
    (if index < count then stageAt count (index + 1) else Stage.stopped).work count + 3 ≤
      (Stage.offering index).work count := by
  unfold stageAt
  split
  · split <;> simp only [Stage.work] <;> omega
  · simp only [Stage.work]
    omega

end

namespace Feed

/-- All that a step of the source can do, with the event that comes into the channel. -/
inductive Sends (count : Nat) (feed next : Feed) : Option UiEvent → Prop where
  | rest {index : Nat} (hstage : feed.stage = .resting index)
      (hnext : next = { feed with stage := .offering index }) : Sends count feed next none
  | send {index : Nat} (hstage : feed.stage = .offering index)
      (hreceiver : feed.channel.hasReceiver = true)
      (hnext : next = { feed with
        channel := { feed.channel with
          events := feed.channel.events ++ [offerAt count index]
          isAwaited := false }
        stage := if index < count then stageAt count (index + 1) else .stopped }) :
      Sends count feed next (some (offerAt count index))
  | refused {index : Nat} (hstage : feed.stage = .offering index)
      (hreceiver : feed.channel.hasReceiver = false)
      (hnext : next = { feed with stage := .stopped }) : Sends count feed next none
  | hangUp (hstage : feed.stage = .stopped) (hsender : feed.channel.hasSender = true)
      (hnext : next = { feed with channel := feed.channel.dropSender }) :
      Sends count feed next none

/-- All that a step of a receiver can do. -/
inductive Takes (feed next : Feed) : Prop where
  | receive {event : UiEvent} {events : List UiEvent} (hleft : feed.left ≠ some 0)
      (hevents : feed.channel.events = event :: events)
      (hnext : next = { feed with
        channel := { feed.channel with events }
        taken := event :: feed.taken
        left := feed.left.map (· - 1) })
  | enough (hleft : feed.left = some 0)
      (hnext : next = { feed with channel := feed.channel.dropReceiver })
  | finish (hleft : feed.left ≠ some 0) (hevents : feed.channel.events = [])
      (hsender : feed.channel.hasSender = false)
      (hnext : next = { feed with channel := feed.channel.dropReceiver })
  | await (hleft : feed.left ≠ some 0) (hevents : feed.channel.events = [])
      (hawaited : feed.channel.isAwaited = false)
      (hnext : next = { feed with channel := { feed.channel with isAwaited := true } })

/-- How much can still happen between a source and a receiver. -/
def work (count : Nat) (feed : Feed) : Nat := feed.stage.work count + feed.channel.work

section

variable {count : Nat} {feed next : Feed} {sent : List UiEvent} {sent? : Option UiEvent}

theorem exists_sends_of_send? (h : feed.send? count = some next) :
    ∃ sent?, Sends count feed next sent? := by
  unfold send? at h
  cases hstage : feed.stage with
  | resting index =>
    rw [hstage] at h
    cases h
    exact ⟨none, .rest hstage rfl⟩
  | offering index =>
    rw [hstage] at h
    obtain ⟨⟨isReceived, channel⟩, hsend, hnext⟩ := Option.map_eq_some_iff.mp h
    cases hnext
    unfold Channel.send? at hsend
    split at hsend
    · rename_i hreceiver
      cases hsend
      exact ⟨none, .refused hstage (by simpa using hreceiver) rfl⟩
    · rename_i hreceiver
      split at hsend
      · cases hsend
        exact ⟨_, .send hstage (by simpa using hreceiver) rfl⟩
      · cases hsend
  | stopped =>
    rw [hstage] at h
    simp only [program] at h
    split at h
    · rename_i hsender
      cases h
      exact ⟨none, .hangUp hstage hsender (by rw [hstage])⟩
    · cases h

theorem takes_of_take? (h : feed.take? = some next) :
    feed.channel.hasReceiver = true ∧ Takes feed next := by
  unfold take? at h
  split at h
  · cases h
  · rename_i hreceiver
    refine ⟨by simpa using hreceiver, ?_⟩
    split at h
    · rename_i hleft
      cases h
      exact .enough hleft rfl
    · rename_i hleft
      obtain ⟨⟨delivery, channel⟩, hreceive, hnext⟩ := Option.map_eq_some_iff.mp h
      unfold Channel.receive? at hreceive
      split at hreceive
      · rename_i event events hevents
        cases hreceive
        cases hnext
        exact .receive hleft hevents rfl
      · rename_i hevents
        split at hreceive
        · rename_i hsender
          cases hreceive
          cases hnext
          exact .finish hleft hevents (by simpa using hsender) rfl
        · split at hreceive
          · rename_i hawaited
            cases hreceive
            cases hnext
            exact .await hleft hevents (by simpa using (Bool.and_eq_true_iff.mp hawaited).2) rfl
          · cases hreceive

/-- A step of the source takes what comes into the channel from what it has left. -/
theorem Sends.supplies (h : Sends count feed next sent?)
    (hsupplies : Supplies count sent feed.channel feed.stage) :
    Supplies count (sent ++ sent?.toList) next.channel next.stage := by
  obtain ⟨hwithin, ⟨unsent, hsplit, hleft⟩, hsender⟩ := hsupplies
  cases h with
  | rest hstage hnext =>
    subst hnext
    rw [hstage] at hwithin hleft hsender
    refine ⟨Nat.le_of_lt hwithin, ⟨unsent, ?_, fun _ ↦ hleft (.inl nofun)⟩, ?_⟩
    · rw [Option.toList_none, List.append_nil, hsplit]
    · exact fun hgone ↦ nomatch hsender hgone
  | @send index hstage hreceiver hnext =>
    subst hnext
    rw [hstage] at hwithin hleft hsender
    have hle : index ≤ count := hwithin
    have hunsent : unsent = offerAt count index :: (sequence count).drop (index + 1) :=
      (hleft (.inl nofun)).trans (drop_sequence hle)
    rw [hunsent] at hsplit
    refine ⟨?_, ⟨(sequence count).drop (index + 1), ?_, fun _ ↦ (left_next hle).symm⟩, ?_⟩
    · simp only
      split
      · exact isWithin_stageAt ‹_›
      · trivial
    · exact hsplit.trans (List.append_cons ..)
    · exact fun hgone ↦ nomatch hsender hgone
  | refused hstage hreceiver hnext =>
    subst hnext
    refine ⟨trivial, ⟨unsent, ?_, ?_⟩, fun _ ↦ rfl⟩
    · rw [Option.toList_none, List.append_nil, hsplit]
    · rintro (hstopped | hstays)
      · exact absurd rfl hstopped
      · cases hreceiver.symm.trans hstays
  | hangUp hstage _ hnext =>
    subst hnext
    exact ⟨hwithin, ⟨unsent, by rw [Option.toList_none, List.append_nil, hsplit], hleft⟩,
      fun _ ↦ hstage⟩

theorem Sends.work_lt (h : Sends count feed next sent?) (hwithin : feed.stage.IsWithin count) :
    next.work count < feed.work count := by
  cases h with
  | @rest index hstage hnext =>
    subst hnext
    rw [hstage] at hwithin
    have hlt : index < count := hwithin
    simp only [work, hstage, Stage.work]
    omega
  | @send index hstage hreceiver hnext =>
    subst hnext
    rw [hstage] at hwithin
    have hless := work_next (show index ≤ count from hwithin)
    simp only [work, Channel.work, hstage, hreceiver, List.length_append, List.length_singleton,
      Bool.not_false, Bool.and_true, Bool.toNat_true]
    omega
  | @refused index hstage _ hnext =>
    subst hnext
    rw [hstage] at hwithin
    have hle : index ≤ count := hwithin
    simp only [work, hstage, Stage.work]
    omega
  | hangUp _ hsender hnext =>
    subst hnext
    simp only [work, Channel.work, Channel.dropSender, hsender, Bool.toNat_false, Bool.toNat_true]
    omega

theorem Takes.work_lt (h : Takes feed next) (hreceiver : feed.channel.hasReceiver = true) :
    next.work count < feed.work count := by
  cases h with
  | receive _ hevents hnext =>
    subst hnext
    simp only [work, Channel.work, hevents, List.length_cons]
    omega
  | enough _ hnext | finish _ _ _ hnext =>
    subst hnext
    simp only [work, Channel.work, Channel.dropReceiver, hreceiver, Bool.false_and,
      Bool.toNat_false, Bool.toNat_true]
    omega
  | await _ _ hfalse hnext =>
    subst hnext
    simp only [work, Channel.work, hreceiver, hfalse, Bool.not_true, Bool.not_false, Bool.and_true,
      Bool.and_false, Bool.toNat_true, Bool.toNat_false]
    omega

/-- While there is a receiver, the source can go on or something can be received. -/
theorem exists_send?_or_receive? (count : Nat) (hreceiver : feed.channel.hasReceiver = true) :
    (∃ next, feed.send? count = some next) ∨ ∃ result, feed.channel.receive? = some result := by
  obtain ⟨⟨events, capacity, hasSender, hasReceiver, isAwaited⟩, stage, taken, left⟩ := feed
  obtain rfl : hasReceiver = true := hreceiver
  cases events with
  | cons event events => exact .inr ⟨_, rfl⟩
  | nil =>
    cases hasSender with
    | false => exact .inr ⟨_, rfl⟩
    | true =>
      cases stage with
      | resting | stopped => exact .inl ⟨_, rfl⟩
      | offering =>
        match capacity, isAwaited with
        | none, _ | some 0, true | some (_ + 1), _ => exact .inl ⟨_, rfl⟩
        | some 0, false => exact .inr ⟨_, rfl⟩

end

/-- What happens between a source and a receiver: one of them goes on, or the receiver goes away. -/
inductive Move where
  | send
  | take
  | leave
  deriving DecidableEq, Repr

def move? (count : Nat) (feed : Feed) : Move → Option Feed
  | .send => feed.send? count
  | .take => feed.take?
  | .leave =>
    if feed.channel.hasReceiver then some { feed with channel := feed.channel.dropReceiver }
    else none

/-- A source about to begin, and a receiver that takes a number of events, or all. -/
def start (count : Nat) (capacity take : Option Nat) : Feed :=
  { channel := { capacity }, stage := stageAt count 0, left := take }

/-- Neither the source nor the receiver can go on. -/
def IsStuck (count : Nat) (feed : Feed) : Prop :=
  feed.send? count = none ∧ feed.take? = none

/-- One thing that happens, with the two before and after it. -/
structure Beat where
  before : Feed
  move : Move
  after : Feed
  deriving DecidableEq, Repr

namespace Beat

def Happens (count : Nat) (beat : Beat) : Prop :=
  beat.before.move? count beat.move = some beat.after

/-- The event that the source offers, if it does. -/
def offered? (count : Nat) (beat : Beat) : Option UiEvent :=
  match beat.move, beat.before.stage with
  | .send, .offering index => some (offerAt count index)
  | _, _ => none

/-- The event that comes into the channel, if one does. -/
def sent? (count : Nat) (beat : Beat) : Option UiEvent :=
  if beat.before.channel.hasReceiver then beat.offered? count else none

end Beat

/-- All that has happened between a source and a receiver, in any order. -/
inductive History (count : Nat) (first : Feed) : List Beat → Feed → Prop where
  | nil : History count first [] first
  | snoc {beats : List Beat} {beat : Beat} (history : History count first beats beat.before)
      (hhappens : beat.Happens count) : History count first (beats ++ [beat]) beat.after

/-- Lets things happen one after the other if each can, and tells what has happened. -/
def history? (count : Nat) (feed : Feed) : List Move → Option (List Beat × Feed)
  | [] => some ([], feed)
  | move :: moves =>
    (feed.move? count move).bind fun next ↦
      (next.history? count moves).map fun (beats, last) ↦ (⟨feed, move, next⟩ :: beats, last)

/-- What was sent has been taken or is on the way. -/
structure Tells (count : Nat) (sent : List UiEvent) (feed : Feed) : Prop where
  supplies : Supplies count sent feed.channel feed.stage
  passed : sent = feed.taken.reverse ++ feed.channel.events

section

variable {count : Nat} {first middle last : Feed} {beat : Beat} {beats others : List Beat}
  {sent : List UiEvent} {capacity take : Option Nat}

theorem History.append (history : History count first beats middle)
    (more : History count middle others last) : History count first (beats ++ others) last := by
  induction more with
  | nil => rwa [List.append_nil]
  | snoc more hhappens ih =>
    rw [← List.append_assoc]
    exact .snoc ih hhappens

theorem history_of_history? {moves : List Move}
    (h : first.history? count moves = some (beats, last)) : History count first beats last := by
  induction moves generalizing first beats with
  | nil =>
    cases h
    exact .nil
  | cons move moves ih =>
    obtain ⟨next, hmove, hlater⟩ := Option.bind_eq_some_iff.mp h
    obtain ⟨⟨beats, final⟩, hhistory, hlast⟩ := Option.map_eq_some_iff.mp hlater
    cases hlast
    let beat : Beat := ⟨first, move, next⟩
    have hhappens : beat.Happens count := hmove
    exact (History.snoc .nil hhappens).append (ih hhistory)

theorem tells_start (count : Nat) (capacity take : Option Nat) :
    Tells count [] (start count capacity take) where
  supplies := supplies_start count capacity
  passed := rfl

theorem Beat.Happens.sends (h : beat.Happens count) (hmove : beat.move = .send) :
    Sends count beat.before beat.after (beat.sent? count) := by
  rw [Beat.Happens, hmove] at h
  obtain ⟨sent?, hsends⟩ := exists_sends_of_send? h
  have hsent : beat.sent? count = sent? := by
    unfold Beat.sent? Beat.offered?
    rw [hmove]
    cases hsends with
    | rest hstage | hangUp hstage =>
      rw [hstage]
      split <;> rfl
    | send hstage hreceiver =>
      rw [hstage, hreceiver]
      rfl
    | refused hstage hreceiver =>
      rw [hreceiver]
      rfl
  rwa [hsent]

theorem Beat.sent?_eq_none (hmove : beat.move ≠ .send) : beat.sent? count = none := by
  have hnone : beat.offered? count = none := by
    unfold Beat.offered?
    split
    · exact absurd ‹_› hmove
    · rfl
  rw [Beat.sent?, hnone, ite_self]

theorem Beat.Happens.tells (h : beat.Happens count) (htells : Tells count sent beat.before) :
    Tells count (sent ++ (beat.sent? count).toList) beat.after := by
  obtain ⟨hsupplies, hpassed⟩ := htells
  by_cases hmove : beat.move = .send
  · have hsends := h.sends hmove
    refine ⟨hsends.supplies hsupplies, ?_⟩
    rw [hpassed]
    generalize beat.sent? count = sent? at hsends
    cases hsends with
    | rest _ hnext | refused _ _ hnext | hangUp _ _ hnext =>
      rw [hnext]
      exact List.append_nil _
    | send _ _ hnext =>
      rw [hnext]
      exact List.append_assoc ..
  · rw [Beat.sent?_eq_none hmove, Option.toList_none, List.append_nil]
    cases hkind : beat.move with
    | send => exact absurd hkind hmove
    | take =>
      rw [Beat.Happens, hkind] at h
      obtain ⟨_, htakes⟩ := takes_of_take? h
      cases htakes with
      | receive _ hevents hnext =>
        rw [hnext]
        refine ⟨hsupplies.congr rfl id, ?_⟩
        rw [hpassed, hevents, List.reverse_cons, List.append_assoc]
        rfl
      | enough _ hnext | finish _ _ _ hnext =>
        rw [hnext]
        exact ⟨hsupplies.congr rfl nofun, hpassed⟩
      | await _ _ _ hnext =>
        rw [hnext]
        exact ⟨hsupplies.congr rfl id, hpassed⟩
    | leave =>
      rw [Beat.Happens, hkind] at h
      unfold move? at h
      simp only at h
      split at h
      · rw [← Option.some_inj.mp h]
        exact ⟨hsupplies.congr rfl nofun, hpassed⟩
      · cases h

theorem filterMap_singleton_toList (f : Beat → Option UiEvent) :
    [beat].filterMap f = (f beat).toList := by
  rw [List.filterMap_cons]
  cases f beat <;> rfl

/-- What a receiver has taken and what is on the way is what the source has sent. -/
theorem History.tells (history : History count (start count capacity take) beats last) :
    Tells count (beats.filterMap (Beat.sent? count)) last := by
  induction history with
  | nil => exact tells_start count capacity take
  | snoc _ hhappens ih =>
    rw [List.filterMap_append, filterMap_singleton_toList]
    exact hhappens.tells ih

theorem Beat.Happens.work_lt (h : beat.Happens count)
    (hwithin : beat.before.stage.IsWithin count) :
    beat.after.work count < beat.before.work count := by
  cases hkind : beat.move with
  | send => exact (h.sends hkind).work_lt hwithin
  | take =>
    rw [Beat.Happens, hkind] at h
    obtain ⟨hreceiver, htakes⟩ := takes_of_take? h
    exact htakes.work_lt hreceiver
  | leave =>
    rw [Beat.Happens, hkind] at h
    unfold move? at h
    simp only at h
    split at h
    · rename_i hreceiver
      rw [← Option.some_inj.mp h]
      simp only [work, Channel.work, Channel.dropReceiver, hreceiver, Bool.false_and,
        Bool.toNat_false, Bool.toNat_true]
      omega
    · cases h

theorem work_start_le (count : Nat) (capacity take : Option Nat) :
    (start count capacity take).work count ≤ 4 * count + 7 := by
  have hstage : (stageAt count 0).work count ≤ 4 * (count + 1) := by
    unfold stageAt
    split <;> simp only [Stage.work] <;> omega
  have hchannel : Channel.work { capacity } = 3 := rfl
  simp only [work, start, hchannel]
  omega

/-- The source and a receiver come to an end, in whatever order they go on. -/
theorem History.length_le (history : History count (start count capacity take) beats last) :
    beats.length + last.work count ≤ 4 * count + 7 := by
  induction history with
  | nil =>
    rw [List.length_nil, Nat.zero_add]
    exact work_start_le count capacity take
  | snoc history hhappens ih =>
    have hless := hhappens.work_lt history.tells.supplies.within
    rw [List.length_append, List.length_singleton]
    omega

/-- The wish to quit is offered after all the events were sent. -/
theorem History.sent_of_quit (history : History count (start count capacity take) beats last)
    (hquit : (program count .zero).action last.stage = .send .quit) :
    beats.filterMap (Beat.sent? count) = (List.range count).map eventAt := by
  have hsupplies := history.tells.supplies
  cases hstage : last.stage with
  | resting | stopped =>
    rw [hstage] at hquit
    cases hquit
  | offering index =>
    rw [hstage] at hquit hsupplies
    have hoffer : offerAt count index = .quit := Action.send.inj hquit
    rw [(offerAt_eq_quit_iff hsupplies.within).mp hoffer] at hsupplies
    exact hsupplies.eq_of_offering

/-- A source whose receiver has gone stops when it offers an event. -/
theorem send?_of_refused {event : UiEvent}
    (hoffers : (program count .zero).action last.stage = .send event)
    (hgone : last.channel.hasReceiver = false) :
    last.send? count = some { last with stage := .stopped } := by
  cases hstage : last.stage with
  | resting | stopped =>
    rw [hstage] at hoffers
    cases hoffers
  | offering index =>
    unfold send? Channel.send?
    rw [hstage, hgone]
    rfl

/-- What a receiver has that goes away only when it has enough or all. -/
structure Stays (count : Nat) (take : Option Nat) (feed : Feed) : Prop where
  left : feed.left = take.map (· - feed.taken.length)
  atMost : ∀ number ∈ take, feed.taken.length ≤ number
  staying : feed.channel.hasReceiver = true ∨ feed.left = some 0 ∨
    feed.taken.reverse = sequence count

theorem Takes.stays {feed next : Feed} (h : Takes feed next) (htells : Tells count sent feed)
    (hreceiver : feed.channel.hasReceiver = true) (hstays : Stays count take feed) :
    Stays count take next := by
  obtain ⟨hleft, hmost, _⟩ := hstays
  cases h with
  | receive hmore _ hnext =>
    rw [hnext]
    refine ⟨?_, fun number hnumber ↦ ?_, .inl hreceiver⟩
    · rw [hleft, Option.map_map]
      rfl
    · have hle := hmost number hnumber
      rw [hleft, hnumber, Option.map_some, Ne, Option.some_inj] at hmore
      rw [List.length_cons]
      omega
  | enough hzero hnext =>
    rw [hnext]
    exact ⟨hleft, hmost, .inr (.inl hzero)⟩
  | finish _ hevents hsender hnext =>
    have hall := htells.supplies.eq_of_gone hsender hreceiver
    rw [htells.passed, hevents, List.append_nil] at hall
    rw [hnext]
    exact ⟨hleft, hmost, .inr (.inr hall)⟩
  | await _ _ _ hnext =>
    rw [hnext]
    exact ⟨hleft, hmost, .inl hreceiver⟩

theorem Sends.stays {feed next : Feed} {sent? : Option UiEvent}
    (h : Sends count feed next sent?) (hstays : Stays count take feed) : Stays count take next := by
  obtain ⟨hleft, hmost, hstaying⟩ := hstays
  cases h with
  | rest _ hnext | send _ _ hnext | refused _ _ hnext | hangUp _ _ hnext =>
    rw [hnext]
    exact ⟨hleft, hmost, hstaying⟩

theorem History.stays (history : History count (start count capacity take) beats last)
    (hnever : ∀ beat ∈ beats, beat.move ≠ .leave) : Stays count take last := by
  induction history with
  | nil => exact ⟨by cases take <;> rfl, fun number _ ↦ Nat.zero_le number, .inl rfl⟩
  | @snoc beats beat history hhappens ih =>
    have hstays := ih fun earlier hmem ↦ hnever earlier (List.mem_append_left [beat] hmem)
    cases hkind : beat.move with
    | send => exact (hhappens.sends hkind).stays hstays
    | take =>
      rw [Beat.Happens, hkind] at hhappens
      obtain ⟨hreceiver, htakes⟩ := takes_of_take? hhappens
      exact htakes.stays history.tells hreceiver hstays
    | leave => exact absurd hkind (hnever beat List.mem_concat_self)

/-- When neither can go on the receiver is gone. -/
theorem IsStuck.hasReceiver_eq (h : IsStuck count last) : last.channel.hasReceiver = false := by
  apply Bool.eq_false_iff.mpr
  intro hreceiver
  obtain ⟨next, hsend⟩ | ⟨result, hreceive⟩ := last.exists_send?_or_receive? count hreceiver
  · cases h.1.symm.trans hsend
  · have hnone := h.2
    unfold take? at hnone
    rw [hreceiver, hreceive] at hnone
    simp only [Bool.not_true, Bool.false_eq_true, if_false] at hnone
    split at hnone <;> cases hnone

/-- A receiver that does not go away before has taken as many events as it wanted, or all. -/
theorem taken_of_isStuck (history : History count (start count capacity take) beats last)
    (hnever : ∀ beat ∈ beats, beat.move ≠ .leave) (hstuck : IsStuck count last) :
    last.taken.reverse = take.elim (sequence count) (sequence count).take := by
  obtain ⟨hleft, hmost, hstaying⟩ := history.stays hnever
  have htells := history.tells
  have hprefix : last.taken.reverse <+: sequence count :=
    (List.prefix_append ..).trans (htells.passed ▸ htells.supplies.isPrefix)
  obtain hreceiver | hzero | hall := hstaying
  · cases hstuck.hasReceiver_eq.symm.trans hreceiver
  · cases take with
    | none => cases hleft.symm.trans hzero
    | some number =>
      have hle := hmost number rfl
      rw [hleft, Option.map_some, Option.some_inj] at hzero
      have hlength : last.taken.reverse.length = number := by
        rw [List.length_reverse]
        omega
      rw [List.prefix_iff_eq_take.mp hprefix, hlength]
      rfl
  · cases take with
    | none => exact hall
    | some number =>
      have hle := hmost number rfl
      rw [hall]
      refine (List.take_of_length_le ?_).symm
      rwa [← hall, List.length_reverse]

theorem isStuck_of_orElse {feed : Feed}
    (h : (feed.take?.orElse fun _ ↦ feed.send? count) = none) : IsStuck count feed :=
  ((Option.orElse_eq_none feed.take? (feed.send? count)).mp h).symm

/-- The move that is executed next. -/
theorem History.executed {feed next : Feed}
    (history : History count (start count capacity take) beats feed)
    (hnever : ∀ beat ∈ beats, beat.move ≠ .leave)
    (hnext : (feed.take?.orElse fun _ ↦ feed.send? count) = some next) :
    (∃ beats, History count (start count capacity take) beats next ∧
      ∀ beat ∈ beats, beat.move ≠ .leave) ∧ next.work count < feed.work count := by
  obtain ⟨move, hmove, hkind⟩ : ∃ move, feed.move? count move = some next ∧ move ≠ .leave := by
    cases htake : feed.take? with
    | none =>
      rw [htake] at hnext
      exact ⟨.send, hnext, nofun⟩
    | some taken =>
      rw [htake] at hnext
      exact ⟨.take, htake.trans hnext, nofun⟩
  let beat : Beat := ⟨feed, move, next⟩
  have hhappens : beat.Happens count := hmove
  refine ⟨⟨_, History.snoc history hhappens, fun other hmem ↦ ?_⟩,
    hhappens.work_lt history.tells.supplies.within⟩
  rw [List.mem_append, List.mem_singleton] at hmem
  obtain hmem | rfl := hmem
  · exact hnever other hmem
  · exact hkind

/-- With enough moves both are executed to their end. -/
theorem History.exists_runWithin {feed : Feed}
    (history : History count (start count capacity take) beats feed)
    (hnever : ∀ beat ∈ beats, beat.move ≠ .leave) {fuel : Nat} (hfuel : feed.work count ≤ fuel) :
    ∃ beats, History count (start count capacity take) beats (feed.runWithin count fuel) ∧
      (∀ beat ∈ beats, beat.move ≠ .leave) ∧ IsStuck count (feed.runWithin count fuel) := by
  induction fuel generalizing feed beats with
  | zero =>
    have hnone : (feed.take?.orElse fun _ ↦ feed.send? count) = none := by
      refine Option.eq_none_iff_forall_ne_some.mpr fun next hnext ↦ ?_
      have hless := (history.executed hnever hnext).2
      omega
    exact ⟨beats, history, hnever, isStuck_of_orElse hnone⟩
  | succ fuel ih =>
    unfold runWithin
    split
    · rename_i next hnext
      obtain ⟨⟨beats, hlater, hnever⟩, hless⟩ := history.executed hnever hnext
      exact ih hlater hnever (by omega)
    · rename_i hnone
      exact ⟨beats, history, hnever, isStuck_of_orElse hnone⟩

end

end Feed

/-- A receiver that is executed gets as many events as it takes, or all. -/
theorem received_eq (count : Nat) (capacity take : Option Nat) :
    received count capacity take = take.elim (sequence count) (sequence count).take := by
  have hfuel : (Feed.start count capacity take).work count ≤ 4 * count + 16 :=
    (Feed.work_start_le count capacity take).trans (by omega)
  obtain ⟨beats, history, hnever, hstuck⟩ :=
    Feed.History.nil.exists_runWithin (List.forall_mem_nil _) hfuel
  exact Feed.taken_of_isStuck history hnever hstuck

end EventSource

end YieldLock.Demo
