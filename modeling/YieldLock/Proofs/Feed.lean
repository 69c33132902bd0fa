import YieldLock.Proofs.Desk

/-!
# Events on their way

An event that the source has sent is in the channel until the main thread takes it,
and the events stay in order. So the main thread knows from the wish to quit that it
has had all the others. Main statements: `Delivers.send` and `Delivers.receive`, how
the events move on, and `Run.MainStride.fed`, the number of events that the main
thread has handled when it waits for the worker is the number of events of the run.
-/

namespace YieldLock.Demo

namespace EventSource

/-- The events that a source has yet to send. -/
def Stage.left (count : Nat) : Stage → List UiEvent
  | resting index | offering index => (sequence count).drop index
  | stopped => []

/-- A source offers no more than its events and the wish to quit. -/
def Stage.IsWithin (count : Nat) : Stage → Prop
  | resting index => index < count
  | offering index => index ≤ count
  | stopped => True

theorem eventAt_ne_quit (index : Nat) : eventAt index ≠ .quit := by
  unfold eventAt
  split <;> nofun

theorem getElem?_sequence {count index : Nat} (h : index ≤ count) :
    (sequence count)[index]? = some (if index < count then eventAt index else .quit) := by
  rw [sequence, List.getElem?_append, List.length_map, List.length_range]
  split
  · rename_i hlt
    rw [List.getElem?_map, List.getElem?_range hlt]
    rfl
  · rename_i hle
    obtain rfl : index = count := by omega
    rw [Nat.sub_self]
    rfl

/-- What a source is about to send is the first of what it has left. -/
theorem drop_sequence {count index : Nat} (h : index ≤ count) :
    (sequence count).drop index =
      (if index < count then eventAt index else .quit) :: (sequence count).drop (index + 1) := by
  have hlt : index < (sequence count).length := by
    rw [length_sequence]
    omega
  have hget := getElem?_sequence h
  rw [List.getElem?_eq_getElem hlt, Option.some_inj] at hget
  rw [List.drop_eq_getElem_cons hlt, hget]

/-- The wish to quit is the last of the events and none of the others. -/
theorem of_sequence_eq {count : Nat} {earlier later : List UiEvent} {event : UiEvent}
    (h : sequence count = earlier ++ event :: later) :
    earlier.length ≤ count ∧ (event = .quit ↔ earlier.length = count) := by
  have hlength := length_sequence count
  rw [h, List.length_append, List.length_cons] at hlength
  have hle : earlier.length ≤ count := by omega
  refine ⟨hle, ?_⟩
  have hget := getElem?_sequence hle
  rw [h, List.getElem?_append_right (Nat.le_refl _), Nat.sub_self, List.getElem?_cons_zero,
    Option.some_inj] at hget
  rw [hget]
  split
  · rename_i hlt
    exact iff_of_false (eventAt_ne_quit _) (Nat.ne_of_lt hlt)
  · exact iff_of_true rfl (by omega)

theorem left_stageAt {count index : Nat} :
    (stageAt count index).left count = (sequence count).drop index := by
  unfold stageAt
  split <;> rfl

/-- After the wish to quit nothing is left. -/
theorem left_next {count index : Nat} (h : index ≤ count) :
    (if index < count then stageAt count (index + 1) else Stage.stopped).left count =
      (sequence count).drop (index + 1) := by
  split
  · exact left_stageAt
  · symm
    apply List.drop_eq_nil_of_le
    rw [length_sequence]
    omega

theorem isWithin_stageAt {count index : Nat} (h : index ≤ count) :
    (stageAt count index).IsWithin count := by
  unfold stageAt
  split
  · exact ‹_›
  · exact h

end EventSource

open EventSource in
/-- A number of events have been received, and those that have not are in the channel or still to
be sent. -/
structure Delivers (count received : Nat) (channel : Channel) (stage : EventSource.Stage) :
    Prop where
  hasSender : channel.hasSender = true
  hasReceiver : channel.hasReceiver = true
  capacity : channel.capacity = some 16
  within : stage.IsWithin count
  split : ∃ earlier : List UiEvent, earlier.length = received ∧
    sequence count = earlier ++ (channel.events ++ stage.left count)

section

variable {count received : Nat} {channel after : Channel} {stage : EventSource.Stage}

/-- Nothing has been received before the source begins. -/
theorem delivers_start (count : Nat) :
    Delivers count 0 .bounded (EventSource.stageAt count 0) where
  hasSender := rfl
  hasReceiver := rfl
  capacity := rfl
  within := EventSource.isWithin_stageAt (Nat.zero_le count)
  split := ⟨[], rfl, by rw [EventSource.left_stageAt]; rfl⟩

/-- A rest before an event moves nothing. -/
theorem Delivers.rest {index : Nat} (h : Delivers count received channel (.resting index)) :
    Delivers count received channel (.offering index) where
  hasSender := h.hasSender
  hasReceiver := h.hasReceiver
  capacity := h.capacity
  within := Nat.le_of_lt h.within
  split := h.split

/-- An event that is sent is the last in the channel. -/
theorem Delivers.send {index : Nat} {isReceived : Bool}
    (h : Delivers count received channel (.offering index))
    (hsend : channel.send? (if index < count then EventSource.eventAt index else .quit) =
      some (isReceived, after)) :
    isReceived = true ∧ Delivers count received after
      (if index < count then EventSource.stageAt count (index + 1) else .stopped) := by
  obtain ⟨earlier, hearlier, hsplit⟩ := h.split
  unfold Channel.send? at hsend
  rw [h.hasReceiver] at hsend
  simp only [Bool.not_true, Bool.false_eq_true, if_false] at hsend
  split at hsend
  · cases hsend
    refine ⟨rfl, h.hasSender, rfl, h.capacity, ?_, earlier, hearlier, ?_⟩
    · split
      · exact EventSource.isWithin_stageAt ‹_›
      · trivial
    · rw [hsplit, EventSource.Stage.left, EventSource.drop_sequence h.within,
        EventSource.left_next h.within, List.append_assoc]
      rfl
  · cases hsend

/-- What is received comes in order, and it is the wish to quit after all the events. -/
theorem Delivers.receive {delivery : Channel.Delivery}
    (h : Delivers count received channel stage)
    (hreceive : channel.receive? = some (delivery, after)) :
    ∃ event, delivery = .event event ∧ received ≤ count ∧ (event = .quit ↔ received = count) ∧
      Delivers count (received + 1) after stage := by
  obtain ⟨earlier, rfl, hsplit⟩ := h.split
  unfold Channel.receive? at hreceive
  split at hreceive
  · rename_i event events hevents
    cases hreceive
    rw [hevents, List.cons_append] at hsplit
    obtain ⟨hle, hquit⟩ := EventSource.of_sequence_eq hsplit
    refine ⟨event, rfl, hle, hquit, h.hasSender, h.hasReceiver, h.capacity, h.within,
      earlier ++ [event], List.length_append, ?_⟩
    rw [hsplit, List.append_assoc]
    rfl
  · rw [h.hasSender, h.capacity] at hreceive
    cases hreceive

end

/-- The source runs, and a number of its events have been received. -/
def Provides (count received : Nat) (channel : Channel) (source : Option EventSource.Stage) :
    Prop :=
  ∃ stage, source = some stage ∧ Delivers count received channel stage

/-- What the main thread has received at a stage. It has handled all of the events when it has the
wish to quit. -/
def Fed (count : Nat) (channel : Channel) (source : Option EventSource.Stage) :
    MainStage → Prop
  | .spawning => channel = .bounded ∧ source = none
  | .controlling (.awaiting handled) | .controlling (.releasing handled) =>
    Provides count handled.toNat channel source
  | .controlling (.acquiring _ handled) | .controlling (.loading _ handled)
  | .controlling (.painting _ _ handled) | .controlling (.reporting _ handled) =>
    handled.toNat < count ∧ Provides count (handled.toNat + 1) channel source
  | .controlling (.requesting handled) | .controlling (.announcing handled)
  | .controlling (.done handled) | .joining handled | .awaitingSource handled
  | .acquiring handled | .looking handled | .releasing handled _ | .reporting handled _
  | .done (.completed handled _) => handled.toNat = count
  | .done _ => True

/-- Only what is provided matters to a main thread that has begun. -/
theorem Fed.map {count : Nat} {channel after : Channel} {source later : Option EventSource.Stage}
    {stage : MainStage} (h : Fed count channel source stage) (hsource : source ≠ none)
    (hprovides : ∀ received, Provides count received channel source →
      Provides count received after later) : Fed count after later stage := by
  cases stage with
  | spawning => exact absurd h.2 hsource
  | controlling loop =>
    cases loop with
    | awaiting | releasing => exact hprovides _ h
    | acquiring | loading | painting | reporting => exact ⟨h.1, hprovides _ h.2⟩
    | requesting | announcing | done => exact h
  | done ending =>
    cases ending with
    | completed => exact h
    | workerFailed | panicked => trivial
  | joining | awaitingSource | acquiring | looking | releasing | reporting => exact h

namespace Run

/-- All that a step of the source can do. -/
inductive SourceStride (run next : Run) : Prop where
  | rest {index : Nat} (hsource : run.source = some (.resting index))
      (hnext : next = { run with source := some (.offering index) })
  | send {index : Nat} {isReceived : Bool} {channel : Channel}
      (hsource : run.source = some (.offering index))
      (hsend :
        run.channel.send? (if index < run.eventCount then EventSource.eventAt index else .quit) =
          some (isReceived, channel))
      (hnext : next = { run with
        channel
        source := some ((EventSource.program run.eventCount
          (.ofMillis run.settings.uiEventInterval)).resume (.offering index) (.sent isReceived)) })

variable {build : Build} {run next : Run} {lines : List Line}

/-- The source sends or rests, and has nothing to do with the lock. -/
theorem sourceStride (h : run.sourceStep? build = some (next, lines))
    (hidle : (run.world.thread EventSource.threadName).activity = .idle) :
    run.SourceStride next ∧ lines = [] := by
  obtain ⟨stage, hstage, hstep⟩ := Option.bind_eq_some_iff.mp h
  obtain ⟨deed, hdeed, hnext⟩ := Option.map_eq_some_iff.mp hstep
  cases stage with
  | resting index =>
    simp only [EventSource.program, perform?, hidle] at hdeed
    cases hdeed
    cases hnext
    exact ⟨.rest hstage rfl, rfl⟩
  | offering index =>
    simp only [EventSource.program, perform?, hidle] at hdeed
    obtain ⟨⟨isReceived, channel⟩, hsend, rfl⟩ := Option.map_eq_some_iff.mp hdeed
    cases hnext
    exact ⟨.send hstage hsend rfl, rfl⟩
  | stopped =>
    simp only [EventSource.program, perform?, hidle] at hdeed
    cases hdeed

theorem eventCount_lt (run : Run) : run.eventCount < UInt64.size :=
  run.settings.uiEvents.toNat_lt_size

theorem eventCount_eq (h : next.settings = run.settings) : next.eventCount = run.eventCount := by
  rw [eventCount, h, eventCount]

/-- A step that leaves the channel alone takes no event. -/
theorem Spares.fed {count : Nat} (h : run.Spares next) (hmain : run.main ≠ .spawning)
    (haction : run.main.action.isExchange = false) (hnext : ∀ handled, next.main ≠ .joining handled)
    (hfed : Fed count run.channel run.source next.main) :
    Fed count next.channel next.source next.main := by
  rwa [h.channel haction hnext, h.source hmain]

/-- The main thread takes the events in order. -/
theorem MainStride.fed (h : run.MainStride next) (hspares : run.Spares next)
    (hfed : Fed run.eventCount run.channel run.source run.main) :
    Fed run.eventCount next.channel next.source next.main := by
  cases h with
  | spawn hmain _ hnext =>
    rw [hmain] at hfed
    obtain ⟨hnext, hchannel, hsource⟩ | ⟨panic, hnext⟩ := hnext
    · rw [hnext, hchannel]
      refine ⟨_, hsource, ?_⟩
      rw [hfed.1]
      exact delivers_start run.eventCount
    · rw [hnext]
      trivial
  | @receive handled delivery hmain _ hreceive hnext =>
    rw [hmain] at hfed
    obtain ⟨stage, hstage, hdelivers⟩ := hfed
    obtain ⟨event, rfl, hle, hquit, hafter⟩ := hdelivers.receive hreceive
    have hprovides : Provides run.eventCount (handled.toNat + 1) next.channel next.source :=
      ⟨stage, (hspares.source (by rw [hmain]; nofun)).trans hstage, hafter⟩
    rw [hnext]
    cases event with
    | quit => exact hquit.mp rfl
    | inspect | poke =>
      exact ⟨Nat.lt_of_le_of_ne hle (fun hlast ↦ nomatch hquit.mpr hlast), hprovides⟩
  | wait hmain haction _ hnext =>
    by_cases hjoining : ∃ handled, run.main = .joining handled
    · obtain ⟨handled, hjoining⟩ := hjoining
      rw [hjoining] at hfed hnext
      rw [hnext]
      exact hfed
    · refine hspares.fed hmain haction ?_ (hnext ▸ hfed)
      rw [hnext]
      exact fun handled heq ↦ hjoining ⟨handled, heq⟩
  | acquire waited hmain =>
    obtain ⟨event, handled, hmain, hnext⟩ | ⟨handled, hmain, hnext⟩ := hmain
    all_goals
      rw [hmain] at hfed
      apply hspares.fed (by rw [hmain]; nofun) (by rw [hmain]; rfl) (by rw [hnext]; nofun)
      rw [hnext]
      exact hfed
  | look _ hmain =>
    obtain ⟨_, _, hmain, hnext⟩ | ⟨_, _, hmain, hnext⟩ | ⟨_, hmain, hnext⟩ := hmain
    all_goals
      rw [hmain] at hfed
      apply hspares.fed (by rw [hmain]; nofun) (by rw [hmain]; rfl) (by rw [hnext]; nofun)
      rw [hnext]
      exact hfed
  | paint hmain _ hnext =>
    rw [hmain] at hfed
    apply hspares.fed (by rw [hmain]; nofun) (by rw [hmain]; rfl) (by rw [hnext]; nofun)
    rw [hnext]
    exact hfed
  | log _ hmain =>
    obtain ⟨notice, handled, hmain, hnext⟩ | ⟨_, hmain, hnext⟩ | ⟨_, _, hmain, hnext⟩ := hmain
    · rw [hmain] at hfed
      apply hspares.fed (by rw [hmain]; nofun) (by rw [hmain]; rfl) (by rw [hnext]; nofun)
      have hsum : (handled + 1).toNat = handled.toNat + 1 :=
        toNat_add_one (Nat.lt_of_le_of_lt hfed.1 run.eventCount_lt)
      rw [hnext]
      change Provides _ _ _ _
      rw [hsum]
      exact hfed.2
    · rw [hmain] at hfed
      rw [hnext]
      exact hfed
    · rw [hmain] at hfed
      rw [hnext]
      exact hfed
  | release _ hmain =>
    obtain ⟨_, hmain, hnext⟩ | ⟨_, _, hmain, hnext⟩ := hmain
    all_goals
      rw [hmain] at hfed
      apply hspares.fed (by rw [hmain]; nofun) (by rw [hmain]; rfl) (by rw [hnext]; nofun)
      rw [hnext]
      exact hfed
  | request hmain _ hnext =>
    rw [hmain] at hfed
    obtain hnext | hnext := hnext
    all_goals
      rw [hnext]
      exact hfed
  | join hmain _ _ hnext =>
    rw [hmain] at hfed
    obtain ⟨_, hnext⟩ | ⟨error, hnext⟩ := hnext
    · rw [hnext]
      exact hfed
    · rw [hnext]
      trivial
  | await hmain _ hnext =>
    rw [hmain] at hfed
    rw [hnext]
    exact hfed

/-- The source sends the events in order. -/
theorem SourceStride.fed (h : run.SourceStride next)
    (hfed : Fed run.eventCount run.channel run.source run.main) :
    Fed run.eventCount next.channel next.source next.main := by
  cases h with
  | rest hsource hnext =>
    subst hnext
    refine hfed.map (by rw [hsource]; nofun) fun received ↦ ?_
    rintro ⟨stage, hstage, hdelivers⟩
    obtain rfl := Option.some_inj.mp (hsource.symm.trans hstage)
    exact ⟨_, rfl, hdelivers.rest⟩
  | send hsource hsend hnext =>
    subst hnext
    refine hfed.map (by rw [hsource]; nofun) fun received ↦ ?_
    rintro ⟨stage, hstage, hdelivers⟩
    obtain rfl := Option.some_inj.mp (hsource.symm.trans hstage)
    obtain ⟨rfl, hafter⟩ := hdelivers.send hsend
    exact ⟨_, rfl, hafter⟩

end Run

end YieldLock.Demo
