import YieldLock.Demo.Action
import YieldLock.Proofs.Acquiring

/-!
# What the threads of the demonstration come to

A step of a thread is a move of the world, by which a call is begun or goes on, or
it is made beside the lock and leaves the world as it was. Main statements:
`perform?_of_busy`, `perform?_of_call`, `exists_move_of_perform?`, and
`Deed.reply_ofEvents`, what a thread is replied is what its call is answered.
-/

namespace YieldLock.Demo

/-- Actions that have to do with the channel. -/
def Action.isExchange : Action → Bool
  | .send _ | .receive => true
  | _ => false

/-- The line as the lock has logged it. -/
def Line.entry? : Line → Option Entry
  | .lock entry => some entry
  | .notice _ => none

section

variable {build : Build} {world next : World Machine} {channel : Channel} {me : Thread}
  {action : Action} {deed : Deed}

theorem Deed.reply_ofEvents (channel : Channel) (world : World Machine) (me : Thread)
    (effect : Effect Machine) :
    (Deed.ofEvents channel (world.after me effect, effect.events)).reply =
      effect.answers.head?.map .answered := by
  rw [Deed.ofEvents, Effect.answers, List.head?_filterMap]

theorem Deed.entries_ofEvents (channel : Channel) (next : World Machine)
    (events : List (Event Machine)) :
    (Deed.ofEvents channel (next, events)).lines.filterMap Line.entry? =
      events.filterMap Event.entry? := by
  rw [Deed.ofEvents, List.filterMap_map]
  exact List.filterMap_some

theorem perform?_of_busy {call : Call Machine} {point : Point}
    (hbusy : (world.thread me).activity = .busy call point) :
    perform? build world channel me action =
      (world.step? build me).map (Deed.ofEvents channel) := by
  unfold perform?
  rw [hbusy]

theorem perform?_of_call {call : Call Machine} (hidle : (world.thread me).activity = .idle) :
    perform? build world channel me (.call call) =
      (world.call? build me call).map (Deed.ofEvents channel) := by
  unfold perform?
  rw [hidle]

theorem perform?_of_finished {outcome : Option Panic}
    (hfinished : (world.thread me).activity = .finished outcome) :
    perform? build world channel me action = none := by
  unfold perform?
  rw [hfinished]

/-- A thread inside a call makes the next step of the call, whatever it wants to do afterwards. -/
theorem exists_rule_of_busy {call : Call Machine} {point : Point}
    (hbusy : (world.thread me).activity = .busy call point)
    (h : perform? build world channel me action = some deed) :
    ∃ effect, ThreadState.Rule build world.clock me world.lock (world.thread me) none effect ∧
      deed = .ofEvents channel (world.after me effect, effect.events) := by
  rw [perform?_of_busy hbusy] at h
  obtain ⟨⟨next, events⟩, hstep, rfl⟩ := Option.map_eq_some_iff.mp h
  obtain ⟨effect, rule, rfl, rfl⟩ := World.exists_rule_of_step? hstep
  exact ⟨effect, rule, rfl⟩

/-- An idle thread that is to make a call makes the first step of it. -/
theorem exists_rule_of_call {call : Call Machine} (hspawn : call.isSpawn = false)
    (hidle : (world.thread me).activity = .idle)
    (h : perform? build world channel me (.call call) = some deed) :
    ∃ effect,
      ThreadState.Rule build world.clock me world.lock (world.thread me) (some call) effect ∧
      deed = .ofEvents channel (world.after me effect, effect.events) := by
  rw [perform?_of_call hidle] at h
  obtain ⟨⟨next, events⟩, hcall, rfl⟩ := Option.map_eq_some_iff.mp h
  obtain ⟨effect, rule, _, rfl, rfl⟩ := World.exists_rule_of_call? hspawn hcall
  exact ⟨effect, rule, rfl⟩

/-- A step of a thread moves the world, by a call that the thread makes or goes on with, and logs
what the move shows; or it leaves the world as it is, and logs nothing of the lock. -/
theorem exists_move_of_perform? (h : perform? build world channel me action = some deed) :
    deed.world = world ∧ deed.lines.filterMap Line.entry? = [] ∨
      ∃ move events, (move = .step me ∨ ∃ call, action = .call call ∧ move = .call me call) ∧
        world.move? build move = some (deed.world, events) ∧
        deed.lines.filterMap Line.entry? = events.filterMap Event.entry? := by
  cases hactivity : (world.thread me).activity with
  | finished outcome =>
    rw [perform?_of_finished hactivity] at h
    cases h
  | busy call point =>
    rw [perform?_of_busy hactivity] at h
    obtain ⟨⟨next, events⟩, hstep, rfl⟩ := Option.map_eq_some_iff.mp h
    exact .inr ⟨.step me, events, .inl rfl, hstep, Deed.entries_ofEvents channel next events⟩
  | idle =>
    cases action with
    | call call =>
      rw [perform?_of_call hactivity] at h
      obtain ⟨⟨next, events⟩, hcall, rfl⟩ := Option.map_eq_some_iff.mp h
      exact .inr ⟨.call me call, events, .inr ⟨call, rfl, rfl⟩, hcall,
        Deed.entries_ofEvents channel next events⟩
    | log | rest =>
      simp only [perform?, hactivity] at h
      cases h
      exact .inl ⟨rfl, rfl⟩
    | send event =>
      simp only [perform?, hactivity] at h
      obtain ⟨_, _, rfl⟩ := Option.map_eq_some_iff.mp h
      exact .inl ⟨rfl, rfl⟩
    | receive =>
      simp only [perform?, hactivity] at h
      obtain ⟨⟨delivery, _⟩, _, rfl⟩ := Option.map_eq_some_iff.mp h
      cases delivery <;> exact .inl ⟨rfl, rfl⟩
    | idle =>
      simp only [perform?, hactivity] at h
      cases h

/-- A step that is no exchange is the same at any channel, which it leaves alone. -/
theorem perform?_of_not_exchange (hexchange : action.isExchange = false) (other : Channel) :
    perform? build world channel me action =
      (perform? build world other me action).map fun deed ↦ { deed with channel } := by
  cases hactivity : (world.thread me).activity with
  | busy =>
    rw [perform?_of_busy hactivity, perform?_of_busy hactivity, Option.map_map]
    rfl
  | finished =>
    rw [perform?_of_finished hactivity, perform?_of_finished hactivity]
    rfl
  | idle =>
    cases action with
    | call =>
      rw [perform?_of_call hactivity, perform?_of_call hactivity, Option.map_map]
      rfl
    | send | receive => cases hexchange
    | log | rest | idle =>
      simp only [perform?, hactivity]
      rfl

theorem channel_of_perform? (hexchange : action.isExchange = false)
    (h : perform? build world channel me action = some deed) : deed.channel = channel := by
  rw [perform?_of_not_exchange hexchange channel] at h
  obtain ⟨_, _, rfl⟩ := Option.map_eq_some_iff.mp h
  rfl

/-- A step of a thread leaves another as it was, if it does not start it as a worker. -/
theorem thread_of_perform? (h : perform? build world channel me action = some deed)
    {other : Thread} (hne : other ≠ me) (hspawn : action ≠ .call (.spawn other)) :
    deed.world.thread other = world.thread other := by
  obtain ⟨hworld, _⟩ | ⟨move, events, hmine, hmove, _⟩ := exists_move_of_perform? h
  · rw [hworld]
  · apply (World.change_of_move? hmove).thread_of_unspawned
    · obtain rfl | ⟨_, _, rfl⟩ := hmine <;> exact fun hother ↦ hne (Option.some_inj.mp hother).symm
    · rintro parent rfl
      obtain hstep | ⟨call, haction, hcall⟩ := hmine
      · cases hstep
      · cases hcall
        exact hspawn haction

/-- A step of a thread does not make another the worker. -/
theorem worker_of_perform? (h : perform? build world channel me action = some deed)
    {other : Thread} (hne : other ≠ me) (hworker : world.lock.worker ≠ some other) :
    deed.world.lock.worker ≠ some other := by
  obtain ⟨hworld, _⟩ | ⟨move, events, hmine, hmove, _⟩ := exists_move_of_perform? h
  · rwa [hworld]
  · apply (World.change_of_move? hmove).worker_of_others _ hworker
    obtain rfl | ⟨_, _, rfl⟩ := hmine <;> exact fun hother ↦ hne (Option.some_inj.mp hother).symm

/-- A thread that has an entry keeps it. -/
theorem contains_of_perform? (h : perform? build world channel me action = some deed)
    {name : Thread} (hknown : world.threads.contains name = true) :
    deed.world.threads.contains name = true := by
  obtain ⟨hworld, _⟩ | ⟨move, events, _, hmove, _⟩ := exists_move_of_perform? h
  · rwa [hworld]
  · exact (World.change_of_move? hmove).contains_kept hknown

theorem reachable_of_perform? (h : perform? build world channel me action = some deed)
    (hreach : YieldLock.Reachable build world) : YieldLock.Reachable build deed.world := by
  obtain ⟨hworld, _⟩ | ⟨move, events, _, hmove, _⟩ := exists_move_of_perform? h
  · rwa [hworld]
  · exact hreach.move hmove

end

end YieldLock.Demo
