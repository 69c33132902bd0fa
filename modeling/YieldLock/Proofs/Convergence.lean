import YieldLock.Proofs.Ways

/-!
# The ways to end agree

Two runs that end the same session on different ways are compared move by move.
Up to the last call of its way each is compared with the moves that the others
make alone, and from there on the two are compared with one another. Main statement:
`ways_to_end_agree`, all ways lead to the same lock, but for the yield of the one
that yields, however other threads move in between.
-/

namespace YieldLock

variable {σ : Type}

namespace Way

section

variable {build : Build} {way left right : Way} {me : Thread} {start world last : World σ}
  {calls : List (Call σ)} {points : List Point} {turns : List (Turn σ)}

/-- The thread lives at least until it has passed all points. -/
theorem Underway.isFinished_eq_false (h : way.Underway me start calls points turns world)
    (hpoised : start.IsPoised me) (hlives : points ≠ [] ∨ way.endsThread = false) :
    (world.thread me).activity.isFinished = false := by
  rw [h.self]
  split
  · cases points with
    | nil =>
      cases way with
      | finished => exact absurd hlives (by simp [endsThread])
      | _ => rfl
    | cons point points =>
      rw [activity_threadAt]
      rfl
  · rw [hpoised.idle]
    rfl

/-- Without the calls of a way the other moves can be made all the same. -/
theorem Underway.erase_calls {other : World σ} {opening : List (Move σ)} {later : List (Turn σ)}
    (h : way.Underway me start calls start.lock.pathToEnd turns world)
    (hreach : Reachable build world) (hpoised : start.IsPoised me)
    (hopen : way.isOpenTo (start.thread me) = true) (hcalls : calls <:+ way.calls)
    (hown : opening.filter (·.isOf me) = calls.map (.call me)) (halike : World.Alike me world other)
    (hplay : world.play? build opening = some (later, last)) :
    ∃ later' last', other.play? build (opening.filter (!·.isOf me)) = some (later', last') ∧
      World.Alike me last last' := by
  induction opening generalizing calls turns world other later with
  | nil =>
    cases hplay
    exact ⟨[], other, rfl, halike⟩
  | cons move opening ih =>
    obtain ⟨next, events, rest, hmove, hrest, rfl⟩ := World.play?_cons.mp hplay
    cases hmine : move.isOf me with
    | true =>
      rw [List.filter_cons_of_pos hmine] at hown
      rw [List.filter_cons_of_neg (by rw [hmine]; decide)]
      cases calls with
      | nil => cases hown
      | cons call calls =>
        obtain ⟨rfl, hcalled⟩ := List.cons.inj hown
        obtain ⟨effect, hmade, hlock, hnext⟩ := h.own_call hreach hpoised hopen hcalls
        cases hmade.symm.trans hmove
        exact ih hnext (hreach.move hmove) ((List.suffix_cons _ _).trans hcalls) hcalled
          ((World.Alike.after_self world h.known hlock).symm.trans halike) hrest
    | false =>
      have hother := thread?_ne hmine
      rw [List.filter_cons_of_neg (by rw [hmine]; decide)] at hown
      rw [List.filter_cons_of_pos (by rw [hmine]; rfl)]
      obtain ⟨third, events', hsame, hbeside⟩ := halike.move? hreach h.worker
        (h.isFinished_eq_false hpoised (.inl start.lock.pathToEnd_ne_nil)) hother hmove
      obtain ⟨later', last', hlater, hlast⟩ :=
        ih (h.others hreach hmove hother) (hreach.move hmove) hcalls hown hbeside hrest
      exact ⟨_, last', World.play?_cons.mpr ⟨third, events', later', hsame, hlater, rfl⟩, hlast⟩

/-- Among moves that the others can make alone, the calls of a way can be made at any time. -/
theorem Underway.insert_calls {other last' : World σ} {opening : List (Move σ)}
    {earlier later' : List (Turn σ)}
    (h : way.Underway me start calls start.lock.pathToEnd turns world)
    (hreach : Reachable build world) (hpoised : start.IsPoised me)
    (hopen : way.isOpenTo (start.thread me) = true) (hcalls : calls <:+ way.calls)
    (hown : opening.filter (·.isOf me) = calls.map (.call me))
    (hbefore : way.Underway me start way.calls start.lock.pathToEnd earlier other)
    (hreach' : Reachable build other) (halike : World.Alike me other world)
    (hplay : other.play? build (opening.filter (!·.isOf me)) = some (later', last')) :
    ∃ later last, world.play? build opening = some (later, last) ∧ World.Alike me last' last := by
  -- On the other side the thread never moves, so there it stays as if about to set out.
  induction opening generalizing calls turns world other earlier later' with
  | nil =>
    cases hplay
    exact ⟨[], world, rfl, halike⟩
  | cons move opening ih =>
    cases hmine : move.isOf me with
    | true =>
      rw [List.filter_cons_of_pos hmine] at hown
      rw [List.filter_cons_of_neg (by rw [hmine]; decide)] at hplay
      cases calls with
      | nil => cases hown
      | cons call calls =>
        obtain ⟨rfl, hcalled⟩ := List.cons.inj hown
        obtain ⟨effect, hmade, hlock, hnext⟩ := h.own_call hreach hpoised hopen hcalls
        obtain ⟨later, last, hlater, hlast⟩ := ih hnext (hreach.move hmade)
          ((List.suffix_cons _ _).trans hcalls) hcalled hbefore hreach'
          (halike.trans (World.Alike.after_self world h.known hlock)) hplay
        exact ⟨_, last, World.play?_cons.mpr ⟨_, _, later, hmade, hlater, rfl⟩, hlast⟩
    | false =>
      have hother := thread?_ne hmine
      rw [List.filter_cons_of_neg (by rw [hmine]; decide)] at hown
      rw [List.filter_cons_of_pos (by rw [hmine]; rfl)] at hplay
      obtain ⟨third, events', rest, hmove, hrest, _⟩ := World.play?_cons.mp hplay
      obtain ⟨next, events, hsame, hbeside⟩ := halike.move? hreach' hbefore.worker
        (hbefore.isFinished_eq_false hpoised (.inl start.lock.pathToEnd_ne_nil)) hother hmove
      obtain ⟨later, last, hlater, hlast⟩ :=
        ih (h.others hreach hsame hother) (hreach.move hsame) hcalls hown
          (hbefore.others hreach' hmove hother) (hreach'.move hmove) hbeside hrest
      exact ⟨_, last, World.play?_cons.mpr ⟨next, events, later, hsame, hlater, rfl⟩, hlast⟩

/-- From the first point on, two ways allow the same moves, and the worlds stay alike. -/
theorem Underway.play_beside {other : World σ} {rest : List (Move σ)}
    {turns' later : List (Turn σ)} (h : left.Underway me start [] points turns world)
    (h' : right.Underway me start [] points turns' other) (hreach : Reachable build world)
    (hreach' : Reachable build other) (hpoised : start.IsPoised me)
    (hpath : points <:+ start.lock.pathToEnd) (hlives : left.endsThread = false)
    (halike : World.Alike me world other)
    (hsteps : ∀ move ∈ rest, move.thread? = some me → move = .step me)
    (hplay : world.play? build rest = some (later, last)) :
    ∃ later' last', other.play? build rest = some (later', last') ∧
      World.Alike me last last' := by
  -- A step of the thread needs no lock, so it is possible on both sides at once.
  induction rest generalizing points turns turns' world other later with
  | nil =>
    cases hplay
    exact ⟨[], other, rfl, halike⟩
  | cons move rest ih =>
    obtain ⟨next, events, tail, hmove, htail, rfl⟩ := World.play?_cons.mp hplay
    obtain ⟨hmakes, hlater⟩ := List.forall_mem_cons.mp hsteps
    cases hmine : move.isOf me with
    | true =>
      obtain rfl := hmakes (isOf_eq_true.mp hmine)
      cases points with
      | nil => exact absurd hmove (h.move?_ne_some _)
      | cons point points =>
        obtain ⟨effect, hmade, hlock, hnext⟩ := h.own_step hreach hpoised hpath
        obtain ⟨effect', hmade', hlock', hnext'⟩ := h'.own_step hreach' hpoised hpath
        cases hmade.symm.trans hmove
        have hafter : World.Alike me (world.after me effect) (other.after me effect') := by
          refine ⟨?_, ?_⟩
          · exact (World.SameOthers.after_self world h.known effect).symm.trans
              (halike.toSameOthers.trans (World.SameOthers.after_self other h'.known effect'))
          · rw [World.lock_after, World.lock_after, hlock, hlock']
            exact halike.lock.pass me point
        obtain ⟨later', last', hplay', hlast⟩ := ih hnext hnext' (hreach.move hmade)
          (hreach'.move hmade') ((List.suffix_cons _ _).trans hpath) hafter hlater htail
        exact ⟨_, last', World.play?_cons.mpr ⟨_, _, later', hmade', hplay', rfl⟩, hlast⟩
    | false =>
      have hother := thread?_ne hmine
      obtain ⟨third, events', hsame, hbeside⟩ := halike.move? hreach h.worker
        (h.isFinished_eq_false hpoised (.inr hlives)) hother hmove
      obtain ⟨later', last', hplay', hlast⟩ := ih (h.others hreach hmove hother)
        (h'.others hreach' hsame hother) (hreach.move hmove) (hreach'.move hsame) hpath hbeside
        hlater htail
      exact ⟨_, last', World.play?_cons.mpr ⟨third, events', later', hsame, hplay', rfl⟩, hlast⟩

end

end Way

/-- All ways to end a session agree. Take a worker whose running session holds the only level of its
thread, at a lock whose teardown does not panic. A way to end the session can be taken at any time
among moves that the others can make. Now take a run on one way and another way, on which the others
make the same moves up to the last call, and let all moves after it be the same. If the first way
leaves the thread alive, so that nobody can have waited for its end, the second can be gone as well.
On both the thread can make each of its steps at once and never sleeps, and after the last step it
has been told, its level and the signal are down, the teardown is used up and was run once, and the
end is announced. From the step on that gives up the level, the two locks are the same, owner and
queue included, but for the yield of the way that yields. -/
theorem ways_to_end_agree {build : Build} {world : World σ} {me : Thread}
    (h : Reachable build world) (hidle : (world.thread me).activity = .idle)
    (hsession : (world.thread me).session = some { phase := .running, holds := true })
    (hguards : (world.thread me).guards = 0)
    (hteardown : ∀ text, world.lock.teardown ≠ some (.fail text)) :
    (∀ (way : Way) (others opening : List (Move σ)), way.isOpenTo (world.thread me) = true →
      way.Opens me others opening → (world.play? build others).isSome = true →
      (world.play? build opening).isSome = true) ∧
    ∀ (left right : Way) (others opening opening' rest : List (Move σ)) (turns : List (Turn σ))
      (last : World σ), left.endsThread = false → left.isOpenTo (world.thread me) = true →
      right.isOpenTo (world.thread me) = true → left.Opens me others opening →
      right.Opens me others opening' →
      (∀ move ∈ rest, move.thread? = some me → move = .step me) →
      world.play? build (opening ++ rest) = some (turns, last) →
      ∃ turns' last', world.play? build (opening' ++ rest) = some (turns', last') ∧
        left.Course build me world rest turns last ∧
        right.Course build me world rest turns' last' ∧
        (∀ name, name ≠ me → last'.thread name = last.thread name) ∧
        (.step me ∈ rest → ∃ lock : Lock σ,
          last.lock = { lock with stats := lock.stats.countYields left.yields } ∧
          last'.lock = { lock with stats := lock.stats.countYields right.yields }) := by
  have hpoised : world.IsPoised me := ⟨hidle, hsession, hguards, hteardown⟩
  have hstart (way : Way) := Way.underway_of_poised hpoised h way
  have hinsert {way : Way} {others opening : List (Move σ)} {alone : List (Turn σ)}
      {after : World σ} (hopen : way.isOpenTo (world.thread me) = true)
      (hopens : way.Opens me others opening)
      (hplay : world.play? build others = some (alone, after)) :
      ∃ later last, world.play? build opening = some (later, last) ∧
        World.Alike me after last := by
    rw [← hopens.others] at hplay
    exact (hstart way).insert_calls h hpoised hopen (List.suffix_refl _) hopens.own (hstart way) h
      (.refl me world) hplay
  refine ⟨fun way others opening hopen hopens hsome ↦ ?_, ?_⟩
  · obtain ⟨⟨_, _⟩, hplay⟩ := Option.isSome_iff_exists.mp hsome
    obtain ⟨later, last, hmade, _⟩ := hinsert hopen hopens hplay
    rw [hmade]
    rfl
  intro left right others opening opening' rest turns last hlives hleft hright hopens hopens' hsteps
    hplay
  obtain ⟨first, middle, later, hfirst, hlater, rfl⟩ := World.play?_append.mp hplay
  -- Both openings are compared with the moves that the others make alone.
  obtain ⟨alone, after, halone, hbeside⟩ := (hstart left).erase_calls h hpoised hleft
    (List.suffix_refl _) hopens.own (.refl me world) hfirst
  rw [hopens.others] at halone
  obtain ⟨first', middle', hfirst', hbeside'⟩ := hinsert hright hopens' halone
  obtain ⟨hmiddle, hunderway⟩ := (hstart left).play_calls h hpoised hleft (List.suffix_refl _)
    hopens.own hfirst
  obtain ⟨hmiddle', hunderway'⟩ := (hstart right).play_calls h hpoised hright (List.suffix_refl _)
    hopens'.own hfirst'
  obtain ⟨later', last', hlater', halike⟩ := hunderway.play_beside hunderway' hmiddle hmiddle'
    hpoised (List.suffix_refl _) hlives (hbeside.trans hbeside') hsteps hlater
  obtain ⟨hlast, hcount, hended⟩ := hunderway.play_steps hmiddle hpoised (List.suffix_refl _)
    hsteps hlater
  obtain ⟨hlast', _, hended'⟩ := hunderway'.play_steps hmiddle' hpoised (List.suffix_refl _)
    hsteps hlater'
  refine ⟨_, last', World.play?_append.mpr ⟨first', middle', later', hfirst', hlater', rfl⟩,
    hended.course hlast hpoised hcount, hended'.course hlast' hpoised hcount, halike.thread,
    fun hmem ↦ ?_⟩
  have hsame := halike.lock.eq_of_lowered (hended.lowered_of_mem hmem) (hended'.lowered_of_mem hmem)
  rw [hended'.yields] at hsame
  refine ⟨{ last.lock with
    stats := { last.lock.stats with yieldCalls := world.lock.stats.yieldCalls } }, ?_, hsame⟩
  exact congrArg (fun yieldCalls ↦
    { last.lock with stats := { last.lock.stats with yieldCalls } }) hended.yields

set_option synthInstance.maxSize 512 in
/-- With two controllers queued, a session that asks for its end and a worker that requests shutdown
and yields leave the same lock, which the first of the two gets. -/
theorem two_ways_beside_waiters :
    ∃ (world last last' : World Unit) (turns turns' : List (Turn Unit)),
      Run .checked world turns last ∧ Run .checked world turns' last' ∧
      world.lock.mutex.queue = ["first", "second"] ∧
      last.lock.mutex = { hold := some { thread := "first" }, queue := ["second"] } ∧
      last'.lock = { last.lock with stats := last.lock.stats.countYields 1 } ∧
      Way.asked.Ended "worker" world turns last ∧
      Way.requested.Ended "worker" world turns' last' ∧ sleepsIn turns' = 0 := by
  let start : World Unit := { lock := (Lock.standard .checked ()).withTeardown (.note "bye") }
  let setup : List (Move Unit) :=
    [.call "worker" .adopt, .step "worker", .call "first" .acquire, .call "second" .acquire,
      .step "first", .step "second"]
  let others : List (Move Unit) := [.call "third" .requestShutdown]
  let opening : List (Move Unit) :=
    [.call "third" .requestShutdown, .call "worker" .endSession]
  let opening' : List (Move Unit) :=
    [.call "worker" .requestShutdown, .call "third" .requestShutdown, .call "worker" .yieldNow]
  let rest : List (Move Unit) :=
    [.step "worker", .step "first", .step "worker", .step "worker", .step "worker"]
  have hplay : ∃ ready ∈ start.play? .checked setup,
      (ready.2.thread "worker").activity = .idle ∧
      (ready.2.thread "worker").session = some { phase := .running, holds := true } ∧
      (ready.2.thread "worker").guards = 0 ∧ ready.2.lock.teardown = some (.note "bye") ∧
      Way.asked.isOpenTo (ready.2.thread "worker") = true ∧
      Way.requested.isOpenTo (ready.2.thread "worker") = true ∧
      ready.2.lock.mutex.queue = ["first", "second"] ∧
      ∃ later ∈ ready.2.play? .checked (opening ++ rest),
        later.2.lock.mutex = { hold := some { thread := "first" }, queue := ["second"] } := by
    decide +kernel
  obtain ⟨⟨_, world⟩, hready, hidle, hsession, hguards, hteardown, hasked, hrequested, hqueue,
    ⟨turns, last⟩, hlater, hmutex⟩ := hplay
  have hreach : Reachable .checked world :=
    (run_of_play? hready).reachable ⟨.withTeardown _ (.standard .checked ()), rfl⟩
  have hharmless (text : String) : world.lock.teardown ≠ some (.fail text) := by
    rw [hteardown]
    nofun
  have hopens : Way.asked.Opens "worker" others opening := ⟨by decide, by decide⟩
  have hopens' : Way.requested.Opens "worker" others opening' := ⟨by decide, by decide⟩
  have hpoints : rest.countP (·.isOf "worker") = world.lock.pathToEnd.length := by
    rw [Lock.pathToEnd, Lock.lastPoints, hteardown]
    decide
  obtain ⟨_, hagree⟩ := ways_to_end_agree hreach hidle hsession hguards hharmless
  obtain ⟨turns', last', hlater', hcourse, hcourse', _, hlocks⟩ :=
    hagree .asked .requested others opening opening' rest turns last rfl hasked hrequested hopens
      hopens' (by decide) hlater
  obtain ⟨lock, hlast, hlast'⟩ := hlocks (by decide)
  have hsame : last.lock = lock :=
    hlast.trans (congrArg (fun stats ↦ { lock with stats }) (Stats.countYields_zero _))
  refine ⟨world, last, last', turns, turns', run_of_play? hlater, run_of_play? hlater', hqueue,
    hmutex, ?_, hcourse.ended hpoints, hcourse'.ended hpoints, hcourse'.awake⟩
  rw [hsame]
  exact hlast'

end YieldLock
