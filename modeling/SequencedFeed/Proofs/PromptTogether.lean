import SequencedFeed.Envelope.Text
import SequencedFeed.Proofs.Promptness
import SequencedFeed.Proofs.StopAll
set_option autoImplicit false

/-!
# When calls that stop several clients return

After a stop of all clients every turn brings its client to rest at once and leaves the others alone, so one
round is enough for all of them. The calls return with the last of the sink calls in progress.
-/

namespace SequencedFeed

namespace Fleet

variable {fleet later state : Fleet}

def calls (fleet : Fleet) : StopCalls :=
  { waiting := fleet.waiting, stopped := fleet.stopped }

def phases (fleet : Fleet) : List Phase :=
  fleet.clients.map Client.phase

/-- The instant at which the last of the sink calls in progress returns; the present one if there is none. -/
def busyUntil (fleet : Fleet) : Nat :=
  (fleet.phases.map fun phase => phase.busyUntil fleet.stage.now).foldr max fleet.stage.now

def leftAt (fleet : Fleet) (now : Nat) : List Phase :=
  fleet.phases.map fun phase => phase.leftAt now

def areIdle (phases : List Phase) : Bool :=
  phases.all fun phase => phase = .idle

theorem areIdle_leftAt (fleet : Fleet) {later : Nat} (passes : fleet.stage.now ≤ later) :
    areIdle (fleet.leftAt later) = true ↔ fleet.busyUntil ≤ later := by
  unfold leftAt areIdle busyUntil
  induction fleet.phases with
  | nil => simpa using passes
  | cons phase rest ih =>
      rw [List.map_cons, List.map_cons, List.foldr_cons, Nat.max_le, List.all_cons, Bool.and_eq_true, ih,
        decide_eq_true_eq, Phase.leftAt_eq_idle_iff phase passes]

theorem le_busyUntil (fleet : Fleet) :
    fleet.stage.now ≤ fleet.busyUntil ∧
      ∀ phase ∈ fleet.phases, phase.busyUntil fleet.stage.now ≤ fleet.busyUntil := by
  unfold busyUntil
  induction fleet.phases with
  | nil => exact ⟨Nat.le_refl _, nofun⟩
  | cons phase rest ih =>
      rw [List.map_cons, List.foldr_cons, List.forall_mem_cons]
      exact ⟨Nat.le_trans ih.1 (Nat.le_max_right ..), Nat.le_max_left ..,
        fun other member => Nat.le_trans (ih.2 other member) (Nat.le_max_right ..)⟩

/-! ### Coming to rest -/

/-- All clients are shutting down. -/
structure Halting (fleet : Fleet) : Prop where
  reachable : fleet.Reachable
  agreed : fleet.Agreed
  stopped : fleet.AllStopped

theorem Halting.after (halting : fleet.Halting) (reaches : fleet.Reaches later) (agreed : later.Agreed) :
    later.Halting :=
  ⟨halting.reachable.after reaches, agreed, (reaches.queue_suffix halting.reachable halting.stopped).1⟩

structure Turned (fleet : Fleet) (turns : List Nat) (later : Fleet) : Prop where
  halting : later.Halting
  now : later.stage.now = fleet.stage.now
  calls : later.calls = fleet.calls
  phases : ∀ place : Nat, later.phases[place]? = (fleet.phases[place]?).map fun phase =>
    if place ∈ turns then phase.leftAt fleet.stage.now else phase

theorem phases_getElem? (fleet : Fleet) (place : Nat) :
    fleet.phases[place]? = (fleet.clients[place]?).map Client.phase :=
  List.getElem?_map ..

theorem Halting.turnOf (halting : fleet.Halting) (number : Nat) :
    fleet.Turned [number] (fleet.turnOf number) := by
  have after := halting.after (reaches_turnOf fleet number) (halting.agreed.turnOf number)
  unfold Fleet.turnOf at after ⊢
  cases found : fleet.clients[number]? with
  | none =>
      refine ⟨halting, rfl, rfl, fun place => ?_⟩
      by_cases same : place = number
      · subst same
        rw [phases_getElem?, found]
        rfl
      · simp only [List.mem_singleton, if_neg same]
        exact (Option.map_id' ..).symm
  | some client =>
      obtain ⟨phase, now, asked⟩ :=
        (halting.reachable.consistent found).takeTurn_rests (halting.stopped client (List.mem_of_getElem? found))
      -- a stopped client asks for no stop, so its turn changes nobody else
      have heard : (client.takeTurn fleet.stage).2.stopAsked = false := asked.trans halting.agreed.heard
      have unasked : (fleet.put number (client.takeTurn fleet.stage).1
          (client.takeTurn fleet.stage).2).passOnStop number = _ := passOnStop_of_heard heard number
      simp only [put] at unasked
      simp only [found] at after ⊢
      rw [unasked] at after ⊢
      refine ⟨after, now, rfl, fun place => ?_⟩
      rw [phases_getElem?, phases_getElem?]
      by_cases same : place = number
      · subst same
        rw [List.getElem?_set_self (List.getElem?_eq_some_iff.mp found).1, found]
        simp only [Option.map_some, List.mem_singleton, if_true, phase]
      · rw [List.getElem?_set_ne (Ne.symm same)]
        simp only [List.mem_singleton, if_neg same]
        exact (Option.map_id' ..).symm

theorem Turned.trans {first rest : List Nat} (turned : fleet.Turned first state)
    (next : state.Turned rest later) : fleet.Turned (first ++ rest) later where
  halting := next.halting
  now := next.now.trans turned.now
  calls := next.calls.trans turned.calls
  phases place := by
    rw [next.phases, turned.phases, turned.now, Option.map_map]
    congr 1
    funext phase
    simp only [Function.comp_apply, List.mem_append]
    by_cases before : place ∈ first <;> by_cases after : place ∈ rest <;>
      simp [before, after, Phase.leftAt_leftAt]

theorem Halting.turns (halting : fleet.Halting) (numbers : List Nat) :
    fleet.Turned numbers (numbers.foldl Fleet.turnOf fleet) := by
  induction numbers generalizing fleet with
  | nil => exact ⟨halting, rfl, rfl, fun place => (Option.map_id' ..).symm⟩
  | cons number rest ih =>
      have first := halting.turnOf number
      exact first.trans (ih first.halting)

structure Rested (fleet later : Fleet) : Prop where
  halting : later.Halting
  now : later.stage.now = fleet.stage.now
  calls : later.calls = fleet.calls
  phases : later.phases = fleet.leftAt fleet.stage.now

theorem Halting.round (halting : fleet.Halting) : fleet.Rested fleet.round := by
  obtain ⟨halting', now, calls, phases⟩ := halting.turns fleet.turns
  refine ⟨halting', now, calls, List.ext_getElem? fun place => ?_⟩
  rw [leftAt, List.getElem?_map]
  refine (phases place).trans ?_
  cases found : fleet.clients[place]? with
  | none => rw [phases_getElem?, found]; rfl
  | some client => simp only [if_pos (halting.agreed.numbered.mem_turns found)]

theorem leftAt_of_phases {now instant : Nat} (left : later.phases = fleet.leftAt now)
    (passes : now ≤ instant) : later.leftAt instant = fleet.leftAt instant := by
  rw [leftAt, left, leftAt, leftAt, List.map_map]
  exact List.map_congr_left fun phase _ => Phase.leftAt_leftAt phase passes

theorem collect_calls (fleet : Fleet) :
    fleet.collect.calls =
      if areIdle fleet.phases then fleet.calls.collect fleet.stage.now else fleet.calls := by
  have idle : fleet.isIdle = areIdle fleet.phases := by
    rw [areIdle, phases, List.all_map]
    rfl
  rw [collect, idle]
  split <;> rfl

theorem Halting.settle (halting : fleet.Halting) :
    fleet.settle.Halting ∧ fleet.settle.stage.now = fleet.stage.now ∧
      fleet.settle.phases = fleet.leftAt fleet.stage.now ∧
      fleet.settle.calls =
        if areIdle (fleet.leftAt fleet.stage.now) then fleet.calls.collect fleet.stage.now
        else fleet.calls := by
  -- the second round finds everybody at rest
  have first := halting.round
  have second := first.halting.round
  have now := second.now.trans first.now
  have phases : fleet.round.round.phases = fleet.leftAt fleet.stage.now := by
    rw [second.phases, first.now]
    exact leftAt_of_phases first.phases (Nat.le_refl _)
  have kept : fleet.settle.phases = fleet.round.round.phases ∧
      fleet.settle.stage = fleet.round.round.stage := by
    unfold Fleet.settle collect
    split <;> exact ⟨rfl, rfl⟩
  refine ⟨halting.after (reaches_settle fleet) halting.agreed.settle, ?_, kept.1.trans phases, ?_⟩
  · rw [kept.2, now]
  · rw [Fleet.settle, collect_calls, now, phases, second.calls, first.calls]

/-- A later state, at rest, of clients that were stopped in an earlier one. -/
structure RestsAfter (fleet later : Fleet) : Prop where
  halting : later.Halting
  time : fleet.stage.now ≤ later.stage.now
  phases : later.phases = fleet.leftAt later.stage.now
  calls : fleet.calls.ReturnAt fleet.busyUntil later.stage.now later.calls

theorem RestsAfter.settle (rests : fleet.RestsAfter later) (halting : state.Halting)
    (passes : later.stage.now ≤ state.stage.now)
    (early : later.stage.now < fleet.busyUntil → state.stage.now ≤ fleet.busyUntil)
    (left : state.leftAt state.stage.now = later.leftAt state.stage.now)
    (same : state.stopped = later.stopped) (more : later.waiting ≤ state.waiting) :
    fleet.RestsAfter state.settle := by
  obtain ⟨halting', now, phases, calls⟩ := halting.settle
  have time := Nat.le_trans rests.time passes
  rw [left, leftAt_of_phases rests.phases passes] at phases calls
  refine ⟨halting', ?_, ?_, ?_⟩
  · rw [now]
    exact time
  · rw [phases, now]
  · have returns := rests.calls.next state.calls passes early same more
    simp only [areIdle_leftAt fleet time] at calls
    rw [now, calls]
    exact returns

theorem RestsAfter.settle_now (rests : fleet.RestsAfter later) (halting : state.Halting)
    (now : state.stage.now = later.stage.now)
    (left : state.leftAt later.stage.now = later.leftAt later.stage.now)
    (same : state.stopped = later.stopped) (more : later.waiting ≤ state.waiting) :
    fleet.RestsAfter state.settle := by
  rw [← now] at left
  refine rests.settle halting (Nat.le_of_eq now.symm) (fun early => ?_) left same more
  rw [now]
  exact Nat.le_of_lt early

/-! ### Time -/

theorem RestsAfter.left (rests : fleet.RestsAfter later) {client : Client} (member : client ∈ later.clients) :
    ∃ phase ∈ fleet.phases, client.phase = phase.leftAt later.stage.now := by
  have present : client.phase ∈ later.phases := List.mem_map_of_mem member
  rw [rests.phases, leftAt] at present
  obtain ⟨phase, before, same⟩ := List.mem_map.mp present
  exact ⟨phase, before, same.symm⟩

theorem RestsAfter.due (rests : fleet.RestsAfter later) {due : Nat} (waits : timed.due? later = some due) :
    later.stage.now < due := by
  obtain ⟨client, member, waits⟩ := List.mem_map.mp (mem_of_earliest? waits)
  obtain ⟨phase, -, left⟩ := rests.left member
  exact (Client.due_of_left left waits fleet.stage.now).1

/-- As long as a sink call is in progress, nothing wakes the clients after the last of these calls. -/
theorem RestsAfter.busy (rests : fleet.RestsAfter later) (busy : later.stage.now < fleet.busyUntil) :
    ∃ first, timed.due? later = some first ∧ first ≤ fleet.busyUntil := by
  have unfinished : areIdle later.phases = false := by
    rw [rests.phases, ← Bool.not_eq_true, areIdle_leftAt fleet rests.time]
    exact Nat.not_le_of_lt busy
  obtain ⟨phase, present, task⟩ := List.all_eq_false.mp unfinished
  obtain ⟨client, member, rfl⟩ := List.mem_map.mp present
  obtain ⟨phase, before, left⟩ := rests.left member
  rw [decide_eq_true_eq, left] at task
  have waits := Client.waits_of_left left rests.time task
  have waiting : some (phase.busyUntil fleet.stage.now) ∈ later.clients.map Client.due? :=
    List.mem_map.mpr ⟨client, member, waits⟩
  obtain ⟨first, found, least⟩ := earliest?_le waiting
  exact ⟨first, found, Nat.le_trans least (fleet.le_busyUntil.2 phase before)⟩

theorem RestsAfter.pass (rests : fleet.RestsAfter later) {finish : Nat} (passes : later.stage.now ≤ finish) :
    fleet.RestsAfter (timed.pass later.stage.now finish later) ∧
      (timed.pass later.stage.now finish later).stage.now = finish := by
  refine Timed.pass_through timed fleet.RestsAfter (fun state => state.stage.now)
    (fun instant state rests passes none => ?_) (fun state due rests waits => rests.due waits) rests passes
  have changes : state.stage.Changes { state.stage with now := instant } := .time instant
  have halting := rests.halting.after (.single (.around changes)) (rests.halting.agreed.around changes)
  have early (busy : state.stage.now < fleet.busyUntil) : instant ≤ fleet.busyUntil := by
    obtain ⟨first, waits, least⟩ := rests.busy busy
    exact Nat.le_trans (none first waits) least
  rw [wake_eq]
  exact ⟨rests.settle halting passes early rfl rfl (Nat.le_refl _), halting.settle.2.1⟩

/-! ### Steps -/

private theorem forAll_map {α : Type} {change : Client → Stage → Client × Stage} (view : Client → α)
    (clients : List Client) (keeps : ∀ client ∈ clients, ∀ stage, view (change client stage).1 = view client)
    (stage : Stage) : (forAll change clients stage).1.map view = clients.map view := by
  induction clients generalizing stage with
  | nil => rfl
  | cons client rest ih =>
      simp only [forAll, List.map_cons]
      rw [keeps client List.mem_cons_self, ih fun other member => keeps other (List.mem_cons_of_mem _ member)]

private theorem changeAll_left {change : Client → Stage → Client × Stage} (now : Nat)
    (keeps : ∀ client ∈ fleet.clients, ∀ stage,
      (change client stage).1.phase.leftAt now = client.phase.leftAt now) :
    (fleet.changeAll change).leftAt now = fleet.leftAt now := by
  simp only [leftAt, phases, changeAll, List.map_map]
  exact forAll_map (fun client => client.phase.leftAt now) fleet.clients keeps fleet.stage

private theorem changeAll_now {change : Client → Stage → Client × Stage}
    (keeps : ∀ client stage, (change client stage).2.now = stage.now) :
    (fleet.changeAll change).stage.now = fleet.stage.now :=
  forAll_stage (fun stage => stage.now = fleet.stage.now)
    (fun client stage same => (keeps client stage).trans same) fleet.clients fleet.stage rfl

theorem stopping (fleet : Fleet) :
    (fleet.begin .stop).1.stage.now = fleet.stage.now ∧ (fleet.begin .stop).1.phases = fleet.phases ∧
      (fleet.begin .stop).1.calls = { waiting := fleet.waiting + 1, stopped := fleet.stopped } := by
  refine ⟨changeAll_now fun client stage => ?_, forAll_map Client.phase fleet.clients (fun client _ stage => ?_) _,
    rfl⟩
  · obtain ⟨links, same⟩ := client.stop_links stage
    rw [same]
  · rw [Client.stop_eq]

theorem RestsAfter.apply (rests : fleet.RestsAfter later) (step : ScenarioStep) :
    fleet.RestsAfter (later.apply step).1 := by
  have begun : (later.begin step).1.Halting :=
    rests.halting.after (reaches_begin later step) (rests.halting.agreed.begin step)
  rw [apply_eq]
  cases step with
  | look | closeReceiver => exact rests.settle_now begun rfl rfl rfl (Nat.le_refl _)
  | start =>
      refine rests.settle_now begun (changeAll_now fun client stage => rfl)
        (changeAll_left _ fun client member stage => ?_) rfl (Nat.le_refl _)
      obtain ⟨place, found⟩ := List.getElem?_of_mem member
      exact Client.start_left (rests.halting.reachable.consistent found).phase.started stage later.stage.now
  | cancel =>
      exact rests.settle_now begun (changeAll_now fun client stage => rfl)
        (changeAll_left _ fun client member stage => rfl) rfl (Nat.le_refl _)
  | stop =>
      obtain ⟨now, phases, -⟩ := later.stopping
      have left : (later.begin .stop).1.leftAt later.stage.now = later.leftAt later.stage.now := by
        rw [leftAt, phases, leftAt]
      exact rests.settle_now begun now left rfl (Nat.le_succ _)
  | sleep millis =>
      have passed := (rests.pass (Nat.le_add_right later.stage.now millis)).1
      simp only [Fleet.begin]
      exact passed.settle_now passed.halting rfl rfl rfl (Nat.le_refl _)
  | push name | hangUp name =>
      exact rests.settle_now begun (later.stage.changeNamed_now ..) rfl rfl (Nat.le_refl _)
  | receive most => exact rests.settle_now begun (later.stage.receive_now most) rfl rfl (Nat.le_refl _)

theorem RestsAfter.play (rests : fleet.RestsAfter later) (steps : List ScenarioStep) :
    fleet.RestsAfter (later.play steps) := by
  induction steps generalizing later with
  | nil => exact rests
  | cons step rest ih => exact ih (rests.apply step)

/-- After a stop all clients are at rest, whatever steps follow. -/
theorem Agreed.rests_after_stop (agreed : fleet.Agreed) (reachable : fleet.Reachable)
    (steps : List ScenarioStep) : (fleet.begin .stop).1.RestsAfter (fleet.play (.stop :: steps)) := by
  have begun : (fleet.begin .stop).1.Halting :=
    ⟨reachable.after (reaches_begin fleet .stop), agreed.begin .stop, agreed.stop.2⟩
  obtain ⟨halting, now, phases, calls⟩ := begun.settle
  have first : (fleet.begin .stop).1.RestsAfter (fleet.begin .stop).1.settle := by
    refine ⟨halting, Nat.le_of_eq now.symm, ?_, ?_⟩
    · rw [phases, now]
    · simp only [areIdle_leftAt _ (Nat.le_refl (fleet.begin .stop).1.stage.now)] at calls
      rw [now, calls]
      exact .start (le_busyUntil _).1
  rw [play_cons, apply_eq]
  exact first.play steps

theorem Agreed.stop_returns (agreed : fleet.Agreed) (reachable : fleet.Reachable) (steps : List ScenarioStep) :
    (fleet.play (.stop :: steps)).stopped[fleet.stopped.length + fleet.waiting]? =
      if fleet.busyUntil ≤ (fleet.play (.stop :: steps)).stage.now then some fleet.busyUntil else none := by
  obtain ⟨now, phases, calls⟩ := fleet.stopping
  have returns := (agreed.rests_after_stop reachable steps).calls
  rw [calls, busyUntil, phases, now] at returns
  exact returns.nth (Nat.lt_succ_self fleet.waiting)

theorem play_waiting (fleet : Fleet) (none : fleet.isIdle = true → fleet.waiting = 0)
    (steps : List ScenarioStep) : (fleet.play steps).isIdle = true → (fleet.play steps).waiting = 0 := by
  have collected (fleet : Fleet) : fleet.collect.isIdle = true → fleet.collect.waiting = 0 := by
    unfold collect
    split
    · exact fun _ => rfl
    · rename_i task
      exact fun idle => absurd idle task
  induction steps generalizing fleet with
  | nil => exact none
  | cons step rest ih =>
      rw [play_cons]
      refine ih (fleet.apply step).1 ?_
      rw [apply_eq, settle]
      exact collected _

theorem Reachable.sinking_since (reachable : fleet.Reachable) {number : Nat} {client : Client}
    (found : fleet.clients[number]? = some client) (stopped : client.isShuttingDown = true)
    (sinking : client.phase.isSinking = true) :
    ∃ (before : Fleet) (client' : Client), before.Reachable ∧ before.Reaches fleet ∧
      before.clients[number]? = some client' ∧ client'.isShuttingDown = false ∧
      client'.phase = client.phase := by
  obtain ⟨stage, settings, sequence, sink, opening, reached⟩ := reachable
  induction reached generalizing client with
  | refl =>
      obtain ⟨options, rfl⟩ := make_client found
      cases stopped
  | @tail before after reaches step ih =>
      have reachable : before.Reachable := ⟨stage, settings, sequence, sink, opening, reaches⟩
      obtain ⟨client', found', happens⟩ := step.before found
      have same : client.phase = client'.phase := by
        rcases happens with acts | ⟨rfl, -⟩
        · exact acts.sinking (reachable.consistent found') stopped sinking
        · rfl
      cases stopping : client'.isShuttingDown with
      | false => exact ⟨before, client', reachable, .single step, found', stopping, same.symm⟩
      | true =>
          rw [same] at sinking ⊢
          obtain ⟨first, client'', reachable, reached, there, unstopped, phase⟩ := ih found' stopping sinking
          exact ⟨first, client'', reachable, reached.tail step, there, unstopped, phase⟩

theorem Reachable.idle_or_sinking (reachable : fleet.Reachable) (stopped : fleet.AllStopped)
    (rest : ∀ client ∈ fleet.clients, client.atRest fleet.stage) :
    fleet.isIdle = true ∨
      ∃ (number : Nat) (client : Client), fleet.clients[number]? = some client ∧
        client.phase.isSinking = true ∧
        ∃ (before : Fleet) (client' : Client), before.Reachable ∧ before.Reaches fleet ∧
          before.clients[number]? = some client' ∧ client'.isShuttingDown = false ∧
          client'.phase = client.phase := by
  cases idle : fleet.isIdle with
  | true => exact .inl rfl
  | false =>
      obtain ⟨client, member, task⟩ := List.all_eq_false.mp idle
      obtain ⟨number, found⟩ := List.getElem?_of_mem member
      have sinking : client.phase.isSinking = true := by
        refine eq_true_of_ne_false fun unsinking => task (decide_eq_true ?_)
        exact (reachable.consistent found).idle_of_stopped (rest client member) (stopped client member) unsinking
      exact .inr ⟨number, client, found, sinking,
        reachable.sinking_since found (stopped client member) sinking⟩

end Fleet

/-- Once a stop has begun, a client or several clients that are at rest have no task and no call waits, or a
sink call that began before the stop is in progress. After a step that stops them they are always at rest, and
the call of that step has returned when the last of the sink calls in progress at the stop has, at the instant
of the stop if there is none. -/
theorem stop_is_prompt :
    (∀ stage options sink steps, Stage.Opening stage →
      let run := (ClientRun.make stage options sink).play steps
      (run.client.isShuttingDown = true → run.client.atRest run.stage →
        run.client.phase = .idle ∧ run.waiting = 0 ∨
          run.client.phase.isSinking = true ∧
            ∃ before : ClientRun, before.Reachable ∧ before.Reaches run ∧
              before.client.isShuttingDown = false ∧ before.client.phase = run.client.phase) ∧
      ∀ next, let later := run.play (.stop :: next)
        later.client.atRest later.stage ∧
          later.stopped[run.stopped.length + run.waiting]? =
            if run.busyUntil ≤ later.stage.now then some run.busyUntil else none) ∧
    ∀ stage settings sequence sink steps, Stage.Opening stage →
      let fleet := (Fleet.make stage settings sequence sink).play steps
      ((∃ client ∈ fleet.clients, client.isShuttingDown = true) →
        (∀ client ∈ fleet.clients, client.atRest fleet.stage) →
          fleet.isIdle = true ∧ fleet.waiting = 0 ∨
            ∃ (number : Nat) (client : Client), fleet.clients[number]? = some client ∧
              client.phase.isSinking = true ∧
              ∃ (before : Fleet) (client' : Client), before.Reachable ∧ before.Reaches fleet ∧
                before.clients[number]? = some client' ∧ client'.isShuttingDown = false ∧
                client'.phase = client.phase) ∧
      ∀ next, let later := fleet.play (.stop :: next)
        (∀ client ∈ later.clients, client.atRest later.stage) ∧
          later.stopped[fleet.stopped.length + fleet.waiting]? =
            if fleet.busyUntil ≤ later.stage.now then some fleet.busyUntil else none := by
  refine ⟨fun stage options sink steps opening => ?_, fun stage settings sequence sink steps opening => ?_⟩
  · intro run
    have reachable : run.Reachable := ClientRun.reachable_play opening options sink steps
    refine ⟨fun stopped rest => ?_, fun next => ⟨?_, reachable.stop_returns next⟩⟩
    · have waiting := (ClientRun.make stage options sink).play_waiting (fun _ => rfl) steps
      exact (reachable.idle_or_sinking stopped rest).imp_left fun idle => ⟨idle, waiting idle⟩
    · exact Client.atRest_of_left (reachable.rests_after_stop next).phase
  · intro fleet
    have reachable : fleet.Reachable := Fleet.reachable_play opening settings sequence sink steps
    have agreed : fleet.Agreed := (Fleet.agreed_make opening settings sequence sink).play steps
    refine ⟨fun some rest => ?_, fun next => ⟨fun client member => ?_, agreed.stop_returns reachable next⟩⟩
    · have stopped : fleet.AllStopped := by
        obtain ⟨client, member, stopped⟩ := some
        exact agreed.together.resolve_left fun none =>
          absurd stopped (ne_true_of_eq_false (none client member))
      have unasked : (Fleet.make stage settings sequence sink).waiting = 0 := by
        unfold Fleet.make
        split <;> rfl
      have waiting := (Fleet.make stage settings sequence sink).play_waiting (fun _ => unasked) steps
      exact (reachable.idle_or_sinking stopped rest).imp_left fun idle => ⟨idle, waiting idle⟩
    · obtain ⟨phase, -, left⟩ := (agreed.rests_after_stop reachable next).left member
      exact Client.atRest_of_left left

/-- A client is stopped in its sink, and its call returns with the sink call. Of two others one reads and one is
in a dial that never ends; their call returns at once. -/
theorem stop_is_prompt_in_sink_and_dial :
    let run := (ClientRun.make (Stage.planned [("ws://feed", [⟨.connect "first", 0, false⟩])] none)
      (ClientOptions.standard "ws://feed") ⟨false, 5⟩).play
        [.start, .push "first" (.ok (batchFrame 7 [.null])) 1, .sleep 2]
    let fleet := (Fleet.make
      (Stage.planned [("ws://fast", [⟨.connect "first", 0, false⟩]), ("ws://slow", [])] none)
      ⟨["ws://fast", "ws://slow"], .ofSeconds 20⟩ 0 ⟨false, 5⟩).play [.start, .sleep 2]
    (run.play [.stop, .sleep 2]).stopped[0]? = none ∧ (run.play [.stop, .sleep 10]).stopped[0]? = some 5 ∧
      (fleet.play [.stop]).stopped[0]? = some 2 := by
  intro run fleet
  have opening : Stage.Opening
      (Stage.planned [("ws://feed", [⟨.connect "first", 0, false⟩])] none) := .planned ..
  have opening' : Stage.Opening
      (Stage.planned [("ws://fast", [⟨.connect "first", 0, false⟩]), ("ws://slow", [])] none) := .planned ..
  have returns (next : List ScenarioStep) :
      (run.play (.stop :: next)).stopped[run.stopped.length + run.waiting]? =
        if run.busyUntil ≤ (run.play (.stop :: next)).stage.now then some run.busyUntil else none :=
    ((stop_is_prompt.1 _ _ _ _ opening).2 next).2
  have returns' :
      (fleet.play [.stop]).stopped[fleet.stopped.length + fleet.waiting]? =
        if fleet.busyUntil ≤ (fleet.play [.stop]).stage.now then some fleet.busyUntil else none :=
    ((stop_is_prompt.2 _ _ _ _ _ opening').2 []).2
  obtain ⟨calls, busy, early, late⟩ : run.stopped.length + run.waiting = 0 ∧ run.busyUntil = 5 ∧
      (run.play [.stop, .sleep 2]).stage.now = 4 ∧ (run.play [.stop, .sleep 10]).stage.now = 12 := by
    decide +kernel
  obtain ⟨calls', busy', late'⟩ : fleet.stopped.length + fleet.waiting = 0 ∧ fleet.busyUntil = 2 ∧
      (fleet.play [.stop]).stage.now = 2 := by
    subst fleet
    cbv
  clear_value run fleet
  refine ⟨?_, ?_, ?_⟩
  · have waits := returns [.sleep 2]
    rw [calls, busy, early] at waits
    exact waits
  · have returned := returns [.sleep 10]
    rw [calls, busy, late] at returned
    exact returned
  · rw [calls', busy', late'] at returns'
    exact returns'

end SequencedFeed
