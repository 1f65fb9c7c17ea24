import SequencedFeed.Proofs.Punctuality
set_option autoImplicit false

/-!
# What lasts through a run

A property of a client on its stage, which may speak of the present instant and of the values received so far,
holds after every step of every run if it is kept by what happens to the client and around it and by the passing
of time while the client rests, up to the instant that the client waits for.
-/

namespace SequencedFeed

theorem Client.Acts.sink {client client' : Client} {stage stage' : Stage} (acts : client.Acts stage client' stage') :
    client'.sink = client.sink := by
  cases acts with
  | start starts =>
      cases starts with
      | report | first => rfl
  | cancel => rfl
  | stop => exact (Client.stop_keeps client stage).sink
  | move moves =>
      obtain ⟨next, around, moved, rfl, rfl⟩ := Client.moves_of_move moves
      exact moved.keeps.sink

theorem Client.Acts.number {client client' : Client} {stage stage' : Stage} (acts : client.Acts stage client' stage') :
    client'.number = client.number := by
  cases acts with
  | start starts =>
      cases starts with
      | report | first => rfl
  | cancel => rfl
  | stop => exact (Client.stop_keeps client stage).number
  | move moves =>
      obtain ⟨next, around, moved, rfl, rfl⟩ := Client.moves_of_move moves
      exact moved.keeps.number

theorem ClientRun.Reaches.sink {run later : ClientRun} (reaches : run.Reaches later) :
    later.client.sink = run.client.sink := by
  induction reaches with
  | refl => rfl
  | tail reaches step ih =>
      rcases step.acts with acts | ⟨client, -⟩
      · exact acts.sink.trans ih
      · rw [client]
        exact ih

theorem ClientRun.Reaches.names {run later : ClientRun} (reaches : run.Reaches later) :
    later.stage.names = run.stage.names := by
  induction reaches with
  | refl => rfl
  | tail reaches step ih =>
      refine Eq.trans ?_ ih
      rcases step.acts with acts | ⟨-, same | changes⟩
      · exact acts.later.names
      · rw [same]
      · exact changes.grows.names

/-- A property that lasts. Between two steps a client that lets time pass is at rest, so the property only has to
endure a waiting client. -/
structure Client.Lasts (holds : List Nat → Client → Stage → Prop) : Prop where
  acts : ∀ {received : List Nat} {client client' : Client} {stage stage' : Stage}, client.Consistent stage →
    holds received client stage → client.Acts stage client' stage' → holds received client' stage'
  around : ∀ {received : List Nat} {client : Client} {stage stage' : Stage}, holds received client stage →
    stage.Changes stage' → stage'.now = stage.now → stage'.channel = stage.channel → holds received client stage'
  receive : ∀ {received : List Nat} {client : Client} {stage : Stage} (most : Option Nat),
    holds received client stage → holds (received ++ (stage.receive most).1) client (stage.receive most).2
  waits : ∀ {received : List Nat} {client : Client} {stage : Stage} {instant : Nat}, client.atRest stage →
    holds received client stage → stage.now ≤ instant → (∀ due, client.due? = some due → instant ≤ due) →
      holds received client { stage with now := instant }

def Client.Closes (holds : List Nat → Client → Stage → Prop) : Prop :=
  ∀ {received : List Nat} {client : Client} {stage : Stage},
    holds received client stage → holds received client stage.closeReceiver

theorem Stage.changeNamed_channel (stage : Stage) (name : String) (change : Link → Link) :
    (stage.changeNamed name change).channel = stage.channel := by
  obtain ⟨links, same⟩ := stage.changeNamed_links name change
  rw [same]

namespace ClientRun

def received (run : ClientRun) : List ScenarioStep → List Nat
  | [] => []
  | step :: rest => (run.apply step).2 ++ (run.apply step).1.received rest

/-- A run with a property, at an instant at which its client still may have something to do. -/
structure Busy (holds : List Nat → Client → Stage → Prop) (received : List Nat) (run : ClientRun) : Prop where
  consistent : run.client.Consistent run.stage
  pauses : run.client.Pauses run.stage
  holds : holds received run.client run.stage

structure Rested (holds : List Nat → Client → Stage → Prop) (received : List Nat) (run : ClientRun) : Prop
    extends Busy holds received run where
  rest : run.client.atRest run.stage

variable {holds : List Nat → Client → Stage → Prop} {run : ClientRun} {got : List Nat}

theorem Busy.act (busy : run.Busy holds got) (lasts : Client.Lasts holds) {client : Client} {stage : Stage}
    {waiting : Nat} {stopped : List Nat} (acts : run.client.Acts run.stage client stage) :
    Busy holds got ⟨stage, client, waiting, stopped⟩ :=
  ⟨busy.consistent.acts acts, acts.pauses busy.pauses, lasts.acts busy.consistent busy.holds acts⟩

theorem Busy.grow (busy : run.Busy holds got) {stage : Stage} (changes : run.stage.Changes stage)
    {more : List Nat} (still : holds more run.client stage) : Busy holds more { run with stage } := by
  have grows := changes.grows
  refine ⟨busy.consistent.later grows.later, ?_, still⟩
  rw [Client.Pauses, Stage.script, grows.scripts]
  exact busy.pauses

private theorem Busy.moveUpTo (lasts : Client.Lasts holds) (count : Nat) {client : Client} {stage : Stage}
    {waiting : Nat} {stopped : List Nat} (busy : Busy holds got ⟨stage, client, waiting, stopped⟩) :
    Busy holds got
        ⟨(Client.moveUpTo count client stage).2, (Client.moveUpTo count client stage).1, waiting, stopped⟩ ∧
      (Client.moveUpTo count client stage).2.now = stage.now := by
  induction count generalizing client stage with
  | zero => exact ⟨busy, rfl⟩
  | succ count ih =>
      unfold Client.moveUpTo
      cases moved : client.move? stage with
      | none => exact ⟨busy, rfl⟩
      | some next =>
          obtain ⟨client', stage'⟩ := next
          have now : stage'.now = stage.now := by
            obtain ⟨next, around, moves, -, rfl⟩ := Client.moves_of_move moved
            obtain ⟨scripts, links, channel, stopAsked, rfl⟩ := moves.surroundings
            rfl
          have acts : client.Acts stage client' stage' := .move moved
          obtain ⟨rests, later⟩ := ih (busy.act lasts acts)
          exact ⟨rests, later.trans now⟩

theorem Busy.settle (busy : run.Busy holds got) (lasts : Client.Lasts holds) :
    run.settle.Rested holds got ∧ run.settle.stage.now = run.stage.now := by
  have rest := busy.consistent.settle_atRest busy.pauses
  have start : Busy holds got ⟨run.stage, run.client, run.waiting, run.stopped⟩ := busy
  obtain ⟨⟨consistent, pauses, still⟩, now⟩ := start.moveUpTo lasts (run.client.work run.stage)
  simp only [ClientRun.settle, Client.settle]
  refine ⟨⟨⟨?_, ?_, ?_⟩, ?_⟩, ?_⟩ <;> simp only [(collect_kept _).1, (collect_kept _).2]
  · exact consistent
  · exact pauses
  · exact still
  · exact rest
  · exact now

theorem Rested.wake (rested : run.Rested holds got) (lasts : Client.Lasts holds) {instant : Nat}
    (passes : run.stage.now ≤ instant) (early : ∀ due, timed.due? run = some due → instant ≤ due) :
    (timed.wake instant run).Rested holds got ∧ (timed.wake instant run).stage.now = instant := by
  have changes : run.stage.Changes { run.stage with now := instant } := .time instant
  rw [wake_eq]
  exact (rested.toBusy.grow changes (lasts.waits rested.rest rested.holds passes early)).settle lasts

theorem Rested.pass (rested : run.Rested holds got) (lasts : Client.Lasts holds) {finish : Nat}
    (passes : run.stage.now ≤ finish) : (timed.pass run.stage.now finish run).Rested holds got :=
  (Timed.pass_through timed (Rested holds got) (fun state => state.stage.now)
    (fun _ _ rested passes early => rested.wake lasts passes early)
    (fun _ _ rested waits => Client.lt_due_of_atRest rested.rest waits) rested passes).1

theorem Rested.apply (rested : run.Rested holds got) (lasts : Client.Lasts holds) (step : ScenarioStep)
    (closes : step = .closeReceiver → Client.Closes holds) :
    (run.apply step).1.Rested holds (got ++ (run.apply step).2) := by
  have busy := rested.toBusy
  have begun : (run.begin step).1.Busy holds (got ++ (run.begin step).2) := by
    cases step with
    | look =>
        simp only [begin, List.append_nil]
        exact busy
    | start =>
        simp only [begin, List.append_nil]
        exact busy.act lasts (.start (Client.start_starts ..))
    | cancel =>
        simp only [begin, List.append_nil]
        exact busy.act lasts .cancel
    | stop =>
        simp only [begin, List.append_nil]
        exact busy.act lasts .stop
    | sleep millis =>
        simp only [begin, List.append_nil]
        exact (rested.pass lasts (Nat.le_add_right ..)).toBusy
    | push name item times =>
        simp only [begin, List.append_nil]
        have changes : run.stage.Changes (run.stage.push name item times) := .push name item times
        exact busy.grow changes (lasts.around busy.holds changes (Stage.changeNamed_now ..)
          (Stage.changeNamed_channel ..))
    | hangUp name =>
        simp only [begin, List.append_nil]
        have changes : run.stage.Changes (run.stage.hangUp name) := .hangUp name
        exact busy.grow changes (lasts.around busy.holds changes (Stage.changeNamed_now ..)
          (Stage.changeNamed_channel ..))
    | receive most => exact busy.grow (.receive most) (lasts.receive most busy.holds)
    | closeReceiver =>
        simp only [begin, List.append_nil]
        exact busy.grow .closeReceiver (closes rfl busy.holds)
  exact (begun.settle lasts).1

theorem Rested.play (rested : run.Rested holds got) (lasts : Client.Lasts holds) (steps : List ScenarioStep)
    (closes : ScenarioStep.closeReceiver ∈ steps → Client.Closes holds) :
    (run.play steps).Rested holds (got ++ run.received steps) := by
  induction steps generalizing run got with
  | nil =>
      simp only [received, List.append_nil]
      exact rested
  | cons step rest ih =>
      have first := rested.apply lasts step fun same => closes (same ▸ List.mem_cons_self ..)
      rw [play_cons, received, ← List.append_assoc]
      exact ih first fun member => closes (List.mem_cons_of_mem _ member)

/-- What lasts and holds at the opening holds after every step of a run. Where dials fail without end, the waits
at start-up must not be empty: such a client would never let any time pass. -/
theorem rested_play {stage : Stage} (opening : stage.Opening) {options : ClientOptions}
    (pauses : (stage.script options.endpoint.url).beyond.isSome = true → 0 < options.supervisorDelay.millis)
    (sink : SinkScript) (lasts : Client.Lasts holds) (opens : holds [] (Client.make 0 options sink) stage)
    (steps : List ScenarioStep) (closes : ScenarioStep.closeReceiver ∈ steps → Client.Closes holds) :
    ((make stage options sink).play steps).Rested holds ((make stage options sink).received steps) := by
  have opened : (make stage options sink).Reachable := reachable_play opening options sink []
  have start : (make stage options sink).Rested holds [] :=
    { consistent := opened.consistent
      pauses := pauses
      holds := opens
      rest := rfl }
  exact start.play lasts steps closes

end ClientRun

end SequencedFeed
