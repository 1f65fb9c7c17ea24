import Mathlib.Logic.Relation
import SequencedFeed.Client.Run
import SequencedFeed.Proofs.Moves
import SequencedFeed.Proofs.Time
set_option autoImplicit false

/-!
# Reachable states of a client

A client's run in single steps: one start, cancellation or request to stop, one move of its task, or one
change around it. Every scenario step is a chain of these (`reaches_apply`), so what holds in every
reachable state holds after every step of every scenario, and at every instant that a sleep passes. The
clock may stand at any instant after any step: statements about reachable states do not rest on time.
-/

namespace SequencedFeed

/-- What happens to a client, with what it does to its stage. -/
inductive Client.Acts (client : Client) (stage : Stage) : Client → Stage → Prop
  | start {client' : Client} (starts : client.Starts stage client') : Acts client stage client' stage
  | cancel : Acts client stage client.cancel { stage with tokenCancelled := true }
  | stop : Acts client stage (client.stop stage).1 (client.stop stage).2
  | move {client' : Client} {stage' : Stage} (moves : client.move? stage = some (client', stage')) :
      Acts client stage client' stage'

theorem Client.moves_of_move {client client' : Client} {stage stage' : Stage}
    (moved : client.move? stage = some (client', stage')) :
    ∃ next around, client.Moves stage next around ∧
      client' = { next with lastMove := around.moves } ∧
      stage' = { around with moves := around.moves + 1 } := by
  unfold move? at moved
  obtain ⟨⟨next, around⟩, proceeds, numbered⟩ := Option.map_eq_some_iff.mp moved
  obtain ⟨rfl, rfl⟩ := Prod.mk.inj numbered
  exact ⟨next, around, moves_of_proceed proceeds, rfl, rfl⟩

theorem Client.Acts.history {client client' : Client} {stage stage' : Stage}
    (acts : client.Acts stage client' stage') : client.history <:+ client'.history := by
  cases acts with
  | start starts =>
      cases starts with
      | report barred => exact List.suffix_cons ..
      | first enabled unstarted => exact List.suffix_rfl
  | cancel => exact List.suffix_rfl
  | stop => exact (Client.stop_keeps client stage).history
  | move moves =>
      obtain ⟨next, around, moved, rfl, rfl⟩ := Client.moves_of_move moves
      exact moved.keeps.history

namespace ClientRun

inductive Step (run : ClientRun) : ClientRun → Prop
  | start : Step run { run with client := run.client.start run.stage }
  | cancel :
      Step run
        { run with stage := { run.stage with tokenCancelled := true }, client := run.client.cancel }
  | stop :
      Step run
        { run with
          client := (run.client.stop run.stage).1
          stage := (run.client.stop run.stage).2
          waiting := run.waiting + 1 }
  | move {client : Client} {stage : Stage} (moves : run.client.move? run.stage = some (client, stage)) :
      Step run { run with client, stage }
  | around {stage : Stage} (changes : run.stage.Changes stage) : Step run { run with stage }
  | collect : Step run run.collect

/-- From one state of a run to a later one. -/
def Reaches : ClientRun → ClientRun → Prop :=
  Relation.ReflTransGen Step

/-- The states of all runs, of any client on any stage on which nothing has happened yet. -/
def Reachable (run : ClientRun) : Prop :=
  ∃ stage options sink, Stage.Opening stage ∧ (make stage options sink).Reaches run

theorem Step.reaches {run later : ClientRun} (step : Step run later) : run.Reaches later :=
  .single step

theorem Reachable.later {run later : ClientRun} (reachable : Reachable run)
    (reaches : run.Reaches later) : Reachable later := by
  obtain ⟨stage, options, sink, opening, reached⟩ := reachable
  exact ⟨stage, options, sink, opening, reached.trans reaches⟩

theorem collect_kept (run : ClientRun) : run.collect.client = run.client ∧ run.collect.stage = run.stage := by
  unfold collect
  split <;> exact ⟨rfl, rfl⟩

theorem Step.acts {run later : ClientRun} (step : Step run later) :
    run.client.Acts run.stage later.client later.stage ∨
      (later.client = run.client ∧ (later.stage = run.stage ∨ run.stage.Changes later.stage)) := by
  cases step with
  | start => exact .inl (.start (Client.start_starts ..))
  | cancel => exact .inl .cancel
  | stop => exact .inl .stop
  | move moves => exact .inl (.move moves)
  | around changes => exact .inr ⟨rfl, .inr changes⟩
  | collect =>
      obtain ⟨client, stage⟩ := run.collect_kept
      exact .inr ⟨client, .inl stage⟩

theorem Step.history {run later : ClientRun} (step : Step run later) :
    run.client.history <:+ later.client.history := by
  rcases step.acts with happens | ⟨same, -⟩
  · exact happens.history
  · exact same ▸ List.suffix_rfl

theorem Reaches.history {run later : ClientRun} (reaches : run.Reaches later) :
    run.client.history <:+ later.client.history := by
  induction reaches with
  | refl => exact List.suffix_rfl
  | tail reaches step ih => exact ih.trans step.history

/-- What holds at the opening and is kept by everything that happens to the client or around it holds
in every reachable state. -/
theorem Reachable.invariant (holds : Client → Stage → Prop)
    (opening : ∀ stage options sink, Stage.Opening stage → holds (Client.make 0 options sink) stage)
    (acts : ∀ {run : ClientRun} {client : Client} {stage : Stage}, Reachable run →
      holds run.client run.stage → run.client.Acts run.stage client stage → holds client stage)
    (around : ∀ {client : Client} {stage stage' : Stage}, holds client stage → stage.Changes stage' →
      holds client stage')
    {run : ClientRun} (reachable : Reachable run) : holds run.client run.stage := by
  obtain ⟨stage, options, sink, opened, reached⟩ := reachable
  induction reached with
  | refl => exact opening stage options sink opened
  | @tail before after reaches step ih =>
      have reachable : Reachable before := ⟨stage, options, sink, opened, reaches⟩
      rcases step.acts with happens | ⟨same, kept | changes⟩
      · exact acts reachable ih happens
      · rw [same, kept]
        exact ih
      · rw [same]
        exact around ih changes

/-- What is true now and is kept by every step stays true. -/
theorem Reaches.keeps {run later : ClientRun} (reaches : run.Reaches later) (holds : ClientRun → Prop)
    (reachable : Reachable run) (now : holds run)
    (step : ∀ {run later : ClientRun}, Reachable run → holds run → Step run later → holds later) :
    holds later := by
  induction reaches with
  | refl => exact now
  | tail reaches next ih => exact step (reachable.later reaches) ih next

/-! ### Scenarios -/

private theorem moveUpTo_reaches (run : ClientRun) (count : Nat) (client : Client) (stage : Stage) :
    Reaches { run with client, stage }
      { run with
        client := (Client.moveUpTo count client stage).1
        stage := (Client.moveUpTo count client stage).2 } := by
  induction count generalizing client stage with
  | zero => exact .refl
  | succ count ih =>
      cases moves : client.move? stage with
      | none =>
          simp only [Client.moveUpTo, moves]
          exact .refl
      | some next =>
          obtain ⟨client', stage'⟩ := next
          have moved : Step { run with client, stage } { run with client := client', stage := stage' } :=
            .move moves
          simp only [Client.moveUpTo, moves]
          exact (ih client' stage').head moved

theorem reaches_settle (run : ClientRun) : run.Reaches run.settle := by
  have moved := moveUpTo_reaches run (run.client.work run.stage) run.client run.stage
  simp only [settle, Client.settle]
  exact moved.tail .collect

theorem wake_eq (instant : Nat) (run : ClientRun) :
    timed.wake instant run = settle { run with stage := { run.stage with now := instant } } :=
  rfl

private theorem reaches_wake (instant : Nat) (run : ClientRun) :
    run.Reaches (timed.wake instant run) := by
  have passed : Step run { run with stage := { run.stage with now := instant } } := .around (.time instant)
  have rested := reaches_settle { run with stage := { run.stage with now := instant } }
  rw [wake_eq]
  exact rested.head passed

theorem reaches_begin (run : ClientRun) (step : ScenarioStep) : run.Reaches (run.begin step).1 := by
  cases step with
  | look => exact .refl
  | start => exact .single .start
  | cancel => exact .single .cancel
  | stop => exact .single .stop
  | sleep millis =>
      have wakes (instant : Nat) (state : ClientRun) (reached : run.Reaches state) :
          run.Reaches (timed.wake instant state) := reached.trans (reaches_wake instant state)
      have here : run.Reaches run := .refl
      simp only [begin]
      exact Timed.pass_keeps wakes run.stage.now (run.stage.now + millis) here
  | push name item times => exact .single (.around (.push name item times))
  | hangUp name => exact .single (.around (.hangUp name))
  | receive most => exact .single (.around (.receive most))
  | closeReceiver => exact .single (.around .closeReceiver)

theorem apply_eq (run : ClientRun) (step : ScenarioStep) :
    (run.apply step).1 = (run.begin step).1.settle :=
  rfl

theorem reaches_apply (run : ClientRun) (step : ScenarioStep) : run.Reaches (run.apply step).1 := by
  rw [apply_eq]
  exact (reaches_begin run step).trans (reaches_settle _)

def play (run : ClientRun) (steps : List ScenarioStep) : ClientRun :=
  steps.foldl (fun run step => (run.apply step).1) run

theorem play_cons (run : ClientRun) (step : ScenarioStep) (steps : List ScenarioStep) :
    run.play (step :: steps) = (run.apply step).1.play steps :=
  rfl

theorem play_append (run : ClientRun) (first second : List ScenarioStep) :
    run.play (first ++ second) = (run.play first).play second :=
  List.foldl_append

theorem reaches_play (run : ClientRun) (steps : List ScenarioStep) : run.Reaches (run.play steps) := by
  induction steps generalizing run with
  | nil => exact .refl
  | cons step rest ih => exact (reaches_apply run step).trans (ih _)

theorem reaches_play_cons (run : ClientRun) (step : ScenarioStep) (steps : List ScenarioStep) :
    (run.begin step).1.Reaches (run.play (step :: steps)) := by
  rw [play_cons, apply_eq]
  exact (reaches_settle _).trans (reaches_play _ steps)

theorem reachable_play {stage : Stage} (opening : stage.Opening) (options : ClientOptions)
    (sink : SinkScript) (steps : List ScenarioStep) : Reachable ((make stage options sink).play steps) :=
  ⟨stage, options, sink, opening, reaches_play _ steps⟩

end ClientRun

end SequencedFeed
