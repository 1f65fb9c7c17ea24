import SequencedFeed.Client.Rest
import SequencedFeed.Scenario
import SequencedFeed.Timeline
set_option autoImplicit false

/-!
# A client by itself

One client on its stage, driven step by step, together with the calls that wait for it to stop. After
every step the client is at rest.
-/

namespace SequencedFeed

/-- A client on a stage. Calls that stop the client return once it has no task any more: some are
`waiting`, others have `stopped` at an instant. -/
structure ClientRun where
  stage : Stage
  client : Client
  waiting : Nat
  stopped : List Nat

namespace ClientRun

def make (stage : Stage) (options : ClientOptions) (sink : SinkScript) : ClientRun :=
  { stage, client := Client.make 0 options sink, waiting := 0, stopped := [] }

/-- Lets the calls that stop the client return if it has no task. -/
def collect (run : ClientRun) : ClientRun :=
  if run.client.isIdle then
    { run with
      waiting := 0
      stopped := run.stopped ++ List.replicate run.waiting run.stage.now }
  else run

def settle (run : ClientRun) : ClientRun :=
  let (client, stage) := run.client.settle run.stage
  { run with client, stage }.collect

def timed : Timed ClientRun where
  due? run := run.client.due?
  wake instant run := { run with stage := { run.stage with now := instant } }.settle

/-- What a step changes before the client moves, with the values that it receives. -/
def begin (run : ClientRun) : ScenarioStep → ClientRun × List Nat
  | .look => (run, [])
  | .start => ({ run with client := run.client.start run.stage }, [])
  | .cancel =>
      ({ run with stage := { run.stage with tokenCancelled := true }, client := run.client.cancel }, [])
  | .stop =>
      let (client, stage) := run.client.stop run.stage
      ({ run with client, stage, waiting := run.waiting + 1 }, [])
  | .sleep millis => (timed.pass run.stage.now (run.stage.now + millis) run, [])
  | .push name item times => ({ run with stage := run.stage.push name item times }, [])
  | .hangUp name => ({ run with stage := run.stage.hangUp name }, [])
  | .receive most =>
      let (values, stage) := run.stage.receive most
      ({ run with stage }, values)
  | .closeReceiver => ({ run with stage := run.stage.closeReceiver }, [])

/-- One step, after which the client is at rest. -/
def apply (run : ClientRun) (step : ScenarioStep) : ClientRun × List Nat :=
  let (run, values) := run.begin step
  (run.settle, values)

end ClientRun

end SequencedFeed
