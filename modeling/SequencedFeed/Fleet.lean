import SequencedFeed.Client.Rest
import SequencedFeed.Scenario
import SequencedFeed.Settings
import SequencedFeed.Timeline
set_option autoImplicit false

/-!
# Several clients together

One client for every configured address, all on one stage: they share the clock, the token and the
confirmation channel, and addresses that are equal share a dial script. Clients that can move at the
same instant take turns, the one whose last move is oldest first.
-/

namespace SequencedFeed

/-- Clients on a stage, what was reported for all of them together with the latest record first, and
the calls that stop them all: some are `waiting`, others have `stopped` at an instant. -/
structure Fleet where
  stage : Stage
  clients : List Client
  reports : List LogRecord
  waiting : Nat
  stopped : List Nat

namespace Fleet

/-- Clients for addresses, numbered in order. They wait as long as configured for a frame; everything
else is as usual. -/
def crew (settings : FeedSettings) (sequence : Nat) (sink : SinkScript) : List Client :=
  settings.endpoints.mapIdx fun number url =>
    Client.make number
      (((ClientOptions.standard url).withIdleTimeout settings.timeout).withInitialSequence sequence) sink

/-- The clients of a configuration; a configuration that is switched off has none. -/
def make (stage : Stage) (settings : FeedSettings) (sequence : Nat) (sink : SinkScript) : Fleet :=
  if settings.isEnabled then
    { stage, clients := crew settings sequence sink, reports := [], waiting := 0, stopped := [] }
  else
    { stage, clients := [], reports := [⟨stage.now, .noClients⟩], waiting := 0, stopped := [] }

/-! ### Views -/

def size (fleet : Fleet) : Nat :=
  fleet.clients.length

def retryCount (fleet : Fleet) : Nat :=
  (fleet.clients.map Client.retryCount).foldr (· + ·) 0

def metrics (fleet : Fleet) : Metrics :=
  Metrics.sum (fleet.clients.map Client.metrics)

def isIdle (fleet : Fleet) : Bool :=
  fleet.clients.all Client.isIdle

/-- The records of the fleet and of its clients, each in the order in which they were made. -/
def records (fleet : Fleet) : List LogRecord :=
  fleet.reports.reverse ++ fleet.clients.flatMap Client.records

/-! ### All clients at once -/

def forAll (change : Client → Stage → Client × Stage) : List Client → Stage → List Client × Stage
  | [], stage => ([], stage)
  | client :: rest, stage =>
      let (client, stage) := change client stage
      let (rest, stage) := forAll change rest stage
      (client :: rest, stage)

def changeAll (fleet : Fleet) (change : Client → Stage → Client × Stage) : Fleet :=
  let (clients, stage) := forAll change fleet.clients fleet.stage
  { fleet with clients, stage }

def report (fleet : Fleet) (event : LogEvent) : Fleet :=
  { fleet with reports := ⟨fleet.stage.now, event⟩ :: fleet.reports }

def start (fleet : Fleet) : Fleet :=
  (fleet.report (.startingClients fleet.size)).changeAll fun client stage =>
    (client.start stage, stage)

def cancel (fleet : Fleet) : Fleet :=
  { fleet with stage := { fleet.stage with tokenCancelled := true } }.changeAll fun client stage =>
    (client.cancel, stage)

def stop (fleet : Fleet) : Fleet :=
  fleet.changeAll fun client stage => client.stop stage

/-! ### Coming to rest -/

/-- Passes on the request of one client to stop all of them; it has already stopped itself. -/
def passOnStop (fleet : Fleet) (asker : Nat) : Fleet :=
  if fleet.stage.stopAsked then
    { fleet with stage := { fleet.stage with stopAsked := false } }.changeAll fun client stage =>
      if client.number = asker then (client, stage) else client.stop stage
  else fleet

def turnOf (fleet : Fleet) (number : Nat) : Fleet :=
  match fleet.clients[number]? with
  | none => fleet
  | some client =>
      let (client, stage) := client.takeTurn fleet.stage
      { fleet with clients := fleet.clients.set number client, stage }.passOnStop number

/-- The numbers of all clients, the one whose last move is oldest first. -/
def turns (fleet : Fleet) : List Nat :=
  (fleet.clients.mergeSort fun client other => client.lastMove ≤ other.lastMove).map Client.number

def round (fleet : Fleet) : Fleet :=
  fleet.turns.foldl turnOf fleet

/-- Lets the calls that stop the fleet return if no client has a task. -/
def collect (fleet : Fleet) : Fleet :=
  if fleet.isIdle then
    { fleet with
      waiting := 0
      stopped := fleet.stopped ++ List.replicate fleet.waiting fleet.stage.now }
  else fleet

/-- Brings all clients to rest. In a second round those begin to read whose start-up has ended in the
first one, and those end whom a request to stop has reached after their turn. -/
def settle (fleet : Fleet) : Fleet :=
  fleet.round.round.collect

/-! ### Steps -/

def timed : Timed Fleet where
  due? fleet := earliest? (fleet.clients.map Client.due?)
  wake instant fleet := { fleet with stage := { fleet.stage with now := instant } }.settle

/-- What a step changes before the clients move, with the values that it receives. -/
def begin (fleet : Fleet) : ScenarioStep → Fleet × List Nat
  | .look => (fleet, [])
  | .start => (fleet.start, [])
  | .cancel => (fleet.cancel, [])
  | .stop => ({ fleet.stop with waiting := fleet.waiting + 1 }, [])
  | .sleep millis => (timed.pass fleet.stage.now (fleet.stage.now + millis) fleet, [])
  | .push name item times => ({ fleet with stage := fleet.stage.push name item times }, [])
  | .hangUp name => ({ fleet with stage := fleet.stage.hangUp name }, [])
  | .receive most =>
      let (values, stage) := fleet.stage.receive most
      ({ fleet with stage }, values)
  | .closeReceiver => ({ fleet with stage := fleet.stage.closeReceiver }, [])

/-- One step, after which every client is at rest. -/
def apply (fleet : Fleet) (step : ScenarioStep) : Fleet × List Nat :=
  let (fleet, values) := fleet.begin step
  (fleet.settle, values)

end Fleet

end SequencedFeed
