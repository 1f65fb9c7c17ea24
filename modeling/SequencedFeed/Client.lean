import SequencedFeed.Endpoint
import SequencedFeed.Json.Value
import SequencedFeed.Slot
import SequencedFeed.Stage
set_option autoImplicit false

/-!
# Clients

A client keeps one connection to its endpoint. Its single task is always in one phase: it dials, waits
to dial again, reads, hands payloads to the sink, or sends a confirmation. This module has the state
of a client, what it leaves behind in its history, and how it is started, cancelled and stopped.
-/

namespace SequencedFeed

/-- Why a client dials: to start up, or again after a wait because a connection failed. -/
inductive Episode
  | startUp
  | reconnect (waited : Duration)
deriving DecidableEq

/-- What the task of a client does. It can stay in `hanging`, `dialling`, the two waits, `reading`,
`sinking` and `sending`; from the other phases it goes on at once. -/
inductive Phase
  /-- There is no task: it was never started or has ended. -/
  | idle
  | connecting (episode : Episode)
  /-- Inside a dial that never ends. -/
  | hanging (episode : Episode)
  /-- Inside a dial that ends at an instant. -/
  | dialling (episode : Episode) (ends : DialEnd) (stops : Bool) (due : Nat)
  /-- Waiting after a dial at start-up failed. -/
  | retrying (due : Nat)
  /-- Waiting before a dial that is to replace a failed connection. -/
  | backingOff (wait : Duration) (due : Nat)
  /-- Start-up is over, and the reading is about to begin. -/
  | ready
  /-- Between two frames. -/
  | looping
  /-- Inside a read that began at an instant. -/
  | reading (link : Nat) (since : Nat)
  /-- Inside a sink call, with the mark to be confirmed after it. -/
  | sinking (start : Nat) (mark : Option Nat) (due : Nat)
  | confirming (mark : Nat)
  /-- In line for room in the channel. -/
  | sending (mark : Nat) (deadline : Nat)
deriving DecidableEq

/-- How the sink of a scenario behaves: it takes its time over every batch and then accepts or rejects
it. -/
structure SinkScript where
  fails : Bool
  delay : Nat
deriving DecidableEq

def sinkRejection : String :=
  "recording sink rejected batch"

structure SinkCall where
  start : Nat
  force : Bool
  payloads : List Json

/-- What a client leaves behind. -/
inductive Occurrence
  | log (event : LogEvent)
  | dialBegun (url : String)
  | dialEnded (ends : DialEnd)
  | installed (link : Nat)
  | read (link : Nat) (result : ReadResult)
  | applied (call : SinkCall)
  | sinkReturned (failed : Bool)
  | delivered (mark : Nat)

/-- A client. `lastMove` is the number of its last move among those of all clients, and the `history`
has the latest occurrences first. -/
structure Client where
  number : Nat
  options : ClientOptions
  sink : SinkScript
  started : Bool
  cancelled : Bool
  slot : Slot Nat
  phase : Phase
  retryCount : Nat
  metrics : Metrics
  lastMove : Nat
  history : List (Nat × Occurrence)

namespace Client

def make (number : Nat) (options : ClientOptions) (sink : SinkScript) : Client :=
  { number, options, sink, started := false, cancelled := false, slot := Slot.empty, phase := .idle
    retryCount := 0, metrics := Metrics.untouched, lastMove := 0, history := [] }

def url (client : Client) : String :=
  client.options.endpoint.url

def isConnected (client : Client) : Bool :=
  client.slot.held.isSome

def isShuttingDown (client : Client) : Bool :=
  client.slot.shuttingDown

def shouldStop (client : Client) : Bool :=
  client.cancelled || client.slot.shuttingDown

def isIdle (client : Client) : Bool :=
  client.phase = .idle

/-! ### What has happened -/

def note (client : Client) (now : Nat) (occurrence : Occurrence) : Client :=
  { client with history := (now, occurrence) :: client.history }

def log (client : Client) (now : Nat) (event : LogEvent) : Client :=
  client.note now (.log event)

def count (client : Client) (kind : ErrorKind) : Client :=
  { client with metrics := client.metrics.errorOccurred kind }

def records (client : Client) : List LogRecord :=
  (client.history.filterMap fun (time, occurrence) =>
    match occurrence with
    | .log event => some ⟨time, event⟩
    | _ => none).reverse

/-- When dials began, oldest first. -/
def dials (client : Client) : List (Nat × String) :=
  (client.history.filterMap fun (time, occurrence) =>
    match occurrence with
    | .dialBegun url => some (time, url)
    | _ => none).reverse

def sinkCalls (client : Client) : List (Nat × SinkCall) :=
  (client.history.filterMap fun (time, occurrence) =>
    match occurrence with
    | .applied call => some (time, call)
    | _ => none).reverse

/-! ### The slot -/

def carryOut (client : Client) (stage : Stage) (effect : SlotEffect Nat) : Client × Stage :=
  ({ client with metrics := effect.meter client.metrics },
    match effect.closed? with
    | none => stage
    | some link => stage.changeLink link Link.close)

/-- The slot after an operation, with its effects carried out in order. -/
def changeSlot (client : Client) (stage : Stage) (change : Slot Nat × List (SlotEffect Nat)) :
    Client × Stage :=
  change.2.foldl (fun (client, stage) effect => client.carryOut stage effect)
    ({ client with slot := change.1 }, stage)

/-! ### Control -/

/-- Starts the client under the stage's token. Without an address there is nothing to start, and only
the first start has an effect. -/
def start (client : Client) (stage : Stage) : Client :=
  if client.options.endpoint.isDisabled then client.log stage.now .disabled
  else if client.started then client.log stage.now (.alreadyStarted client.url)
  else
    { client with
      started := true
      cancelled := stage.tokenCancelled
      phase := .connecting .startUp }

def cancel (client : Client) : Client :=
  { client with cancelled := client.cancelled || client.started }

/-- Begins to stop the client: its own token is cancelled, and its slot shuts down. -/
def stop (client : Client) (stage : Stage) : Client × Stage :=
  let client := client.log stage.now (.closing client.url)
  client.cancel.changeSlot stage client.slot.shutDown

end Client

end SequencedFeed
