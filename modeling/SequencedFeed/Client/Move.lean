import SequencedFeed.Client
import SequencedFeed.Envelope.Decode
set_option autoImplicit false

/-!
# What a client does next

The moves of a client's task from phase to phase. A move takes no time. A client without a move is at
rest: it waits for time, a frame, room in the channel, or its cancellation. Whatever it waits for,
cancellation is looked at first.
-/

namespace SequencedFeed

namespace Client

def enter (client : Client) (phase : Phase) : Client :=
  { client with phase }

/-! ### Dialling -/

/-- Goes on after a dial that did not fail, whether or not it gave a connection. At start-up a client
that is to stop ends here; after a reconnect it finds out in its loop. -/
def afterDial (client : Client) (episode : Episode) : Client :=
  match episode with
  | .startUp => client.enter (if client.shouldStop then .idle else .ready)
  | .reconnect _ => client.enter .looping

/-- Begins a dial, unless there is nothing to dial for. A cancelled client reports that it connects
but does not dial. -/
def dial (client : Client) (stage : Stage) (episode : Episode) : Client × Stage :=
  if client.options.endpoint.isDisabled || client.slot.shuttingDown then
    (client.afterDial episode, stage)
  else
    let client := client.log stage.now (.connecting client.url)
    if client.cancelled then (client.afterDial episode, stage)
    else
      let (outcome, stage) := stage.nextOutcome client.url
      let client := client.note stage.now (.dialBegun client.url)
      match outcome.ends with
      | none => (client.enter (.hanging episode), stage)
      | some ends =>
          (client.enter (.dialling episode ends outcome.stops (expiry stage.now outcome.after)), stage)

/-- A dial gave a connection. The slot refuses it if shutdown began during the dial. -/
def takeConnection (client : Client) (stage : Stage) (episode : Episode) (link : Nat) :
    Client × Stage :=
  let refused := client.slot.shuttingDown
  let (client, stage) := client.changeSlot stage (client.slot.install link)
  let client :=
    if refused then client.log stage.now (.discarding client.url)
    else (client.note stage.now (.installed link)).log stage.now (.connected client.url)
  (client.afterDial episode, stage)

/-- A dial failed, and there will be another one after a wait. At start-up all waits are equal; for a
reconnect they grow. -/
def sufferDial (client : Client) (now : Nat) (episode : Episode) (error : TransportError) : Client :=
  let client :=
    { client with retryCount := client.retryCount + 1, metrics := client.metrics.dialFailed }
  let failure := FeedError.connect client.url error
  match episode with
  | .startUp =>
      let delay := client.options.supervisorDelay
      (client.log now (.dialFailed client.url failure delay)).enter (.retrying (expiry now delay.millis))
  | .reconnect waited =>
      let client := client.log now (.redialFailed client.url failure waited)
      let wait := client.options.backoff.next waited
      client.enter (if client.shouldStop then .looping else .backingOff wait (expiry now wait.millis))

/-- A dial ends. If it asks for it, the client is stopped right before, and so is everybody else. -/
def endDial (client : Client) (stage : Stage) (episode : Episode) (ends : DialEnd) (stops : Bool) :
    Client × Stage :=
  let (client, stage) :=
    if stops then client.stop { stage with stopAsked := true } else (client, stage)
  let client := client.note stage.now (.dialEnded ends)
  match ends with
  | .connect link => client.takeConnection stage episode link
  | .fail error => (client.sufferDial stage.now episode error, stage)

/-! ### Reading -/

/-- Goes on after a batch, or without one: a mark is sent before the next frame is read. -/
def afterSink (client : Client) (mark : Option Nat) : Client :=
  match mark with
  | some mark => client.enter (.confirming mark)
  | none => client.enter .looping

/-- Applies an envelope. Only the supported version reaches the sink or the channel, and the sink gets
all payloads in one call. -/
def route (client : Client) (now : Nat) (envelope : Envelope Json) : Client :=
  if !envelope.isSupported then client.enter .looping
  else
    match envelope.firstSequence with
    | none => client.afterSink envelope.confirmed
    | some start =>
        let call : SinkCall := { start, force := false, payloads := envelope.payloads }
        (client.note now (.applied call)).enter
          (.sinking start envelope.confirmed (expiry now client.sink.delay))

/-- A frame was read. An empty one only shows that the connection is alive; one that holds no envelope
is reported and left. -/
def takeFrame (client : Client) (now : Nat) (frame : List UInt8) : Client :=
  if frame.isEmpty then client.enter .looping
  else
    let client := { client with metrics := client.metrics.frameReceived }
    match Envelope.decode Payload.any frame with
    | .ok envelope => (client.log now (LogEvent.summary envelope)).route now envelope
    | .error error =>
        ((client.log now (.undecodable client.url frame (.decode error))).count .decode).enter .looping

def readReport (client : Client) (error : TransportError) : LogEvent :=
  if error.isIdleTimeout then .silent client.url error else .readFailed client.url error

/-- A read failed, perhaps for want of a connection. A client that is to stop ends without a report;
any other gives the connection up and waits before it dials again. -/
def sufferRead (client : Client) (stage : Stage) (link : Option Nat) (error : TransportError) :
    Client × Stage :=
  if client.shouldStop then (client.enter .idle, stage)
  else
    let client := (client.log stage.now (client.readReport error)).count .read
    let (client, stage) :=
      match link with
      | none => (client, stage)
      | some link => client.changeSlot stage (client.slot.discard link)
    let wait := client.options.backoff.first
    (client.enter (.backingOff wait (expiry stage.now wait.millis)), stage)

def endRead (client : Client) (stage : Stage) (link : Nat) (result : ReadResult) : Client × Stage :=
  let client := client.note stage.now (.read link result)
  match result with
  | .ok frame => (client.takeFrame stage.now frame, stage)
  | .error error => client.sufferRead stage (some link) error

def idleDeadline? (client : Client) (since : Nat) : Option Nat :=
  let limit := client.options.endpoint.idleTimeout.millis
  if limit = 0 then none else some (expiry since limit)

/-- The top of the loop: a cancelled client ends, any other reads from the connection it holds. -/
def beginRead (client : Client) (stage : Stage) : Client × Stage :=
  if client.cancelled then (client.enter .idle, stage)
  else
    match client.slot.held with
    | some link => (client.enter (.reading link stage.now), stage)
    | none => client.sufferRead stage none .notConnected

/-- Looks at the connection, and only then at the time. -/
def read? (client : Client) (stage : Stage) (link since : Nat) : Option (Client × Stage) :=
  match stage.readLink? link with
  | some (result, stage) => some (client.endRead stage link result)
  | none =>
      match client.idleDeadline? since with
      | none => none
      | some deadline =>
          if deadline ≤ stage.now then
            some (client.endRead stage link (.error (.idleTimeout client.options.endpoint.idleTimeout)))
          else none

/-! ### The sink and the channel -/

/-- A sink call returns. That it failed is reported and has no other effect. -/
def endSink (client : Client) (now start : Nat) (mark : Option Nat) : Client :=
  let client := client.note now (.sinkReturned client.sink.fails)
  let client :=
    if client.sink.fails then (client.log now (.sinkFailed start sinkRejection)).count .sink else client
  client.afterSink mark

def endSend (client : Client) (now mark : Nat) (how : SendEnd) : Client :=
  let client := { client with metrics := how.meter client.metrics }
  let client :=
    match how.report? mark client.options.confirmationTimeout with
    | some event => client.log now event
    | none => client
  let client := if how = .delivered then client.note now (.delivered mark) else client
  client.enter .looping

/-- Begins to send a mark; without a channel it is let go. -/
def beginSend (client : Client) (stage : Stage) (mark : Nat) : Client × Stage :=
  match stage.channel with
  | none => (client.enter .looping, stage)
  | some channel =>
      let (sending, channel) := channel.beginSend client.number mark
        client.options.confirmationTimeout client.cancelled stage.now
      let stage := { stage with channel := some channel }
      match sending with
      | .ended how => (client.endSend stage.now mark how, stage)
      | .inLine deadline => (client.enter (.sending mark deadline), stage)

/-- Looks whether an attempt to send has ended. -/
def send? (client : Client) (stage : Stage) (mark deadline : Nat) : Option (Client × Stage) :=
  match stage.channel with
  | none => some (client.enter .looping, stage)
  | some channel =>
      match channel.resumeSend client.number mark deadline client.cancelled stage.now with
      | (.inLine _, _) => none
      | (.ended how, channel) =>
          some (client.endSend stage.now mark how, { stage with channel := some channel })

/-! ### The next move -/

/-- What the task does in its phase, if it can do anything now. -/
def proceed? (client : Client) (stage : Stage) : Option (Client × Stage) :=
  match client.phase with
  | .idle => none
  | .connecting episode => some (client.dial stage episode)
  | .hanging episode =>
      if client.cancelled then some (client.afterDial episode, stage) else none
  | .dialling episode ends stops due =>
      if client.cancelled then some (client.afterDial episode, stage)
      else if due ≤ stage.now then some (client.endDial stage episode ends stops)
      else none
  | .retrying due =>
      if client.cancelled then some (client.enter .idle, stage)
      else if due ≤ stage.now then some (client.enter (.connecting .startUp), stage)
      else none
  | .backingOff wait due =>
      if client.cancelled then some (client.enter .looping, stage)
      else if due ≤ stage.now then
        some (client.enter (if client.shouldStop then .looping else .connecting (.reconnect wait)), stage)
      else none
  | .ready => some (client.enter .looping, stage)
  | .looping => some (client.beginRead stage)
  | .reading link since => client.read? stage link since
  | .sinking start mark due =>
      if due ≤ stage.now then some (client.endSink stage.now start mark, stage) else none
  | .confirming mark => some (client.beginSend stage mark)
  | .sending mark deadline => client.send? stage mark deadline

/-- The next move, with its number. -/
def move? (client : Client) (stage : Stage) : Option (Client × Stage) :=
  (client.proceed? stage).map fun (client, stage) =>
    ({ client with lastMove := stage.moves }, { stage with moves := stage.moves + 1 })

/-- The instant that a client at rest waits for, whatever else it may wait for. -/
def due? (client : Client) : Option Nat :=
  match client.phase with
  | .dialling _ _ _ due => some due
  | .retrying due => some due
  | .backingOff _ due => some due
  | .reading _ since => client.idleDeadline? since
  | .sinking _ _ due => some due
  | .sending _ deadline => some deadline
  | _ => none

end Client

end SequencedFeed
