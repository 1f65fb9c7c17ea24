import SequencedFeed.Timeline
import SequencedFeed.WebSocket.Session
set_option autoImplicit false

/-!
# Reads of a WebSocket in time

A connection reads whole messages from a stream that the peer fills piece by piece. A read is a race
between the end of the connection, the deadline of the read and the next item of the stream, in this
order at every poll. A read that loses the race to the first two lets the stream go, perhaps in the
middle of a message. The stream itself is a parameter: what it does with the pieces, and with a `next`
that is given up, is its own affair.
-/

namespace SequencedFeed

namespace WebSocket

/-- What a message holds for its reader. Only text and binary messages hold something. -/
def PeerMessage.frame : PeerMessage → List UInt8
  | .text content _ => Utf8.ofString content
  | .binary content _ => content
  | .ping _ => []
  | .pong _ => []
  | .bye _ => []

/-- What a stream of messages gives: a message, a fault, or its end. -/
inductive Item
  | message (sent : PeerMessage)
  | fault (reason : String)
  | ended
deriving DecidableEq

def Item.result : Item → ReadResult
  | .message sent => if sent.isBye then .error .closed else .ok sent.frame
  | .fault reason => .error (.io reason)
  | .ended => .error .closed

/-- A stream of messages. Pieces of what the peer sends arrive at it, whoever is reading; `next` is one
attempt at the next item, pending if it gives none; `abandon` gives a pending `next` up. -/
structure MessageStream (Piece State : Type) where
  arrive : Piece → State → State
  next : State → Option Item × State
  abandon : State → State

/-! ### Reads -/

/-- A read in progress: its idle timeout, the instant of its first poll, whether its timer has gone
off, and whether it holds the lock of the stream, with a `next` that is pending. -/
structure PendingRead where
  idle : Duration
  begun : Nat
  fired : Bool
  holds : Bool
deriving DecidableEq

/-- A read that has ended, with the instant and the result. -/
structure EndedRead where
  idle : Duration
  begun : Nat
  time : Nat
  result : ReadResult

namespace PendingRead

def first (now : Nat) (idle : Duration) : PendingRead :=
  { idle, begun := now, fired := false, holds := false }

/-- The instant from which the timer of a read may go off. Without an idle timeout there is no timer. -/
def deadline? (pending : PendingRead) : Option Nat :=
  if pending.idle = Duration.zero then none else some (expiry pending.begun pending.idle.millis)

def ended (pending : PendingRead) (time : Nat) (result : ReadResult) : EndedRead :=
  { idle := pending.idle, begun := pending.begun, time, result }

end PendingRead

/-- Whether a read ran into its deadline. -/
def EndedRead.timedOut (read : EndedRead) : Bool :=
  match read.result with
  | .ok _ => false
  | .error error => error.isIdleTimeout

/-! ### Connections -/

/-- A connection: the time, the stream and its lock, whether the connection was closed, the read in
progress, whether something has woken it since it was last polled, and all reads that have ended. -/
structure Connection (State : Type) where
  now : Nat
  stream : State
  locked : Bool
  closed : Bool
  reading : Option PendingRead
  woken : Bool
  finished : List EndedRead

/-- What may happen at a connection. A read begins with its first poll. Every other poll may happen at
any time, also when nothing has woken the read. -/
inductive ConnectionStep (Piece : Type)
  | read (idle : Duration)
  | arrive (piece : Piece)
  | pass (millis : Nat)
  | fire
  | close
  | poll
deriving DecidableEq

namespace Connection

variable {Piece State : Type} (stream : MessageStream Piece State)

def fresh (state : State) : Connection State :=
  { now := 0, stream := state, locked := false, closed := false, reading := none, woken := false
    finished := [] }

def finish (connection : Connection State) (pending : PendingRead) (result : ReadResult) :
    Connection State :=
  { connection with
    locked := connection.locked && !pending.holds
    reading := none
    woken := false
    finished := connection.finished ++ [pending.ended connection.now result] }

/-- The read in progress ends without an item; if it has a `next` pending, that is abandoned. -/
def giveUp (connection : Connection State) (pending : PendingRead) (error : TransportError) :
    Connection State :=
  let state := if pending.holds then stream.abandon connection.stream else connection.stream
  { connection with stream := state }.finish pending (.error error)

/-- The read in progress tries for the next item, as soon as the lock is its own. -/
def ask (connection : Connection State) (pending : PendingRead) : Connection State :=
  if connection.locked && !pending.holds then { connection with woken := false }
  else
    let holding := { pending with holds := true }
    let (item, state) := stream.next connection.stream
    match item with
    | some item => { connection with stream := state, locked := true }.finish holding item.result
    | none =>
        { connection with stream := state, locked := true, reading := some holding, woken := false }

/-- One poll of the read in progress: a closed connection comes before the deadline, and the deadline
before the stream. -/
def poll (connection : Connection State) : Connection State :=
  match connection.reading with
  | none => connection
  | some pending =>
      if connection.closed then connection.giveUp stream pending .closed
      else if pending.fired then connection.giveUp stream pending (.idleTimeout pending.idle)
      else connection.ask stream pending

/-- Begins a read, unless another one is in progress. -/
def read (connection : Connection State) (idle : Duration) : Connection State :=
  match connection.reading with
  | some _ => connection
  | none =>
      { connection with reading := some (PendingRead.first connection.now idle) }.poll stream

/-- The timer of the read in progress goes off, if its deadline has come. -/
def fire (connection : Connection State) : Connection State :=
  match connection.reading with
  | none => connection
  | some pending =>
      if pending.deadline?.any (· ≤ connection.now) then
        { connection with reading := some { pending with fired := true }, woken := true }
      else connection

def step (connection : Connection State) : ConnectionStep Piece → Connection State
  | .read idle => connection.read stream idle
  | .arrive piece =>
      { connection with stream := stream.arrive piece connection.stream, woken := true }
  | .pass millis => { connection with now := connection.now + millis }
  | .fire => connection.fire
  | .close => { connection with closed := true, woken := true }
  | .poll => connection.poll stream

def run (connection : Connection State) (steps : List (ConnectionStep Piece)) : Connection State :=
  steps.foldl (step stream) connection

/-- The frames that the reads so far have given, in order. -/
def frames (connection : Connection State) : List (List UInt8) :=
  connection.finished.filterMap fun read => read.result.toOption

/-- The results of the reads that did not time out, in order. -/
def answers (connection : Connection State) : List ReadResult :=
  (connection.finished.filter fun read => !read.timedOut).map EndedRead.result

end Connection

/-! ### Sessions as streams -/

/-- What a peer of a session does to the stream. -/
inductive PeerStep
  | send (message : PeerMessage)
  | drop
deriving DecidableEq

namespace Session

/-- An attempt at the next item of a session, whether or not the reader has closed it. -/
def next (session : Session) : Option Item × Session :=
  if session.stretch = .over then (some .ended, session)
  else
    match session.queue with
    | message :: rest =>
        let item := if message.isTooBig then .fault message.tooBigReason else .message message
        (some item, { session with queue := rest, stretch := session.stretch.behind message })
    | [] =>
        if !session.peerGone then (none, session)
        else
          let item := if session.stretch = .underWay then .fault resetReason else .ended
          (some item, { session with stretch := .over })

def stream : MessageStream PeerStep Session where
  arrive
    | .send message, session => session.send message
    | .drop, session => session.drop
  next := Session.next
  abandon session := session

end Session

def Connection.ofSession (session : Session) : Connection Session :=
  { Connection.fresh session with closed := session.closed }

def Connection.session (connection : Connection Session) : Session :=
  { connection.stream with closed := connection.closed }

end WebSocket

end SequencedFeed
