import SequencedFeed.Link
import SequencedFeed.Text.Utf8
set_option autoImplicit false

/-!
# WebSocket sessions

The reading side of a WebSocket: what each message of the peer means for a reader, and how a session
ends. The peer ends it by a close message, by hanging up, or by a message that is too big; the
reader ends it by closing the connection, after which nothing that is queued is read any more.
-/

namespace SequencedFeed

namespace WebSocket

/-- A whole message of the peer. All but text and binary are control messages, which come in one frame each.
The others may be cut into several: each cut says how many bytes one frame takes, and the last frame takes the
rest. A close message may give a reason, behind a status code that has no effect. -/
inductive PeerMessage
  | text (content : String) (cuts : List Nat := [])
  | binary (content : List UInt8) (cuts : List Nat := [])
  | ping (content : List UInt8)
  | pong (content : List UInt8)
  | bye (reason : Option String)
deriving DecidableEq

/-- The sizes of the frames into which so many bytes are cut. -/
def frameSizes (size : Nat) : List Nat → List Nat
  | [] => [size]
  | cut :: cuts => min cut size :: frameSizes (size - cut) cuts

/-- How many bytes a frame may carry: sixteen mebibytes. -/
def mostFrameBytes : Nat := 16 * 1024 * 1024

/-- How many bytes the frames of one message may carry: sixty-four mebibytes. -/
def mostMessageBytes : Nat := 64 * 1024 * 1024

/-- The first size that is over its limit, with the limit: that of a frame, or of all bytes up to a frame. -/
def excess? (before : Nat) : List Nat → Option (Nat × Nat)
  | [] => none
  | frame :: frames =>
      if mostFrameBytes < frame then some (frame, mostFrameBytes)
      else if mostMessageBytes < before + frame then some (before + frame, mostMessageBytes)
      else excess? (before + frame) frames

namespace PeerMessage

def isBye : PeerMessage → Bool
  | .bye _ => true
  | _ => false

/-- The bytes that a control message carries; a status code has two. -/
def controlSize? : PeerMessage → Option Nat
  | .text _ _ => none
  | .binary _ _ => none
  | .ping content => some content.length
  | .pong content => some content.length
  | .bye none => some 0
  | .bye (some reason) => some (2 + reason.utf8ByteSize)

def frames : PeerMessage → List Nat
  | .text content cuts => frameSizes (Utf8.ofString content).length cuts
  | .binary content cuts => frameSizes content.length cuts
  | control => control.controlSize?.toList

/-- How many bytes a control message may carry. -/
def mostControlBytes : Nat := 125

def isTooBig (message : PeerMessage) : Bool :=
  (excess? 0 message.frames).isSome || message.controlSize?.any (mostControlBytes < ·)

/-- Why a message is refused that is too big. The limits of frames and messages come before that of control
messages. -/
def tooBigReason (message : PeerMessage) : String :=
  match excess? 0 message.frames with
  | some (size, most) =>
      "Space limit exceeded: Message too long: " ++ Nat.repr size ++ " > " ++ Nat.repr most
  | none =>
      "WebSocket protocol error: Control frame too big (payload must be " ++
        Nat.repr mostControlBytes ++ " bytes or less)"

def tooBig (message : PeerMessage) : TransportError :=
  .io message.tooBigReason

/-- What a read gives for a message. Pings and pongs only show that the peer is alive. -/
def result (message : PeerMessage) : ReadResult :=
  if message.isTooBig then .error message.tooBig
  else
    match message with
    | .text content _ => .ok (Utf8.ofString content)
    | .binary content _ => .ok content
    | .ping _ => .ok []
    | .pong _ => .ok []
    | .bye _ => .error .closed

end PeerMessage

/-- How far a session has come for its reader: it goes on, a close message was read, or its end was
reported. -/
inductive Stretch
  | underWay
  | parted
  | over
deriving DecidableEq

def Stretch.behind (stretch : Stretch) (message : PeerMessage) : Stretch :=
  if message.isTooBig then .over else if message.isBye then .parted else stretch

/-- A session: messages that are not read yet, whether the peer can still send, whether it has hung
up, and whether the reader has closed the connection. -/
structure Session where
  queue : List PeerMessage
  peerSilent : Bool
  peerGone : Bool
  stretch : Stretch
  closed : Bool
deriving DecidableEq

namespace Session

def fresh : Session :=
  { queue := [], peerSilent := false, peerGone := false, stretch := .underWay, closed := false }

/-- The peer sends a message; after a close message or without a peer there are no more. -/
def send (session : Session) (message : PeerMessage) : Session :=
  if session.peerSilent then session
  else { session with queue := session.queue ++ [message], peerSilent := message.isBye }

def drop (session : Session) : Session :=
  { session with peerSilent := true, peerGone := true }

def close (session : Session) : Session :=
  { session with closed := true }

def resetReason : String :=
  "WebSocket protocol error: Connection reset without closing handshake"

/-- The report that the peer is gone without a close message. -/
def reset : TransportError :=
  .io resetReason

/-- What a read gives at once; `none` if it has to wait. -/
def read? (session : Session) : Option (ReadResult × Session) :=
  if session.closed || session.stretch = .over then some (.error .closed, session)
  else
    match session.queue with
    | message :: rest =>
        some (message.result,
          { session with queue := rest, stretch := session.stretch.behind message })
    | [] =>
        if !session.peerGone then none
        else
          let report := if session.stretch = .underWay then reset else .closed
          some (.error report, { session with stretch := .over })

/-- A read in which nothing else happens. If nothing is there it lasts as long as it may, without end
for a limit of zero. -/
def readWithin (session : Session) (limit : Duration) : Option ReadResult × Session :=
  match session.read? with
  | some (result, session) => (some result, session)
  | none =>
      if limit.millis = 0 then (none, session) else (some (.error (.idleTimeout limit)), session)

/-- A read without limit during which the reader closes the connection. -/
def readAndClose (session : Session) : ReadResult × Session :=
  match session.read? with
  | some (result, session) => (result, session.close)
  | none => (.error .closed, session.close)

end Session

end WebSocket

end SequencedFeed
