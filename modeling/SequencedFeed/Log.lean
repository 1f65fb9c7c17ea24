import SequencedFeed.Failure
import SequencedFeed.Json.Text
import SequencedFeed.Text.Utf8
set_option autoImplicit false

/-!
# Log records

Everything a client reports, as events; the level, the message and the fields of a record follow
from its event.
-/

namespace SequencedFeed

inductive LogLevel
  | debug
  | info
  | warn
  | error
deriving DecidableEq

def LogLevel.name : LogLevel → String
  | .debug => "debug"
  | .info => "info"
  | .warn => "warn"
  | .error => "error"

inductive LogEvent
  | disabled
  | alreadyStarted (url : String)
  | closing (url : String)
  | connecting (url : String)
  | connected (url : String)
  | discarding (url : String)
  | dialFailed (url : String) (error : FeedError) (retryIn : Duration)
  | redialFailed (url : String) (error : FeedError) (waited : Duration)
  | silent (url : String) (error : TransportError)
  | readFailed (url : String) (error : TransportError)
  | undecodable (url : String) (frame : List UInt8) (error : FeedError)
  | batch (count first : Nat) (version : Int)
  | confirmation (sequence : Nat) (version : Int)
  | nothing (version : Int)
  | sinkFailed (start : Nat) (reason : String)
  | channelFull (sequence : Nat) (timeout : Duration)
  | channelClosed (sequence : Nat)
  | noClients
  | startingClients (count : Nat)
deriving DecidableEq

namespace LogEvent

def level : LogEvent → LogLevel
  | .disabled => .info
  | .alreadyStarted _ => .warn
  | .closing _ => .debug
  | .connecting _ => .info
  | .connected _ => .info
  | .discarding _ => .debug
  | .dialFailed .. => .warn
  | .redialFailed .. => .warn
  | .silent .. => .error
  | .readFailed .. => .error
  | .undecodable .. => .error
  | .batch .. => .debug
  | .confirmation .. => .debug
  | .nothing _ => .debug
  | .sinkFailed .. => .error
  | .channelFull .. => .warn
  | .channelClosed _ => .warn
  | .noClients => .info
  | .startingClients _ => .info

def message : LogEvent → String
  | .disabled => "feed url not configured, feed client disabled"
  | .alreadyStarted _ => "feed client already started"
  | .closing _ => "closing feed client connection"
  | .connecting _ => "connecting to feed"
  | .connected _ => "connected to feed"
  | .discarding _ => "shutdown began during dial, discarding connection"
  | .dialFailed .. => "failed to connect to feed, waiting and retrying"
  | .redialFailed .. => "feed reconnect attempt failed"
  | .silent .. => "feed connection timed out without receiving data"
  | .readFailed .. => "error reading from feed"
  | .undecodable .. => "error decoding feed message"
  | .batch .. => "received batch item"
  | .confirmation .. => "confirmed sequence number"
  | .nothing _ => "received broadcast with no messages populated"
  | .sinkFailed .. => "error adding messages from feed"
  | .channelFull .. => "confirmation channel full, dropping confirmed sequence number"
  | .channelClosed _ => "confirmation channel closed, dropping confirmed sequence number"
  | .noClients => "feed input not configured, no feed clients created"
  | .startingClients count => "starting " ++ Nat.repr count ++ " feed client(s)"

def fields : LogEvent → List (String × Json)
  | .disabled => []
  | .alreadyStarted url => [("url", .string url)]
  | .closing url => [("url", .string url)]
  | .connecting url => [("url", .string url)]
  | .connected url => [("url", .string url)]
  | .discarding url => [("url", .string url)]
  | .dialFailed url error retryIn =>
      [("error", .string error.message), ("retry_in", .string retryIn.text), ("url", .string url)]
  | .redialFailed url error waited =>
      [("error", .string error.message), ("url", .string url), ("waited", .string waited.text)]
  | .silent url error => [("error", .string error.message), ("url", .string url)]
  | .readFailed url error => [("error", .string error.message), ("url", .string url)]
  | .undecodable url frame error =>
      [("error", .string error.message),
        ("frame", .string (String.ofList (Utf8.decodeLossy frame))),
        ("len", Json.nat frame.length), ("url", .string url)]
  | .batch count first version =>
      [("count", Json.nat count), ("first_seq", Json.nat first), ("version", Json.int version)]
  | .confirmation sequence version =>
      [("seq", Json.nat sequence), ("version", Json.int version)]
  | .nothing version => [("version", Json.int version)]
  | .sinkFailed start reason => [("error", .string reason), ("start", Json.nat start)]
  | .channelFull sequence timeout =>
      [("seq", Json.nat sequence), ("timeout", .string timeout.text)]
  | .channelClosed sequence => [("seq", Json.nat sequence)]
  | .noClients => []
  | .startingClients _ => []

/-- What an envelope brings, in one event: payloads if there are any, else a mark, else nothing. -/
def summary {α : Type} (envelope : Envelope α) : LogEvent :=
  match envelope.firstSequence, envelope.confirmed with
  | some first, _ => .batch envelope.messages.length first envelope.version
  | none, some sequence => .confirmation sequence envelope.version
  | none, none => .nothing envelope.version

end LogEvent

/-- An event at an instant, in milliseconds. -/
structure LogRecord where
  time : Nat
  event : LogEvent
deriving DecidableEq

namespace LogRecord

def toJson (record : LogRecord) : Json :=
  Json.ofMembers [
    ("fields", Json.ofMembers record.event.fields),
    ("level", .string record.event.level.name),
    ("message", .string record.event.message),
    ("t", Json.nat record.time)]

end LogRecord

/-- Records of concurrent tasks in an order that does not depend on the tasks: by time, then by their
text. -/
def sortByTimeAndText (records : List (Nat × Json)) : List Json :=
  let keyed := records.map fun (time, value) => (time, String.ofList value.text, value)
  let sorted := keyed.mergeSort fun (time, text, _) (time', text', _) =>
    time < time' || (time == time' && decide (text ≤ text'))
  sorted.map fun (_, _, value) => value

end SequencedFeed
