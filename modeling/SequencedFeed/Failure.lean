import SequencedFeed.Duration
import SequencedFeed.Envelope
set_option autoImplicit false

/-!
# Failures and their texts

What can go wrong at a transport, in a frame, and at a client, each with its text and with the texts
of the failures behind it.
-/

namespace SequencedFeed

inductive TransportError
  | dialTimeout (limit : Duration)
  | idleTimeout (limit : Duration)
  | closed
  | notConnected
  | io (reason : String)
deriving DecidableEq

namespace TransportError

def message : TransportError → String
  | .dialTimeout limit => "dial timed out after " ++ limit.text
  | .idleTimeout limit => "i/o timeout: no frame received within " ++ limit.text
  | .closed => "connection closed"
  | .notConnected => "not connected"
  | .io reason => "transport error: " ++ reason

def isIdleTimeout : TransportError → Bool
  | .idleTimeout _ => true
  | _ => false

/-- The texts of the failures behind this one, nearest first. -/
def sources : TransportError → List String
  | .io reason => [reason]
  | _ => []

end TransportError

namespace DecodeError

def message : DecodeError → String
  | .malformed error => "malformed envelope: " ++ error.message
  | .outOfOrder previous next =>
      "sequence number " ++ Nat.repr next ++ " follows " ++ Nat.repr previous ++
        " within one envelope"

def sources : DecodeError → List String
  | .malformed error => [error.message]
  | .outOfOrder .. => []

end DecodeError

inductive FeedError
  | connect (url : String) (source : TransportError)
  | decode (error : DecodeError)
deriving DecidableEq

namespace FeedError

def message : FeedError → String
  | .connect url source => "feed client unable to connect to " ++ url ++ ": " ++ source.message
  | .decode error => error.message

/-- A decoding failure is shown as itself, so what is behind it is behind this one. -/
def sources : FeedError → List String
  | .connect _ source => source.message :: source.sources
  | .decode error => error.sources

end FeedError

end SequencedFeed
