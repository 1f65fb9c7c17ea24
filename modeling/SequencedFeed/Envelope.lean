import SequencedFeed.Json.Fault
set_option autoImplicit false

/-!
# Envelopes

An envelope is one frame of a feed: a format version, payloads with their positions in the feed's
total order, and perhaps a mark up to which the feed is final.
-/

namespace SequencedFeed

/-- A payload with its position in the feed. -/
structure Message (α : Type) where
  sequence : Nat
  payload : α
deriving DecidableEq

structure Envelope (α : Type) where
  version : Int
  messages : List (Message α)
  confirmed : Option Nat
deriving DecidableEq

/-- The only version whose contents are applied. -/
def supportedVersion : Int := 1

inductive DecodeError
  | malformed (error : Json.Located)
  | outOfOrder (previous next : Nat)
deriving DecidableEq

namespace Envelope

variable {α : Type}

def isSupported (envelope : Envelope α) : Bool :=
  envelope.version = supportedVersion

def firstSequence (envelope : Envelope α) : Option Nat :=
  envelope.messages.head?.map Message.sequence

def sequences (envelope : Envelope α) : List Nat :=
  envelope.messages.map Message.sequence

def payloads (envelope : Envelope α) : List α :=
  envelope.messages.map Message.payload

end Envelope

/-- The first two neighbours of a list that do not increase. -/
def firstDescent : List Nat → Option (Nat × Nat)
  | previous :: next :: rest =>
      if next ≤ previous then some (previous, next) else firstDescent (next :: rest)
  | _ => none

/-- Lets an envelope pass whose positions strictly increase. -/
def Envelope.inOrder {α : Type} (envelope : Envelope α) : Except DecodeError (Envelope α) :=
  match firstDescent envelope.sequences with
  | some (previous, next) => .error (.outOfOrder previous next)
  | none => .ok envelope

end SequencedFeed
