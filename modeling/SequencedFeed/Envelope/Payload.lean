import SequencedFeed.Json.Read
set_option autoImplicit false

/-!
# Payload types

The envelope leaves the type of its payloads open. A payload type says how a payload is read, what
stands for one that is left out, and how it is written.
-/

namespace SequencedFeed

/-- A type of payloads. `absent` is the payload of a message that has none; without it such a
message is refused. -/
structure Payload (α : Type) where
  read : Nat → Json.Reader α
  absent : Option α
  toJson : α → Json

namespace Payload

def any : Payload Json :=
  { read := Json.value, absent := none, toJson := id }

def unsigned : Payload Nat :=
  { read := fun _ => Json.unsigned64, absent := none, toJson := Json.nat }

def string : Payload String :=
  { read := fun _ => Json.stringValue, absent := none, toJson := Json.string }

/-- An unsigned integer that may be null or left out. -/
def optionalUnsigned : Payload (Option Nat) :=
  { read := fun _ => Json.optional Json.unsigned64
    absent := some none
    toJson := Json.ofOption Json.nat }

def strings : Payload (List String) :=
  { read := fun budget => Json.listValue budget fun _ => Json.stringValue
    absent := none
    toJson := fun texts => .array (texts.map Json.string) }

end Payload

end SequencedFeed
