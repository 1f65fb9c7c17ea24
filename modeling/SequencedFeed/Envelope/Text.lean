import SequencedFeed.Envelope
import SequencedFeed.Envelope.Payload
import SequencedFeed.Json.Text
import SequencedFeed.Text.Utf8
set_option autoImplicit false

/-!
# Writing envelopes

The text of an envelope has its fields in their declared order, with the mark left out if there is
none. The frames that feeds send out have the keys of every object in ascending order instead, as
they are written from JSON values.
-/

namespace SequencedFeed

variable {α : Type}

def Message.text (payload : Payload α) (message : Message α) : List Char :=
  Json.objectText [
    Json.memberText "sequenceNumber" (Json.integerText message.sequence),
    Json.memberText "message" (payload.toJson message.payload).text]

def confirmationText (sequence : Nat) : List Char :=
  Json.objectText [Json.memberText "sequenceNumber" (Json.integerText sequence)]

def Envelope.text (payload : Payload α) (envelope : Envelope α) : List Char :=
  Json.objectText ([
    Json.memberText "version" (Json.integerText envelope.version),
    Json.memberText "messages" (Json.arrayText (envelope.messages.map (Message.text payload)))] ++
    match envelope.confirmed with
    | none => []
    | some sequence =>
        [Json.memberText "confirmedSequenceNumberMessage" (confirmationText sequence)])

/-! ### Frames -/

def frameOf (value : Json) : List UInt8 :=
  Utf8.encode value.text

/-- Payloads with consecutive positions from `start` on. -/
def batchItems : Nat → List Json → List Json
  | _, [] => []
  | start, payload :: rest =>
      Json.ofMembers [("sequenceNumber", Json.nat start), ("message", payload)] ::
        batchItems (start + 1) rest

/-- A frame of some version with payloads. -/
def versionedBatchFrame (version : Int) (start : Nat) (payloads : List Json) : List UInt8 :=
  frameOf (Json.ofMembers [
    ("version", Json.int version),
    ("messages", .array (batchItems start payloads))])

def batchFrame (start : Nat) (payloads : List Json) : List UInt8 :=
  versionedBatchFrame supportedVersion start payloads

def confirmationFrame (sequence : Nat) : List UInt8 :=
  frameOf (Json.ofMembers [
    ("version", Json.int supportedVersion),
    ("confirmedSequenceNumberMessage", Json.ofMembers [("sequenceNumber", Json.nat sequence)])])

/-- A frame that breaks off inside its first message. -/
def malformedFrame : List UInt8 :=
  Utf8.encode ['\x7b', '"', 'v', 'e', 'r', 's', 'i', 'o', 'n', '"', ':', '1', ',', '"', 'm', 'e', 's',
    's', 'a', 'g', 'e', 's', '"', ':', '[', '\x7b']

end SequencedFeed
