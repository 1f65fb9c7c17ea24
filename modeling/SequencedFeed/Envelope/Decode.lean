import SequencedFeed.Envelope
import SequencedFeed.Envelope.Payload
import SequencedFeed.Json.Record
set_option autoImplicit false

/-!
# Decoding frames

The shapes of the records that make up an envelope, and the decoder: the whole frame is read first,
then the order of its positions is checked. Every field of an envelope may be left out.
-/

namespace SequencedFeed

variable {α : Type}

open Json (Field Shape Reader)

structure MessageDraft (α : Type) where
  sequence : Option Nat
  payload : Option α

/-- Messages hold a position and a payload. -/
def messageShape (payload : Payload α) (budget : Nat) : Shape (MessageDraft α) (Message α) where
  title := "FeedMessage"
  blank := ⟨none, none⟩
  fields := [
    { name := "sequenceNumber"
      isHeld := fun draft => draft.sequence.isSome
      store := fun draft input => do
        let (sequence, rest) ← Json.unsigned64 input
        return ({ draft with sequence := some sequence }, rest)
      required := true },
    { name := "message"
      isHeld := fun draft => draft.payload.isSome
      store := fun draft input => do
        let (held, rest) ← payload.read budget input
        return ({ draft with payload := some held }, rest)
      required := true }]
  finish draft :=
    match draft.sequence, draft.payload.or payload.absent with
    | none, _ => .error (.missingField "sequenceNumber")
    | some _, none => .error (.missingField "message")
    | some sequence, some held => .ok ⟨sequence, held⟩

/-- The mark up to which the feed is final. -/
def confirmationShape : Shape (Option Nat) Nat where
  title := "ConfirmedSequenceNumber"
  blank := none
  fields := [
    { name := "sequenceNumber"
      isHeld := Option.isSome
      store := fun _ input => do
        let (sequence, rest) ← Json.unsigned64 input
        return (some sequence, rest)
      required := true }]
  finish draft :=
    match draft with
    | none => .error (.missingField "sequenceNumber")
    | some sequence => .ok sequence

structure EnvelopeDraft (α : Type) where
  version : Option Int
  messages : Option (List (Message α))
  confirmed : Option (Option Nat)

/-- Without a version an envelope has version zero, which is never applied; null stands for no
messages and for no mark. -/
def envelopeShape (payload : Payload α) (budget : Nat) : Shape (EnvelopeDraft α) (Envelope α) where
  title := "FeedEnvelope"
  blank := ⟨none, none, none⟩
  fields := [
    { name := "version"
      isHeld := fun draft => draft.version.isSome
      store := fun draft input => do
        let (version, rest) ← Json.signed64 input
        return ({ draft with version := some version }, rest)
      required := false },
    { name := "messages"
      isHeld := fun draft => draft.messages.isSome
      store := fun draft input => do
        let message := fun inner => Shape.read inner (messageShape payload)
        let (messages, rest) ← Json.optional (Json.listValue budget message) input
        return ({ draft with messages := some (messages.getD []) }, rest)
      required := false },
    { name := "confirmedSequenceNumberMessage"
      isHeld := fun draft => draft.confirmed.isSome
      store := fun draft input => do
        let (confirmed, rest) ← Json.optional (Shape.read budget fun _ => confirmationShape) input
        return ({ draft with confirmed := some confirmed }, rest)
      required := false }]
  finish draft :=
    .ok ⟨draft.version.getD 0, draft.messages.getD [], draft.confirmed.getD none⟩

/-- An envelope, wherever it stands in a text. -/
def Envelope.read (payload : Payload α) (budget : Nat) : Reader (Envelope α) :=
  Shape.read budget (envelopeShape payload)

def Envelope.decode (payload : Payload α) (frame : List UInt8) : Except DecodeError (Envelope α) :=
  match Json.parse (Envelope.read payload) frame with
  | .ok envelope => envelope.inOrder
  | .error error => .error (.malformed error)

end SequencedFeed
