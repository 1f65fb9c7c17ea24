import SequencedFeed.Envelope.Decode
import SequencedFeed.Proofs.Json.Kinds
import SequencedFeed.Proofs.Json.Records
set_option autoImplicit false

/-!
# What a frame means

A frame is decoded if it is spelled by a tree that means an envelope whose positions increase. What the tree of
an envelope means depends on the payload type only through what the trees of payloads mean.
-/

namespace SequencedFeed

open Json

variable {α : Type}

/-! ### Payloads -/

/-- What the trees of payloads mean, by the budget that is left for their brackets. -/
structure Payload.Understands (payload : Payload α) (meaning : Nat → Tree → Option α) : Prop where
  reads : ∀ budget, (payload.read budget).Reads (meaning budget)
  null : ∀ held budget, payload.absent = some held → meaning budget (.word Word.null) = some held

/-- A payload is understood exactly where its own JSON value is. -/
def Payload.Translates (payload : Payload α) (meaning : Nat → Tree → Option α) : Prop :=
  ∀ (budget : Nat) (tree : Tree) (held : α),
    meaning (budget + 1) tree = some held ↔ tree.value? (budget + 1) = some (payload.toJson held)

inductive Payload.Common : {α : Type} → Payload α → Prop
  | any : Common Payload.any
  | unsigned : Common Payload.unsigned
  | string : Common Payload.string
  | optionalUnsigned : Common Payload.optionalUnsigned
  | strings : Common Payload.strings

theorem Payload.Common.understands {payload : Payload α} (common : payload.Common) :
    ∃ meaning, payload.Understands meaning ∧ payload.Translates meaning := by
  cases common with
  | any => exact ⟨Tree.value?, ⟨value_reads, fun _ _ absent => by cases absent⟩, fun _ _ _ => Iff.rfl⟩
  | unsigned =>
      refine ⟨fun _ => Tree.unsigned64?, ⟨fun _ => unsigned64_reads, fun _ _ absent => by cases absent⟩, ?_⟩
      exact fun _ _ _ => Tree.unsigned64?_eq
  | string =>
      refine ⟨fun _ => Tree.string?, ⟨fun _ => stringValue_reads, fun _ _ absent => by cases absent⟩, ?_⟩
      exact fun _ _ _ => Tree.string?_eq
  | optionalUnsigned =>
      refine ⟨fun _ => Tree.optional? Tree.unsigned64?, ⟨fun _ => optional_reads unsigned64_reads, ?_⟩, ?_⟩
      · intro held budget absent
        obtain rfl := Option.some.inj absent
        rfl
      · intro budget tree held
        apply Tree.optional?_eq
        · exact fun held null => by cases null
        · exact fun held => Tree.unsigned64?_eq
  | strings =>
      refine ⟨fun budget => Tree.list? budget fun _ => Tree.string?, ⟨listValue_reads fun _ => stringValue_reads, ?_⟩, ?_⟩
      · exact fun _ _ absent => by cases absent
      · intro budget tree held
        exact Tree.list?_eq fun _ _ _ => Tree.string?_eq

/-! ### Records of an envelope -/

/-- A field whose value is read and then put into the draft. -/
def Json.Entry.storing {σ β : Type} (name : String) (isHeld : σ → Bool) (required : Bool) (put : σ → β → σ)
    {reader : Reader β} {meaning : Tree → Option β} (reads : reader.Reads meaning) : Entry σ where
  field := {
    name := name
    isHeld := isHeld
    store := fun draft input => do
      let (value, rest) ← reader input
      return (put draft value, rest)
    required := required }
  fill draft tree := (meaning tree).map (put draft)
  reads draft := reads.map (put draft)

section

variable {payload : Payload α} {meaning : Nat → Tree → Option α} (understands : payload.Understands meaning)

def messageLayout (budget : Nat) : Layout (MessageDraft α) (Message α) where
  shape := messageShape payload budget
  entries := [
    .storing "sequenceNumber" (fun draft => draft.sequence.isSome) true
      (fun draft sequence => { draft with sequence := some sequence }) unsigned64_reads,
    .storing "message" (fun draft => draft.payload.isSome) true
      (fun draft held => { draft with payload := some held }) (understands.reads budget)]
  fields := rfl

def confirmationLayout : Layout (Option Nat) Nat where
  shape := confirmationShape
  entries := [.storing "sequenceNumber" Option.isSome true (fun _ sequence => some sequence) unsigned64_reads]
  fields := rfl

def envelopeLayout (budget : Nat) : Layout (EnvelopeDraft α) (Envelope α) where
  shape := envelopeShape payload budget
  entries := [
    .storing "version" (fun draft => draft.version.isSome) false
      (fun draft version => { draft with version := some version }) signed64_reads,
    .storing "messages" (fun draft => draft.messages.isSome) false
      (fun draft messages => { draft with messages := some (messages.getD []) })
      (optional_reads (listValue_reads (fun inner => Layout.reads inner (messageLayout understands)) budget)),
    .storing "confirmedSequenceNumberMessage" (fun draft => draft.confirmed.isSome) false
      (fun draft confirmed => { draft with confirmed := some confirmed })
      (optional_reads (Layout.reads budget fun _ => confirmationLayout))]
  fields := rfl

/-- What the tree of a whole frame means. -/
def Json.Tree.envelope? : Tree → Option (Envelope α) :=
  Tree.record? nestingBudget (envelopeLayout understands)

theorem inOrder_eq {found envelope : Envelope α} : found.inOrder = .ok envelope ↔
    found = envelope ∧ firstDescent envelope.sequences = none := by
  rw [Envelope.inOrder]
  cases descent : firstDescent found.sequences with
  | none =>
      simp only [Except.ok.injEq]
      constructor
      · rintro rfl
        exact ⟨rfl, descent⟩
      · exact fun both => both.1
  | some pair =>
      constructor
      · intro impossible
        cases impossible
      · rintro ⟨rfl, none⟩
        rw [descent] at none
        cases none

/-- A frame is accepted if it is spelled by the tree of an envelope in order. -/
theorem decode_eq {frame : List UInt8} {envelope : Envelope α} : Envelope.decode payload frame = .ok envelope ↔
    ∃ tree : Tree, tree.Spells frame ∧ tree.envelope? understands = some envelope ∧
      firstDescent envelope.sequences = none := by
  have reads : (Envelope.read payload nestingBudget).Reads (Tree.envelope? understands) :=
    Layout.reads nestingBudget (envelopeLayout understands)
  constructor
  · intro decoded
    unfold Envelope.decode at decoded
    cases parsed : parse (Envelope.read payload) frame with
    | error fault => simp [parsed] at decoded
    | ok found =>
        simp only [parsed] at decoded
        obtain ⟨rfl, ordered⟩ := inOrder_eq.mp decoded
        obtain ⟨tree, spells, means⟩ := (parse_eq reads).mp parsed
        exact ⟨tree, spells, means, ordered⟩
  · rintro ⟨tree, spells, means, ordered⟩
    rw [Envelope.decode, (parse_eq reads).mpr ⟨tree, spells, means⟩]
    exact inOrder_eq.mpr ⟨rfl, ordered⟩

end

end SequencedFeed
