import SequencedFeed.Envelope.Text
import SequencedFeed.Proofs.Decoding
import SequencedFeed.Proofs.Json.RoundTrip
set_option autoImplicit false

/-!
# Envelopes there and back

What is written as an envelope is decoded to the same envelope, and what is decoded can be written again, unless
one of its payloads holds a floating point number.
-/

namespace SequencedFeed

open Json

variable {α : Type}

/-- How deep the brackets of a payload may be nested inside its message, the list of messages and the envelope. -/
def payloadDepth : Nat := 124

/-- Every integer has 64 bits, the positions increase, and each payload can be written. -/
structure Envelope.Writable (payload : Payload α) (envelope : Envelope α) : Prop where
  version : minSigned64 ≤ envelope.version ∧ envelope.version ≤ maxSigned64
  positions : ∀ message ∈ envelope.messages, message.sequence ≤ maxUnsigned64
  payloads : ∀ message ∈ envelope.messages, Json.Writable payloadDepth (payload.toJson message.payload)
  increasing : envelope.sequences.Pairwise (· < ·)
  confirmed : ∀ sequence ∈ envelope.confirmed, sequence ≤ maxUnsigned64

theorem firstDescent_eq_none {sequences : List Nat} : firstDescent sequences = none ↔ sequences.Pairwise (· < ·) := by
  rw [← List.isChain_iff_pairwise]
  induction sequences with
  | nil => simp [firstDescent]
  | cons first others ih =>
      cases others with
      | nil => simp [firstDescent]
      | cons second others =>
          rw [List.isChain_cons_cons, ← ih, firstDescent]
          split
          · simp only [reduceCtorEq, false_iff, not_and]
            omega
          · simp only [iff_and_self]
            omega

/-! ### Records of written members -/

theorem Json.Tree.unsigned64?_ofInteger {value : Nat} (fits : value ≤ maxUnsigned64) :
    (Tree.word (.ofInteger value)).unsigned64? = some value := by
  have isExact : IsExact value := by
    have least : minSigned64 = -9223372036854775808 := rfl
    constructor <;> omega
  apply (@Tree.unsigned64?_eq 0 _ value).mpr
  exact Tree.value?_number.mpr ⟨_, rfl, Word.number?_ofInteger isExact⟩

theorem Json.Tree.signed64?_ofInteger {value : Int} (least : minSigned64 ≤ value) (most : value ≤ maxSigned64) :
    (Tree.word (.ofInteger value)).signed64? = some value := by
  have isExact : IsExact value := by
    have signed : maxSigned64 = 9223372036854775807 := rfl
    have unsigned : maxUnsigned64 = 18446744073709551615 := rfl
    constructor <;> omega
  exact Tree.integer?_eq.mpr ⟨_, rfl, Word.number?_ofInteger isExact, least, most⟩

section

variable {σ ρ : Type} {layout : Layout σ ρ}

theorem Json.Layout.fill_member {name : String} {entry : Entry σ} {draft filled final : σ} {tree : Tree}
    {members : List (Spelling × Tree)} (found : layout.find? name = some entry)
    (free : entry.field.isHeld draft = false) (fills : entry.fill draft tree = some filled)
    (others : members.foldlM layout.addMember filled = some final) :
    ((.ofText name, tree) :: members).foldlM layout.addMember draft = some final := by
  have adds : layout.addMember draft (.ofText name, tree) = some filled := by
    simp [addMember, Spelling.text?_ofText, found, free, fills]
  rw [List.foldlM_cons, adds]
  exact others

theorem Json.Tree.record?_object {budget : Nat} {layout : Nat → Layout σ ρ} (deep : 1 < budget)
    {members : List (Spelling × Tree)} {draft : σ} {record : ρ}
    (folds : members.foldlM (layout (budget - 1)).addMember (layout (budget - 1)).shape.blank = some draft)
    (finish : (layout (budget - 1)).finish? draft = some record) :
    (Tree.object members).record? budget layout = some record := by
  rw [Tree.record?, if_neg (by omega), Layout.inside?, folds]
  exact finish

end

/-! ### Written envelopes -/

theorem exists_confirmation_tree {sequence : Nat} (fits : sequence ≤ maxUnsigned64) :
    ∃ tree : Tree, tree.bytes = Utf8.encode (confirmationText sequence) ∧
      tree.optional? (Tree.record? 127 fun _ => confirmationLayout) = some (some sequence) := by
  let members : List (Spelling × Tree) := [(.ofText "sequenceNumber", .word (.ofInteger sequence))]
  have means : (Tree.object members).record? 127 (fun _ => confirmationLayout) = some sequence := by
    apply Tree.record?_object (by decide)
    · exact Layout.fill_member rfl rfl (congrArg (Option.map _) (Tree.unsigned64?_ofInteger fits)) rfl
    · rfl
  refine ⟨.object members, ?_, congrArg (Option.map some) means⟩
  exact bytes_object (.cons (encode_memberText (Word.bytes_ofInteger _)) .nil)

section

variable {payload : Payload α} {meaning : Nat → Tree → Option α} (understands : payload.Understands meaning)
  (translates : payload.Translates meaning)
include translates

theorem Message.exists_tree {message : Message α} (fits : message.sequence ≤ maxUnsigned64)
    (writable : Json.Writable payloadDepth (payload.toJson message.payload)) :
    ∃ tree : Tree, tree.bytes = Utf8.encode (message.text payload) ∧
      tree.record? 126 (messageLayout understands) = some message := by
  obtain ⟨tree, same, stands⟩ := writable.exists_tree
  have held := (translates payloadDepth tree message.payload).mpr stands
  refine ⟨.object [(.ofText "sequenceNumber", .word (.ofInteger message.sequence)), (.ofText "message", tree)], ?_, ?_⟩
  · exact bytes_object (.cons (encode_memberText (Word.bytes_ofInteger _)) (.cons (encode_memberText same) .nil))
  · apply Tree.record?_object (by decide)
    · apply Layout.fill_member rfl rfl (congrArg (Option.map _) (Tree.unsigned64?_ofInteger fits))
      exact Layout.fill_member rfl rfl (congrArg (Option.map _) held) rfl
    · rfl

theorem Envelope.Writable.exists_tree {envelope : Envelope α} (writable : envelope.Writable payload) :
    ∃ tree : Tree, tree.bytes = Utf8.encode (envelope.text payload) ∧ tree.envelope? understands = some envelope := by
  have all : ∀ message ∈ envelope.messages, ∃ tree : Tree, tree.bytes = Utf8.encode (message.text payload) ∧
      tree.record? 126 (messageLayout understands) = some message := fun message member =>
    Message.exists_tree understands translates (writable.positions message member) (writable.payloads message member)
  obtain ⟨trees, written, mean⟩ := exists_entries all
  have messages : (Tree.list trees).optional? (Tree.list? 127 fun inner => Tree.record? inner (messageLayout understands)) =
      some (some envelope.messages) := by
    have list : (Tree.list trees).list? 127 (fun inner => Tree.record? inner (messageLayout understands)) =
        some envelope.messages := mean
    exact congrArg (Option.map some) list
  have version := Tree.signed64?_ofInteger writable.version.1 writable.version.2
  have first : memberBytes (.ofText "version", .word (.ofInteger envelope.version)) = _ :=
    encode_memberText (Word.bytes_ofInteger envelope.version)
  have second : memberBytes (.ofText "messages", .list trees) = _ := encode_memberText (bytes_list written)
  obtain ⟨format, sent, confirmed⟩ := envelope
  cases confirmed with
  | none =>
      refine ⟨.object [(.ofText "version", .word (.ofInteger format)), (.ofText "messages", .list trees)], ?_, ?_⟩
      · exact bytes_object (.cons first (.cons second .nil))
      · apply Tree.record?_object (by decide)
        · apply Layout.fill_member rfl rfl (congrArg (Option.map _) version)
          exact Layout.fill_member rfl rfl (congrArg (Option.map _) messages) rfl
        · rfl
  | some sequence =>
      obtain ⟨mark, same, confirms⟩ := exists_confirmation_tree (writable.confirmed sequence rfl)
      have third : memberBytes (.ofText "confirmedSequenceNumberMessage", mark) = _ := encode_memberText same
      refine ⟨.object [(.ofText "version", .word (.ofInteger format)), (.ofText "messages", .list trees),
        (.ofText "confirmedSequenceNumberMessage", mark)], ?_, ?_⟩
      · exact bytes_object (.cons first (.cons second (.cons third .nil)))
      · apply Tree.record?_object (by decide)
        · apply Layout.fill_member rfl rfl (congrArg (Option.map _) version)
          apply Layout.fill_member rfl rfl (congrArg (Option.map _) messages)
          exact Layout.fill_member rfl rfl (congrArg (Option.map _) confirms) rfl
        · rfl

end

/-! ### Read envelopes -/

theorem Json.Tree.unsigned64?_le {tree : Tree} {found : Nat} (means : tree.unsigned64? = some found) :
    found ≤ maxUnsigned64 := by
  obtain ⟨value, isInteger, rfl⟩ := Option.map_eq_some_iff.mp means
  obtain ⟨_, -, -, positive, most⟩ := Tree.integer?_eq.mp isInteger
  omega

theorem Json.Entry.storing_keeps {σ β : Type} {name : String} {isHeld : σ → Bool} {required : Bool} {put : σ → β → σ}
    {reader : Reader β} {meaning : Tree → Option β} {reads : reader.Reads meaning} {invariant : σ → Prop}
    (keeps : ∀ draft value tree, invariant draft → meaning tree = some value → invariant (put draft value)) :
    (Entry.storing name isHeld required put reads).Keeps invariant := by
  intro draft filled tree before fills
  obtain ⟨value, means, rfl⟩ := Option.map_eq_some_iff.mp fills
  exact keeps draft value tree before means

theorem Json.Tree.optional?_cases {β : Type} {meaning : Tree → Option β} {tree : Tree} {found : Option β}
    (means : tree.optional? meaning = some found) : found = none ∨ ∃ held, found = some held ∧ meaning tree = some held := by
  unfold optional? at means
  split_ifs at means
  · exact .inl (Option.some.inj means).symm
  · obtain ⟨held, isHeld, rfl⟩ := Option.map_eq_some_iff.mp means
    exact .inr ⟨held, rfl, isHeld⟩

theorem Json.Tree.exists_item {budget : Nat} {meaning : Nat → Tree → Option α} {tree : Tree} {found : List α}
    (means : tree.list? budget meaning = some found) {value : α} (member : value ∈ found) :
    ∃ item, meaning (budget - 1) item = some value := by
  cases tree with
  | list items =>
      unfold list? at means
      split_ifs at means
      exact exists_of_mapM means member
  | word spelled => cases means
  | text spelling => cases means
  | object members => cases means

section

variable (meaning : Nat → Tree → Option α)

/-- The position fits, and the payload was read with this budget. -/
def Message.IsRead (budget : Nat) (message : Message α) : Prop :=
  message.sequence ≤ maxUnsigned64 ∧ ∃ tree, meaning budget tree = some message.payload

structure MessageDraft.IsRead (budget : Nat) (draft : MessageDraft α) : Prop where
  sequence : ∀ sequence ∈ draft.sequence, sequence ≤ maxUnsigned64
  payload : ∀ held ∈ draft.payload, ∃ tree, meaning budget tree = some held

structure EnvelopeDraft.IsRead (draft : EnvelopeDraft α) : Prop where
  version : ∀ version ∈ draft.version, minSigned64 ≤ version ∧ version ≤ maxSigned64
  messages : ∀ messages ∈ draft.messages, ∀ message ∈ messages, Message.IsRead meaning 125 message
  confirmed : ∀ confirmed ∈ draft.confirmed, ∀ sequence ∈ confirmed, sequence ≤ maxUnsigned64

end

theorem confirmation_le {budget : Nat} {tree : Tree} {sequence : Nat}
    (means : tree.record? budget (fun _ => confirmationLayout) = some sequence) : sequence ≤ maxUnsigned64 := by
  let fits (draft : Option Nat) : Prop := ∀ sequence ∈ draft, sequence ≤ maxUnsigned64
  have keeps : ∀ entry ∈ confirmationLayout.entries, entry.Keeps fits := by
    simp only [confirmationLayout, List.forall_mem_singleton]
    apply Entry.storing_keeps
    intro draft value tree _ found _ same
    exact Option.some.inj same ▸ Tree.unsigned64?_le found
  have blank : fits confirmationLayout.shape.blank := by
    intro _ same
    cases same
  obtain ⟨draft, before, finish⟩ := Layout.exists_draft means blank keeps
  cases draft with
  | none => cases finish
  | some value => exact Option.some.inj finish ▸ before value rfl

section

variable {payload : Payload α} {meaning : Nat → Tree → Option α} (understands : payload.Understands meaning)

theorem Message.isRead {budget : Nat} {tree : Tree} {message : Message α}
    (means : tree.record? budget (messageLayout understands) = some message) : message.IsRead meaning (budget - 1) := by
  have keeps : ∀ entry ∈ (messageLayout understands (budget - 1)).entries,
      entry.Keeps (MessageDraft.IsRead meaning (budget - 1)) := by
    simp only [messageLayout, List.forall_mem_cons]
    refine ⟨Entry.storing_keeps ?_, Entry.storing_keeps ?_, List.forall_mem_nil _⟩
    · intro draft sequence tree before found
      exact { before with sequence := fun _ same => Option.some.inj same ▸ Tree.unsigned64?_le found }
    · intro draft held tree before found
      exact { before with payload := fun _ same => Option.some.inj same ▸ ⟨tree, found⟩ }
  have blank : MessageDraft.IsRead meaning (budget - 1) (messageLayout understands (budget - 1)).shape.blank := by
    constructor
    all_goals
      intro _ same
      cases same
  obtain ⟨⟨sequence, held⟩, isRead, finish⟩ := Layout.exists_draft means blank keeps
  have finished := Layout.finish_eq.mp finish
  cases sequence with
  | none => cases finished
  | some sequence =>
      cases held with
      | some held =>
          obtain rfl := Except.ok.inj finished
          exact ⟨isRead.sequence sequence rfl, isRead.payload held rfl⟩
      | none =>
          cases absent : payload.absent with
          | none => simp [messageLayout, messageShape, absent] at finished
          | some held =>
              simp only [messageLayout, messageShape, absent, Option.none_or, Except.ok.injEq] at finished
              subst finished
              exact ⟨isRead.sequence sequence rfl, .word Word.null, understands.null held _ absent⟩

theorem Envelope.isRead {tree : Tree} {envelope : Envelope α} (means : tree.envelope? understands = some envelope) :
    (minSigned64 ≤ envelope.version ∧ envelope.version ≤ maxSigned64) ∧
      (∀ message ∈ envelope.messages, message.IsRead meaning 125) ∧
      ∀ sequence ∈ envelope.confirmed, sequence ≤ maxUnsigned64 := by
  have keeps : ∀ entry ∈ (envelopeLayout understands 127).entries, entry.Keeps (EnvelopeDraft.IsRead meaning) := by
    simp only [envelopeLayout, List.forall_mem_cons]
    refine ⟨Entry.storing_keeps ?_, Entry.storing_keeps ?_, Entry.storing_keeps ?_, List.forall_mem_nil _⟩
    · intro draft version tree before found
      obtain ⟨_, -, -, range⟩ := Tree.integer?_eq.mp found
      exact { before with version := fun _ same => Option.some.inj same ▸ range }
    · intro draft messages tree before found
      refine { before with messages := fun _ same message member => ?_ }
      obtain rfl := Option.some.inj same
      obtain rfl | ⟨held, rfl, list⟩ := Tree.optional?_cases found
      · cases member
      · obtain ⟨item, means⟩ := Tree.exists_item list member
        exact Message.isRead understands means
    · intro draft confirmed tree before found
      refine { before with confirmed := fun _ same sequence member => ?_ }
      obtain rfl := Option.some.inj same
      obtain rfl | ⟨held, rfl, means⟩ := Tree.optional?_cases found
      · cases member
      · exact Option.some.inj member ▸ confirmation_le means
  have blank : EnvelopeDraft.IsRead meaning (envelopeLayout understands 127).shape.blank := by
    constructor
    all_goals
      intro _ same
      cases same
  obtain ⟨⟨version, messages, confirmed⟩, isRead, finish⟩ := Layout.exists_draft means blank keeps
  obtain rfl := Option.some.inj finish
  refine ⟨?_, ?_, ?_⟩
  · cases version with
    | none => exact (by decide : minSigned64 ≤ 0 ∧ 0 ≤ maxSigned64)
    | some version => exact isRead.version version rfl
  · cases messages with
    | none => exact List.forall_mem_nil _
    | some messages => exact isRead.messages messages rfl
  · cases confirmed with
    | none =>
        intro _ same
        cases same
    | some confirmed => exact isRead.confirmed confirmed rfl

/-! ### There and back -/

variable {envelope : Envelope α} (translates : payload.Translates meaning)
include understands translates

theorem Envelope.Writable.decoded (writable : envelope.Writable payload) :
    Envelope.decode payload (Utf8.encode (envelope.text payload)) = .ok envelope := by
  obtain ⟨tree, same, means⟩ := writable.exists_tree understands translates
  have spells : tree.Spells (Utf8.encode (envelope.text payload)) := same ▸ tree.spells_bytes
  exact (decode_eq understands).mpr ⟨tree, spells, means, firstDescent_eq_none.mpr writable.increasing⟩

theorem Envelope.Writable.of_decode {frame : List UInt8} (accepted : Envelope.decode payload frame = .ok envelope)
    (floatless : ∀ message ∈ envelope.messages, (payload.toJson message.payload).Floatless) :
    envelope.Writable payload := by
  obtain ⟨tree, -, means, ordered⟩ := (decode_eq understands).mp accepted
  obtain ⟨version, messages, confirmed⟩ := Envelope.isRead understands means
  refine ⟨version, fun message member => (messages message member).1, fun message member => ?_,
    firstDescent_eq_none.mp ordered, confirmed⟩
  obtain ⟨-, held, isHeld⟩ := messages message member
  have stands : held.value? (payloadDepth + 1) = some (payload.toJson message.payload) :=
    (translates payloadDepth held message.payload).mp isHeld
  exact Json.Writable.of_tree stands (floatless message member)

end

/-- The text of every envelope that can be written is decoded to that envelope. So whatever was decoded and holds
no floating point number is written as a text that is decoded to the same envelope and written the same again. -/
theorem decode_text {payload : Payload α} (common : payload.Common) :
    (∀ envelope : Envelope α, envelope.Writable payload →
      Envelope.decode payload (Utf8.encode (envelope.text payload)) = .ok envelope) ∧
    ∀ (frame : List UInt8) (envelope : Envelope α), Envelope.decode payload frame = .ok envelope →
      (∀ message ∈ envelope.messages, (payload.toJson message.payload).Floatless) →
      ∃ again, Envelope.decode payload (Utf8.encode (envelope.text payload)) = .ok again ∧ again = envelope ∧
        Utf8.encode (again.text payload) = Utf8.encode (envelope.text payload) := by
  obtain ⟨meaning, understands, translates⟩ := common.understands
  refine ⟨fun envelope writable => writable.decoded understands translates, fun frame envelope accepted floatless => ?_⟩
  have writable := Envelope.Writable.of_decode understands translates accepted floatless
  exact ⟨envelope, writable.decoded understands translates, rfl, rfl⟩

/-- The least version, the greatest position, and a payload with an escape and the least exact integer. -/
theorem decode_text_extremes :
    let nested : Json := .object [("list", .array [.number (.integer minSigned64), .string "\n"]), ("none", .null)]
    let envelope : Envelope Json := ⟨minSigned64, [⟨0, .bool true⟩, ⟨maxUnsigned64, nested⟩], some maxUnsigned64⟩
    Envelope.decode Payload.any (Utf8.encode (envelope.text Payload.any)) = .ok envelope ∧
      ∃ again, Envelope.decode Payload.any (Utf8.encode (envelope.text Payload.any)) = .ok again ∧ again = envelope ∧
        Utf8.encode (again.text Payload.any) = Utf8.encode (envelope.text Payload.any) := by
  intro nested envelope
  have deep : Json.Writable payloadDepth nested := by
    apply Json.Writable.object
    · unfold Ascending
      decide
    · simp only [List.forall_mem_cons]
      refine ⟨.array ?_, .null, List.forall_mem_nil _⟩
      simp only [List.forall_mem_cons]
      exact ⟨.integer (by unfold IsExact; decide), .string "\n", List.forall_mem_nil _⟩
  have floatless : nested.Floatless := by
    apply Json.Floatless.object
    simp only [List.forall_mem_cons]
    refine ⟨.array ?_, .null, List.forall_mem_nil _⟩
    simp only [List.forall_mem_cons]
    exact ⟨.integer _, .string "\n", List.forall_mem_nil _⟩
  have writable : envelope.Writable Payload.any := by
    refine ⟨by decide, by simp [envelope], ?_, by decide, by simp [envelope]⟩
    exact List.forall_mem_cons.mpr ⟨.bool true, List.forall_mem_singleton.mpr deep⟩
  have decoded := (decode_text .any).1 envelope writable
  refine ⟨decoded, (decode_text .any).2 _ envelope decoded ?_⟩
  exact List.forall_mem_cons.mpr ⟨.bool true, List.forall_mem_singleton.mpr floatless⟩

end SequencedFeed
