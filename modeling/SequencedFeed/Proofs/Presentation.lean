import Mathlib.Logic.Relation
import SequencedFeed.Proofs.Decoding
import SequencedFeed.Proofs.Json.Rewriting
import SequencedFeed.Proofs.Json.Written
set_option autoImplicit false

/-!
# Presentation independence

However an envelope is written, it is decoded to the same messages and the same mark: fields and unknown members
in any order, blanks anywhere, members with nothing to say present or left out, and every record as an object or
as a list. So a feed may add members that no client knows yet.
-/

namespace SequencedFeed

open Json

variable {α : Type}

/-! ### Formats of the records -/

def Json.Word.zero : Word :=
  ⟨[byte '0'], rfl⟩

def confirmationFormat : Format where
  names := ["sequenceNumber"]
  omitted _ _ := False
  inner _ _ _ := False

/-- Null says as much as no payload at all if the payload type knows an absent payload. -/
def messageFormat (payload : Payload α) : Format where
  names := ["sequenceNumber", "message"]
  omitted name value := name = "message" ∧ payload.absent.isSome = true ∧ value = .word Word.null
  inner _ _ _ := False

/-- One message of a list is written another way. -/
inductive MessagesStep (payload : Payload α) : Tree → Tree → Prop
  | message {before after : List Tree} {value other : Tree} (step : (messageFormat payload).Step value other) :
      MessagesStep payload (.list (before ++ value :: after)) (.list (before ++ other :: after))

def envelopeFormat (payload : Payload α) : Format where
  names := ["version", "messages", "confirmedSequenceNumberMessage"]
  omitted name value :=
    (name = "version" ∧ value = .word Word.zero) ∨
      (name = "messages" ∧ (value = .word Word.null ∨ value = .list [])) ∨
      (name = "confirmedSequenceNumberMessage" ∧ value = .word Word.null)
  inner name value other :=
    (name = "messages" ∧ MessagesStep payload value other) ∨
      (name = "confirmedSequenceNumberMessage" ∧ confirmationFormat.Step value other)

/-! ### Independent fields -/

section

variable {σ β γ : Type} {name nameOther : String} {isHeld isHeldOther : σ → Bool} {required requiredOther : Bool}
  {put : σ → β → σ} {putOther : σ → γ → σ} {reader : Reader β} {readerOther : Reader γ} {meaning : Tree → Option β}
  {meaningOther : Tree → Option γ} {reads : reader.Reads meaning} {readsOther : readerOther.Reads meaningOther}

theorem Json.Entry.storing_holds (holds : ∀ draft value, isHeld (put draft value) = true) {draft filled : σ}
    {tree : Tree} (fills : (Entry.storing name isHeld required put reads).fill draft tree = some filled) :
    isHeld filled = true := by
  obtain ⟨value, -, rfl⟩ := Option.map_eq_some_iff.mp fills
  exact holds draft value

theorem Json.Entry.storing_apart (keeps : ∀ draft value, isHeldOther (put draft value) = isHeldOther draft)
    (kept : ∀ draft other, isHeld (putOther draft other) = isHeld draft)
    (comm : ∀ draft value other, putOther (put draft value) other = put (putOther draft other) value) :
    (Entry.storing name isHeld required put reads).Apart
      (Entry.storing nameOther isHeldOther requiredOther putOther readsOther) where
  keeps fills := by
    obtain ⟨value, -, rfl⟩ := Option.map_eq_some_iff.mp fills
    exact keeps _ value
  kept fills := by
    obtain ⟨value, -, rfl⟩ := Option.map_eq_some_iff.mp fills
    exact kept _ value
  commutes draft tree second := by
    simp only [Entry.storing]
    cases meaning tree with
    | none => cases meaningOther second <;> rfl
    | some value =>
        cases meaningOther second with
        | none => rfl
        | some other => exact congrArg some (comm draft value other)

end

theorem confirmationLayout_independent : confirmationLayout.Independent where
  distinct := by decide
  blank := by simp [confirmationLayout, Entry.storing, confirmationShape]
  holds := by
    simp only [confirmationLayout, List.forall_mem_singleton]
    exact Entry.storing_holds fun _ _ => rfl
  pairs := List.pairwise_singleton _ _

section

variable {payload : Payload α} {meaning : Nat → Tree → Option α} (understands : payload.Understands meaning)

theorem messageLayout_independent (budget : Nat) : (messageLayout understands budget).Independent where
  distinct := show ["sequenceNumber", "message"].Nodup by decide
  blank := by simp [messageLayout, Entry.storing, messageShape]
  holds := by
    simp only [messageLayout, List.forall_mem_cons]
    refine ⟨Entry.storing_holds ?_, Entry.storing_holds ?_, List.forall_mem_nil _⟩
    all_goals exact fun _ _ => rfl
  pairs := by
    simp only [messageLayout, List.pairwise_pair]
    exact Entry.storing_apart (fun _ _ => rfl) (fun _ _ => rfl) (fun _ _ _ => rfl)

theorem envelopeLayout_independent (budget : Nat) : (envelopeLayout understands budget).Independent where
  distinct := show ["version", "messages", "confirmedSequenceNumberMessage"].Nodup by decide
  blank := by simp [envelopeLayout, Entry.storing, envelopeShape]
  holds := by
    simp only [envelopeLayout, List.forall_mem_cons]
    refine ⟨Entry.storing_holds ?_, Entry.storing_holds ?_, Entry.storing_holds ?_, List.forall_mem_nil _⟩
    all_goals exact fun _ _ => rfl
  pairs := by
    simp only [envelopeLayout, List.pairwise_cons, List.forall_mem_cons]
    refine ⟨⟨?_, ?_, List.forall_mem_nil _⟩, ⟨?_, List.forall_mem_nil _⟩, List.forall_mem_nil _, List.Pairwise.nil⟩
    all_goals exact Entry.storing_apart (fun _ _ => rfl) (fun _ _ => rfl) (fun _ _ _ => rfl)

/-! ### What the steps leave alone -/

theorem confirmation_agrees {value other : Tree} (step : confirmationFormat.Step value other) (budget : Nat) :
    Tree.record? budget (fun _ => confirmationLayout) value = Tree.record? budget (fun _ => confirmationLayout) other := by
  rw [Tree.record?, Tree.record?, confirmationLayout_independent.inside_eq rfl ?_ ?_ step]
  · exact fun _ _ omitted => omitted.elim
  · exact fun _ _ _ inner => inner.elim

theorem messageLayout_omits (budget : Nat) : (messageLayout understands budget).Omits (messageFormat payload).omitted := by
  rintro name value ⟨rfl, known, rfl⟩
  obtain ⟨held, absent⟩ := Option.isSome_iff_exists.mp known
  refine ⟨_, rfl, fun draft free => ?_⟩
  obtain ⟨sequence, payload'⟩ := draft
  obtain rfl : payload' = none := by simpa [Entry.storing] using free
  refine ⟨_, congrArg (Option.map _) (understands.null held budget absent), ?_⟩
  cases sequence with
  | none => rfl
  | some sequence => simp [Layout.finish?, messageLayout, messageShape, absent]

theorem message_agrees {value other : Tree} (step : (messageFormat payload).Step value other) (budget : Nat) :
    Tree.record? budget (messageLayout understands) value = Tree.record? budget (messageLayout understands) other := by
  rw [Tree.record?, Tree.record?, (messageLayout_independent understands _).inside_eq rfl ?_ ?_ step]
  · exact messageLayout_omits understands _
  · exact fun _ _ _ inner => inner.elim

theorem envelopeLayout_omits {budget : Nat} (deep : 1 < budget) :
    (envelopeLayout understands budget).Omits (envelopeFormat payload).omitted := by
  have finishes (draft other : EnvelopeDraft α) (version : draft.version.getD 0 = other.version.getD 0)
      (messages : draft.messages.getD [] = other.messages.getD [])
      (confirmed : draft.confirmed.getD none = other.confirmed.getD none) :
      (envelopeLayout understands budget).finish? draft = (envelopeLayout understands budget).finish? other := by
    simp only [Layout.finish?, envelopeLayout, envelopeShape, version, messages, confirmed]
  have unset {β : Type} {held : Option β} (free : held.isSome = false) (value : β) : held.getD value = value := by
    rw [Option.isSome_eq_false_iff, Option.isNone_iff_eq_none] at free
    rw [free]
    rfl
  have empty : Tree.list? budget (fun inner => Tree.record? inner (messageLayout understands)) (.list []) = some [] := by
    rw [Tree.list?, if_neg (by omega)]
    rfl
  rintro name value (⟨rfl, rfl⟩ | ⟨rfl, rfl | rfl⟩ | ⟨rfl, rfl⟩)
  · exact ⟨_, rfl, fun draft free => ⟨_, rfl, finishes _ draft (unset free 0).symm rfl rfl⟩⟩
  · exact ⟨_, rfl, fun draft free => ⟨_, rfl, finishes _ draft rfl (unset free []).symm rfl⟩⟩
  · refine ⟨_, rfl, fun draft free => ⟨{ draft with messages := some [] }, ?_, ?_⟩⟩
    · simp only [Entry.storing, Tree.optional?, Tree.isNull, empty]
      rfl
    · exact finishes _ draft rfl (unset free []).symm rfl
  · exact ⟨_, rfl, fun draft free => ⟨_, rfl, finishes _ draft rfl rfl (unset free none).symm⟩⟩

theorem Json.Format.Step.isNull {format : Format} {value other : Tree} (step : format.Step value other) :
    value.isNull = false ∧ other.isNull = false := by
  cases step <;> exact ⟨rfl, rfl⟩

theorem envelopeLayout_agrees (budget : Nat) :
    (envelopeLayout understands budget).Agrees (envelopeFormat payload).inner := by
  intro name value other inner entry member named draft
  have found := (envelopeLayout_independent understands budget).find_mem member
  rw [named] at found
  rcases inner with ⟨rfl, step⟩ | ⟨rfl, step⟩
  · obtain rfl := Option.some.inj found
    apply congrArg (Option.map _)
    cases step with
    | message step =>
        simp only [Tree.optional?, Tree.isNull, Tree.list?, List.mapM_append, List.mapM_cons,
          message_agrees understands step]
  · obtain rfl := Option.some.inj found
    apply congrArg (Option.map _)
    simp only [Tree.optional?, step.isNull, confirmation_agrees step]

theorem envelope_agrees {value other : Tree} (steps : Relation.EqvGen (envelopeFormat payload).Step value other) :
    value.envelope? understands = other.envelope? understands := by
  induction steps with
  | rel value other step =>
      rw [Tree.envelope?, Tree.record?, Tree.record?, (envelopeLayout_independent understands _).inside_eq rfl ?_ ?_ step]
      · exact envelopeLayout_omits understands (by decide)
      · exact envelopeLayout_agrees understands _
  | refl => rfl
  | symm _ _ _ ih => exact ih.symm
  | trans _ _ _ _ _ first second => exact first.trans second

end

/-- Every frame that is accepted is spelled by a tree, and written another way in any number of steps it is
decoded to the same envelope. -/
theorem Payload.Understands.decode_rewritten {payload : Payload α} {meaning : Nat → Tree → Option α}
    (understands : payload.Understands meaning) {frame : List UInt8} {envelope : Envelope α}
    (accepted : Envelope.decode payload frame = .ok envelope) :
    (∃ tree : Tree, tree.Spells frame) ∧
      ∀ (tree other : Tree) (rewritten : List UInt8), tree.Spells frame →
        Relation.EqvGen (envelopeFormat payload).Step tree other → other.Spells rewritten →
        Envelope.decode payload rewritten = .ok envelope := by
  obtain ⟨found, spells, means, ordered⟩ := (decode_eq understands).mp accepted
  refine ⟨⟨found, spells⟩, fun tree other rewritten spelled steps spellsOther => ?_⟩
  obtain rfl := spells.injective spelled
  rw [envelope_agrees understands steps] at means
  exact (decode_eq understands).mpr ⟨other, spellsOther, means, ordered⟩

/-- No payload type that feeds are used with tells the presentations of a frame apart. -/
theorem decode_presentation {payload : Payload α} (common : payload.Common) {frame : List UInt8}
    {envelope : Envelope α} (accepted : Envelope.decode payload frame = .ok envelope) :
    (∃ tree : Tree, tree.Spells frame) ∧
      ∀ (tree other : Tree) (rewritten : List UInt8), tree.Spells frame →
        Relation.EqvGen (envelopeFormat payload).Step tree other → other.Spells rewritten →
        Envelope.decode payload rewritten = .ok envelope := by
  obtain ⟨meaning, understands, -⟩ := common.understands
  exact understands.decode_rewritten accepted

/-- A message without a payload, and the same message as a list, with a version and an unknown member beside it. -/
theorem decode_presentation_seven :
    Envelope.decode Payload.optionalUnsigned (Tree.object [
        (.ofText "messages", .list [.object [(.ofText "sequenceNumber", .word (.ofInteger 7))]])]).bytes =
          .ok ⟨0, [⟨7, none⟩], none⟩ ∧
      Envelope.decode Payload.optionalUnsigned (Tree.object [
        (.ofText "version", .word .zero),
        (.ofText "messages", .list [.list [.word (.ofInteger 7), .word .null]]),
        (.ofText "later", .list [.object []])]).bytes = .ok ⟨0, [⟨7, none⟩], none⟩ := by
  let frame (message : Tree) : Tree := .object [(.ofText "messages", .list [message])]
  have accepted : Envelope.decode Payload.optionalUnsigned (frame (.object [
      (.ofText "sequenceNumber", .word (.ofInteger 7))])).bytes = .ok ⟨0, [⟨7, none⟩], none⟩ := by
    decide +kernel
  have named (name : String) : (Spelling.ofText name).text? = some name := Spelling.text?_ofText name
  have message {value other : Tree} (step : (messageFormat Payload.optionalUnsigned).Step value other) :
      (envelopeFormat Payload.optionalUnsigned).Step (frame value) (frame other) := by
    have inner : MessagesStep Payload.optionalUnsigned (.list [value]) (.list [other]) :=
      @MessagesStep.message _ _ [] [] _ _ step
    exact @Format.Step.member _ [] [] _ _ _ _ (named "messages") (.inl ⟨rfl, inner⟩)
  have steps : Relation.EqvGen (envelopeFormat Payload.optionalUnsigned).Step
      (frame (.object [(.ofText "sequenceNumber", .word (.ofInteger 7))]))
      (.object [(.ofText "version", .word .zero),
        (.ofText "messages", .list [.list [.word (.ofInteger 7), .word .null]]),
        (.ofText "later", .list [.object []])]) := by
    have new : "later" ∉ (envelopeFormat Payload.optionalUnsigned).names := by decide
    apply Relation.EqvGen.trans _ _ _ (.rel _ _ (message (.omitted (named "message") ⟨rfl, rfl, rfl⟩ (by simp [named]))))
    apply Relation.EqvGen.trans _ _ _ (.rel _ _ (message (.reorder (List.Perm.swap _ _ []))))
    apply Relation.EqvGen.trans _ _ _ (.rel _ _ (message (.positional (by simp [named, messageFormat]))))
    apply Relation.EqvGen.trans _ _ _ (.rel _ _ (.unknown (.list [.object []]) (named "later") new))
    apply Relation.EqvGen.trans _ _ _ (.rel _ _ (.reorder (List.Perm.swap _ _ [])))
    exact .rel _ _ (.omitted (named "version") (.inl ⟨rfl, rfl⟩) (by simp [named]))
  obtain ⟨-, unchanged⟩ := decode_presentation .optionalUnsigned accepted
  exact ⟨accepted, unchanged _ _ _ (Tree.spells_bytes _) steps (Tree.spells_bytes _)⟩

end SequencedFeed
