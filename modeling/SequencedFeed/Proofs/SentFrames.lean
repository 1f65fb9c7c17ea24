import SequencedFeed.Envelope.Text
import SequencedFeed.Proofs.Moves
import SequencedFeed.Proofs.RoundTrip
set_option autoImplicit false

/-!
# What feeds send is what clients take

The frames that feeds send out are written from JSON values with ascending keys, and so in another order than the
text of an envelope. They are decoded to the envelopes that they were built for all the same, and what a client
hands to its sink are the payloads that went into the frame.
-/

namespace SequencedFeed

open Json

variable {α : Type}

/-! ### Objects of two members -/

theorem Json.ofMembers_swap {first second : String} (ordered : first < second) (left right : Json) :
    ofMembers [(second, right), (first, left)] = .object [(first, left), (second, right)] := by
  have different : first ≠ second := by
    rintro rfl
    exact String.lt_irrefl first ordered
  simp [ofMembers, insertMember, different, ordered]

theorem Json.bytes_int (value : Int) : (Tree.word (.ofInteger value)).bytes = Utf8.encode (int value).text :=
  Word.bytes_ofInteger value

theorem Json.bytes_pair {first second : String} {left right : Json} {tree tree' : Tree}
    (written : tree.bytes = Utf8.encode left.text) (written' : tree'.bytes = Utf8.encode right.text) :
    (Tree.object [(.ofText first, tree), (.ofText second, tree')]).bytes =
      Utf8.encode (Json.object [(first, left), (second, right)]).text := by
  rw [Json.text, memberTexts, memberTexts, memberTexts]
  exact bytes_object (.cons (encode_memberText written) (.cons (encode_memberText written') .nil))

/-! ### Messages -/

/-- Payloads with consecutive positions from `start` on. -/
def Message.numbered (start : Nat) (payloads : List α) : List (Message α) :=
  payloads.mapIdx fun place payload => ⟨start + place, payload⟩

def Message.json (payload : Payload α) (message : Message α) : Json :=
  .object [("message", payload.toJson message.payload), ("sequenceNumber", Json.nat message.sequence)]

theorem Message.numbered_cons (start : Nat) (first : α) (rest : List α) :
    numbered start (first :: rest) = ⟨start, first⟩ :: numbered (start + 1) rest := by
  simp only [numbered, List.mapIdx_cons, Nat.add_zero, Nat.add_assoc, Nat.add_comm 1]

theorem batchItems_eq (payload : Payload α) (start : Nat) (payloads : List α) :
    batchItems start (payloads.map payload.toJson) =
      (Message.numbered start payloads).map (Message.json payload) := by
  induction payloads generalizing start with
  | nil => rfl
  | cons first rest ih =>
      rw [List.map_cons, batchItems, Message.numbered_cons, List.map_cons, ih]
      exact congrArg (· :: _) (ofMembers_swap (by decide) ..)

theorem Message.mem_numbered {start : Nat} {payloads : List α} {message : Message α}
    (member : message ∈ numbered start payloads) :
    message.sequence < start + payloads.length ∧ message.payload ∈ payloads := by
  obtain ⟨place, inside, rfl⟩ := List.mem_mapIdx.mp member
  exact ⟨Nat.add_lt_add_left inside start, List.getElem_mem inside⟩

theorem Message.numbered_increasing (start : Nat) (payloads : List α) :
    ((numbered start payloads).map Message.sequence).Pairwise (· < ·) := by
  rw [List.pairwise_iff_getElem]
  intro place later inside inside' before
  simpa [numbered] using before

section

variable {payload : Payload α} {meaning : Nat → Tree → Option α} (understands : payload.Understands meaning)
  (translates : payload.Translates meaning)
include understands translates

theorem Message.exists_sent_tree {message : Message α} (fits : message.sequence ≤ maxUnsigned64)
    (writable : Json.Writable payloadDepth (payload.toJson message.payload)) :
    ∃ tree : Tree, tree.bytes = Utf8.encode (message.json payload).text ∧
      tree.record? 126 (messageLayout understands) = some message := by
  obtain ⟨tree, same, stands⟩ := writable.exists_tree
  have held := (translates payloadDepth tree message.payload).mpr stands
  refine ⟨.object [(.ofText "message", tree), (.ofText "sequenceNumber", .word (.ofInteger message.sequence))], ?_, ?_⟩
  · exact bytes_pair same (bytes_int _)
  · apply Tree.record?_object (by decide)
    · apply Layout.fill_member rfl rfl (congrArg (Option.map _) held)
      exact Layout.fill_member rfl rfl (congrArg (Option.map _) (Tree.unsigned64?_ofInteger fits)) rfl
    · rfl

/-! ### Frames -/

theorem exists_batch_tree {start : Nat} {payloads : List α} (fits : start + payloads.length ≤ maxUnsigned64)
    (writable : ∀ held ∈ payloads, Json.Writable payloadDepth (payload.toJson held)) :
    ∃ tree : Tree, tree.bytes = Utf8.encode (Json.array (batchItems start (payloads.map payload.toJson))).text ∧
      tree.optional? (Tree.list? 127 fun inner => Tree.record? inner (messageLayout understands)) =
        some (some (Message.numbered start payloads)) := by
  have all : ∀ message ∈ Message.numbered start payloads, ∃ tree : Tree,
      tree.bytes = Utf8.encode (message.json payload).text ∧
        tree.record? 126 (messageLayout understands) = some message := by
    intro message member
    obtain ⟨inside, held⟩ := Message.mem_numbered member
    exact Message.exists_sent_tree understands translates (by omega) (writable _ held)
  obtain ⟨trees, written, mean⟩ := exists_entries all
  have list : (Tree.list trees).list? 127 (fun inner => Tree.record? inner (messageLayout understands)) =
      some (Message.numbered start payloads) := mean
  refine ⟨.list trees, ?_, congrArg (Option.map some) list⟩
  rw [batchItems_eq, Json.text, itemTexts_eq, List.map_map]
  exact bytes_list written

/-- A batch of any version is decoded to the envelope that it was built for. -/
theorem decode_sent_batch {version : Int} (least : minSigned64 ≤ version) (most : version ≤ maxSigned64) {start : Nat}
    {payloads : List α} (fits : start + payloads.length ≤ maxUnsigned64)
    (writable : ∀ held ∈ payloads, Json.Writable payloadDepth (payload.toJson held)) :
    Envelope.decode payload (versionedBatchFrame version start (payloads.map payload.toJson)) =
      .ok ⟨version, Message.numbered start payloads, none⟩ := by
  obtain ⟨tree, written, holds⟩ := exists_batch_tree understands translates fits writable
  let sent : Tree := .object [(.ofText "messages", tree), (.ofText "version", .word (.ofInteger version))]
  have same : sent.bytes = versionedBatchFrame version start (payloads.map payload.toJson) := by
    rw [versionedBatchFrame, frameOf, ofMembers_swap (by decide)]
    exact bytes_pair written (bytes_int version)
  have means : sent.envelope? understands = some ⟨version, Message.numbered start payloads, none⟩ := by
    apply Tree.record?_object (by decide)
    · apply Layout.fill_member rfl rfl (congrArg (Option.map _) holds)
      exact Layout.fill_member rfl rfl (congrArg (Option.map _) (Tree.signed64?_ofInteger least most)) rfl
    · rfl
  refine (decode_eq understands).mpr ⟨sent, same ▸ sent.spells_bytes, means, ?_⟩
  exact firstDescent_eq_none.mpr (Message.numbered_increasing start payloads)

omit translates in
theorem decode_sent_confirmation {sequence : Nat} (fits : sequence ≤ maxUnsigned64) :
    Envelope.decode payload (confirmationFrame sequence) = .ok ⟨supportedVersion, [], some sequence⟩ := by
  obtain ⟨mark, written, confirms⟩ := exists_confirmation_tree fits
  obtain ⟨least, most⟩ : minSigned64 ≤ supportedVersion ∧ supportedVersion ≤ maxSigned64 := by decide
  unfold confirmationFrame
  generalize supportedVersion = version at least most ⊢
  let sent : Tree :=
    .object [(.ofText "confirmedSequenceNumberMessage", mark), (.ofText "version", .word (.ofInteger version))]
  have position : Json.ofMembers [("sequenceNumber", Json.nat sequence)] = .object [("sequenceNumber", Json.nat sequence)] :=
    rfl
  have same : sent.bytes = frameOf (Json.ofMembers [("version", Json.int version),
      ("confirmedSequenceNumberMessage", Json.ofMembers [("sequenceNumber", Json.nat sequence)])]) := by
    rw [frameOf, ofMembers_swap (by decide), position]
    exact bytes_pair written (bytes_int version)
  have means : sent.envelope? understands = some ⟨version, [], some sequence⟩ := by
    apply Tree.record?_object (by decide)
    · apply Layout.fill_member rfl rfl (congrArg (Option.map _) confirms)
      exact Layout.fill_member rfl rfl (congrArg (Option.map _) (Tree.signed64?_ofInteger least most)) rfl
    · rfl
  exact (decode_eq understands).mpr ⟨sent, same ▸ sent.spells_bytes, means, rfl⟩

end

/-! ### What a client makes of a frame -/

namespace Client

variable {client : Client} {now : Nat}

/-- A frame that holds an envelope is counted and reported, and the envelope is applied. -/
theorem takeFrame_decoded {frame : List UInt8} {envelope : Envelope Json}
    (decoded : Envelope.decode Payload.any frame = .ok envelope) :
    client.takeFrame now frame =
      ({ client with metrics := client.metrics.frameReceived }.log now (LogEvent.summary envelope)).route now envelope := by
  cases frame with
  | nil => cases decoded
  | cons byte rest => simp only [takeFrame, List.isEmpty_cons, decoded, Bool.false_eq_true, if_false]

theorem sinkCalls_applied (call : SinkCall) :
    (client.note now (.applied call)).sinkCalls = client.sinkCalls ++ [(now, call)] := by
  simp [sinkCalls]

theorem route_unsupported {envelope : Envelope Json} (foreign : envelope.version ≠ supportedVersion) :
    client.route now envelope = client.enter .looping := by
  have unsupported : envelope.isSupported = false := decide_eq_false foreign
  simp only [route, unsupported, Bool.not_false, if_true]

theorem route_batch (start : Nat) {payloads : List Json} (filled : payloads ≠ []) :
    client.route now ⟨supportedVersion, Message.numbered start payloads, none⟩ =
      (client.note now (.applied ⟨start, false, payloads⟩)).enter (.sinking start none (expiry now client.sink.delay)) := by
  have supported : Envelope.isSupported ⟨supportedVersion, Message.numbered start payloads, none⟩ = true := decide_eq_true rfl
  have first : Envelope.firstSequence ⟨supportedVersion, Message.numbered start payloads, none⟩ = some start := by
    obtain ⟨head, rest, rfl⟩ := List.exists_cons_of_ne_nil filled
    rw [Envelope.firstSequence, Message.numbered_cons]
    rfl
  have held : Envelope.payloads ⟨supportedVersion, Message.numbered start payloads, none⟩ = payloads := by
    apply List.ext_getElem
    · simp [Envelope.payloads, Message.numbered]
    · intro place inside inside'
      simp [Envelope.payloads, Message.numbered]
  simp only [route, supported, Bool.not_true, Bool.false_eq_true, if_false, first, held]

end Client

/-- The frames of a feed mean what they were built for: a batch its payloads with consecutive positions, and a
confirmation its mark. A client makes one sink call of a batch that has payloads and the supported version, and none
of a batch of any other version. -/
theorem frames_mean_what_was_sent {version : Int} (least : minSigned64 ≤ version) (most : version ≤ maxSigned64)
    {start : Nat} {payloads : List Json} (fits : start + payloads.length ≤ maxUnsigned64)
    (writable : ∀ held ∈ payloads, Json.Writable payloadDepth held) :
    Envelope.decode Payload.any (versionedBatchFrame version start payloads) =
        .ok ⟨version, payloads.mapIdx fun place held => ⟨start + place, held⟩, none⟩ ∧
      Envelope.decode Payload.any (batchFrame start payloads) =
        .ok ⟨1, payloads.mapIdx fun place held => ⟨start + place, held⟩, none⟩ ∧
      (∀ sequence ≤ maxUnsigned64, Envelope.decode Payload.any (confirmationFrame sequence) = .ok ⟨1, [], some sequence⟩) ∧
      (∀ (client : Client) (now : Nat), payloads ≠ [] →
        (client.takeFrame now (batchFrame start payloads)).sinkCalls =
            client.sinkCalls ++ [(now, { start, force := false, payloads })] ∧
          (client.takeFrame now (batchFrame start payloads)).phase =
            .sinking start none (expiry now client.sink.delay)) ∧
      ∀ (client : Client) (now : Nat), version ≠ 1 →
        (client.takeFrame now (versionedBatchFrame version start payloads)).sinkCalls = client.sinkCalls ∧
          (client.takeFrame now (versionedBatchFrame version start payloads)).phase = .looping := by
  obtain ⟨meaning, understands, translates⟩ := Payload.Common.any.understands
  have decoded {version : Int} (least : minSigned64 ≤ version) (most : version ≤ maxSigned64) :
      Envelope.decode Payload.any (versionedBatchFrame version start payloads) =
        .ok ⟨version, Message.numbered start payloads, none⟩ := by
    have sent := decode_sent_batch understands translates least most fits writable
    rwa [show payloads.map Payload.any.toJson = payloads from List.map_id payloads] at sent
  have batch : Envelope.decode Payload.any (batchFrame start payloads) =
      .ok ⟨supportedVersion, Message.numbered start payloads, none⟩ := decoded (by decide) (by decide)
  refine ⟨decoded least most, batch, fun sequence fits => decode_sent_confirmation understands fits, ?_, ?_⟩
  · intro client now filled
    rw [Client.takeFrame_decoded batch, Client.route_batch start filled]
    exact ⟨Client.sinkCalls_applied .., rfl⟩
  · intro client now foreign
    rw [Client.takeFrame_decoded (decoded least most), Client.route_unsupported foreign]
    exact ⟨rfl, rfl⟩

/-- The least version, the last positions that there are, and a payload with a key that needs escapes. -/
theorem frames_mean_what_was_sent_extremes :
    let nested : Json := .object [("\"\n", .array [.number (.integer minSigned64), .array []]), ("none", .null)]
    let start := 18446744073709551613
    Envelope.decode Payload.any (versionedBatchFrame minSigned64 start [nested, .bool true]) =
        .ok ⟨minSigned64, [⟨18446744073709551613, nested⟩, ⟨18446744073709551614, .bool true⟩], none⟩ ∧
      Envelope.decode Payload.any (confirmationFrame maxUnsigned64) = .ok ⟨1, [], some maxUnsigned64⟩ ∧
      ∀ (client : Client) (now : Nat),
        (client.takeFrame now (batchFrame start [nested, .bool true])).sinkCalls =
            client.sinkCalls ++ [(now, { start, force := false, payloads := [nested, .bool true] })] ∧
          (client.takeFrame now (versionedBatchFrame minSigned64 start [nested, .bool true])).sinkCalls = client.sinkCalls := by
  intro nested start
  have deep : Json.Writable payloadDepth nested := by
    apply Json.Writable.object
    · unfold Ascending
      decide
    · simp only [List.forall_mem_cons]
      refine ⟨.array ?_, .null, List.forall_mem_nil _⟩
      simp only [List.forall_mem_cons]
      exact ⟨.integer (by unfold IsExact; decide), .array (List.forall_mem_nil _), List.forall_mem_nil _⟩
  have writable : ∀ held ∈ [nested, .bool true], Json.Writable payloadDepth held :=
    List.forall_mem_cons.mpr ⟨deep, List.forall_mem_singleton.mpr (.bool true)⟩
  have fits : start + [nested, .bool true].length ≤ maxUnsigned64 := by decide
  obtain ⟨decoded, -, confirmed, called, ignored⟩ :=
    frames_mean_what_was_sent (Int.le_refl minSigned64) (by decide) fits writable
  refine ⟨decoded, confirmed maxUnsigned64 (Nat.le_refl _), fun client now => ?_⟩
  exact ⟨(called client now (by simp)).1, (ignored client now (by decide)).1⟩

end SequencedFeed
