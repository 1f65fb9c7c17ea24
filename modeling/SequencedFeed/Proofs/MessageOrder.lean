import SequencedFeed.Proofs.RoundTrip
set_option autoImplicit false

/-!
# The order of messages

A decoder that compares neighbours lets nothing pass but positions that increase as a whole, and reports
the first pair that does not. It looks at them only after the whole frame was read: a frame that holds no
envelope is malformed, whatever the positions before its defect are like.
-/

namespace SequencedFeed

open Json

variable {α : Type}

/-- Two neighbours of a list that do not increase. -/
def DescendsAt (positions : List Nat) (place previous next : Nat) : Prop :=
  positions[place]? = some previous ∧ positions[place + 1]? = some next ∧ next ≤ previous

/-- The pair of neighbours that is the first not to increase. -/
def DescendsFirst (positions : List Nat) (previous next : Nat) : Prop :=
  ∃ place, DescendsAt positions place previous next ∧
    ∀ earlier < place, ∀ left right, ¬DescendsAt positions earlier left right

theorem descendsAt_cons {first : Nat} {rest : List Nat} {place previous next : Nat} :
    DescendsAt (first :: rest) (place + 1) previous next ↔ DescendsAt rest place previous next := by
  simp only [DescendsAt, List.getElem?_cons_succ]

theorem descendsAt_zero {first second : Nat} {rest : List Nat} {previous next : Nat} :
    DescendsAt (first :: second :: rest) 0 previous next ↔ first = previous ∧ second = next ∧ next ≤ previous := by
  simp only [DescendsAt, List.getElem?_cons_zero, Option.some.injEq, Nat.zero_add, List.getElem?_cons_succ]

/-- The scan for a pair that does not increase finds the first one. -/
theorem firstDescent_eq_some {positions : List Nat} {previous next : Nat} :
    firstDescent positions = some (previous, next) ↔ DescendsFirst positions previous next := by
  induction positions with
  | nil => simp [firstDescent, DescendsFirst, DescendsAt]
  | cons first rest ih =>
      cases rest with
      | nil => simp [firstDescent, DescendsFirst, DescendsAt]
      | cons second rest =>
          rw [firstDescent]
          by_cases descends : second ≤ first
          · rw [if_pos descends, Option.some.injEq, Prod.mk.injEq]
            constructor
            · rintro ⟨rfl, rfl⟩
              exact ⟨0, descendsAt_zero.mpr ⟨rfl, rfl, descends⟩, fun earlier before => absurd before (Nat.not_lt_zero _)⟩
            · rintro ⟨place, here, none⟩
              cases place with
              | zero =>
                  obtain ⟨rfl, rfl, -⟩ := descendsAt_zero.mp here
                  exact ⟨rfl, rfl⟩
              | succ place =>
                  exact absurd (descendsAt_zero.mpr ⟨rfl, rfl, descends⟩) (none 0 (Nat.succ_pos _) first second)
          · rw [if_neg descends, ih]
            constructor
            · rintro ⟨place, here, none⟩
              refine ⟨place + 1, descendsAt_cons.mpr here, fun earlier before left right => ?_⟩
              cases earlier with
              | zero =>
                  rw [descendsAt_zero]
                  rintro ⟨rfl, rfl, falls⟩
                  exact descends falls
              | succ earlier =>
                  rw [descendsAt_cons]
                  exact none earlier (Nat.lt_of_succ_lt_succ before) left right
            · rintro ⟨place, here, none⟩
              cases place with
              | zero =>
                  obtain ⟨rfl, rfl, falls⟩ := descendsAt_zero.mp here
                  exact absurd falls descends
              | succ place =>
                  refine ⟨place, descendsAt_cons.mp here, fun earlier before left right falls => ?_⟩
                  exact none (earlier + 1) (Nat.succ_lt_succ before) left right (descendsAt_cons.mpr falls)

theorem exists_descendsFirst {positions : List Nat} :
    (∃ previous next, DescendsFirst positions previous next) ↔
      ∃ place previous next, DescendsAt positions place previous next := by
  constructor
  · rintro ⟨previous, next, place, here, -⟩
    exact ⟨place, previous, next, here⟩
  · rintro ⟨place, previous, next, here⟩
    cases descent : firstDescent positions with
    | some pair => exact ⟨pair.1, pair.2, firstDescent_eq_some.mp descent⟩
    | none =>
        -- Nothing found means that all positions increase, the two of this place among them.
        obtain ⟨first, second, falls⟩ := here
        obtain ⟨inside, rfl⟩ := List.getElem?_eq_some_iff.mp first
        obtain ⟨inside', rfl⟩ := List.getElem?_eq_some_iff.mp second
        have grows := List.pairwise_iff_getElem.mp (firstDescent_eq_none.mp descent) place (place + 1) inside inside'
          (Nat.lt_succ_self place)
        exact absurd falls (Nat.not_le_of_lt grows)

theorem inOrder_eq_error {found : Envelope α} {previous next : Nat} :
    found.inOrder = .error (.outOfOrder previous next) ↔ DescendsFirst found.sequences previous next := by
  rw [Envelope.inOrder, ← firstDescent_eq_some]
  cases descent : firstDescent found.sequences with
  | none => simp
  | some pair => simp [Prod.ext_iff]

theorem inOrder_ne_malformed {found : Envelope α} {fault : Located} : found.inOrder ≠ .error (.malformed fault) := by
  rw [Envelope.inOrder]
  cases firstDescent found.sequences with
  | none => exact fun impossible => by cases impossible
  | some pair => exact fun impossible => by cases impossible

theorem decode_of_parse {payload : Payload α} {frame : List UInt8} {found : Envelope α}
    (parsed : parse (Envelope.read payload) frame = .ok found) : Envelope.decode payload frame = found.inOrder := by
  rw [Envelope.decode, parsed]

theorem decode_of_fault {payload : Payload α} {frame : List UInt8} {fault : Located}
    (parsed : parse (Envelope.read payload) frame = .error fault) :
    Envelope.decode payload frame = .error (.malformed fault) := by
  rw [Envelope.decode, parsed]

theorem decode_eq_outOfOrder {payload : Payload α} {frame : List UInt8} {previous next : Nat} :
    Envelope.decode payload frame = .error (.outOfOrder previous next) ↔
      ∃ envelope, parse (Envelope.read payload) frame = .ok envelope ∧
        DescendsFirst envelope.sequences previous next := by
  cases parsed : parse (Envelope.read payload) frame with
  | error fault => simp [decode_of_fault parsed]
  | ok found => simp [decode_of_parse parsed, inOrder_eq_error]

theorem decode_eq_ok {payload : Payload α} {frame : List UInt8} {envelope : Envelope α} :
    Envelope.decode payload frame = .ok envelope ↔
      parse (Envelope.read payload) frame = .ok envelope ∧ envelope.sequences.Pairwise (· < ·) := by
  rw [← firstDescent_eq_none]
  cases parsed : parse (Envelope.read payload) frame with
  | error fault => simp [decode_of_fault parsed]
  | ok found => simp only [decode_of_parse parsed, inOrder_eq, Except.ok.injEq]

theorem decode_eq_malformed {payload : Payload α} {frame : List UInt8} {fault : Located} :
    Envelope.decode payload frame = .error (.malformed fault) ↔ parse (Envelope.read payload) frame = .error fault := by
  cases parsed : parse (Envelope.read payload) frame with
  | error fault' => simp [decode_of_fault parsed]
  | ok found => simp [decode_of_parse parsed, inOrder_ne_malformed]

theorem firstSequence_le {envelope : Envelope α} (increasing : envelope.sequences.Pairwise (· < ·)) {first : Nat}
    (starts : envelope.firstSequence = some first) {sequence : Nat} (member : sequence ∈ envelope.sequences) :
    first ≤ sequence := by
  have head : envelope.sequences.head? = some first := by
    rw [Envelope.sequences, List.head?_map]
    exact starts
  obtain ⟨rest, same⟩ := List.head?_eq_some_iff.mp head
  rw [same] at increasing member
  rcases List.mem_cons.mp member with rfl | later
  · exact Nat.le_refl _
  · exact Nat.le_of_lt (List.rel_of_pairwise_cons increasing later)

/-- For every payload type and every frame: what is decoded is what the frame was read as, with positions that
strictly increase as a whole, so that there are no two alike and the first is the least. The order is at fault
exactly where the frame was read as an envelope, of any version, with neighbours that do not increase, and the
report has the first of them. A frame that was not read is malformed, with the same fault, wherever that is. If
the payloads are understood, the frames that are read are those that the tree of an envelope spells. -/
theorem decode_checks_order (payload : Payload α) (frame : List UInt8) :
    let reads (envelope : Envelope α) := parse (Envelope.read payload) frame = .ok envelope
    let descends (envelope : Envelope α) := ∃ place previous next, DescendsAt envelope.sequences place previous next
    (∀ envelope, Envelope.decode payload frame = .ok envelope ↔
        reads envelope ∧ envelope.sequences.Pairwise (· < ·)) ∧
      (∀ envelope, Envelope.decode payload frame = .ok envelope → envelope.sequences.Nodup ∧
        ∀ first, envelope.firstSequence = some first → ∀ sequence ∈ envelope.sequences, first ≤ sequence) ∧
      (∀ previous next, Envelope.decode payload frame = .error (.outOfOrder previous next) ↔
        ∃ envelope, reads envelope ∧ DescendsFirst envelope.sequences previous next) ∧
      ((∃ previous next, Envelope.decode payload frame = .error (.outOfOrder previous next)) ↔
        ∃ envelope, reads envelope ∧ descends envelope) ∧
      (∀ fault, Envelope.decode payload frame = .error (.malformed fault) ↔
        parse (Envelope.read payload) frame = .error fault) ∧
      ((∃ fault, Envelope.decode payload frame = .error (.malformed fault)) ↔ ∀ envelope, ¬reads envelope) ∧
      ∀ (meaning : Nat → Tree → Option α) (understands : payload.Understands meaning) (envelope : Envelope α),
        reads envelope ↔ ∃ tree : Tree, tree.Spells frame ∧ tree.envelope? understands = some envelope := by
  intro reads descends
  refine ⟨fun envelope => decode_eq_ok, fun envelope accepted => ?_, fun previous next => decode_eq_outOfOrder, ?_,
    fun fault => decode_eq_malformed, ?_,
    fun meaning understands envelope => parse_eq (Layout.reads nestingBudget (envelopeLayout understands))⟩
  · have increasing := (decode_eq_ok.mp accepted).2
    exact ⟨increasing.imp Nat.ne_of_lt, fun first starts sequence member => firstSequence_le increasing starts member⟩
  · constructor
    · rintro ⟨previous, next, refused⟩
      obtain ⟨envelope, parsed, first⟩ := decode_eq_outOfOrder.mp refused
      exact ⟨envelope, parsed, exists_descendsFirst.mp ⟨previous, next, first⟩⟩
    · rintro ⟨envelope, parsed, some⟩
      obtain ⟨previous, next, first⟩ := exists_descendsFirst.mpr some
      exact ⟨previous, next, decode_eq_outOfOrder.mpr ⟨envelope, parsed, first⟩⟩
  · simp only [decode_eq_malformed, reads]
    cases parse (Envelope.read payload) frame with
    | error fault => simp
    | ok found => simp

/-- The greatest position stands before the least one, but the frame ends before its last bracket. -/
example : Envelope.decode Payload.unsigned (Utf8.ofString "\x7b\"messages\":[[18446744073709551615,1],[0,2]]") =
    .error (.malformed ⟨.endInObject, 1, 44⟩) := by
  decide +kernel

end SequencedFeed
