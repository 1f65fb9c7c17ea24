import Mathlib.Tactic.SplitIfs
import SequencedFeed.Text.Utf8
set_option autoImplicit false

/-!
# UTF-8 there and back

A text that is encoded is read as the same characters, whatever stands behind it.
-/

namespace SequencedFeed.Utf8

theorem toNat_ofNat {value : Nat} (small : value < 256) : (UInt8.ofNat value).toNat = value := by
  rw [UInt8.toNat_ofNat', Nat.mod_eq_of_lt small]

theorem piecesFrom_cons (state : State) (byte : UInt8) (rest : List UInt8) :
    piecesFrom state (byte :: rest) = (step state byte).1 ++ piecesFrom (step state byte).2 rest := by
  cases state <;> rfl

section

variable {low high value part : Nat} (least : low ≤ part + 128) (most : part + 128 ≤ high) (bits : part < 64)
include least most bits

theorem piecesFrom_last (rest : List UInt8) :
    piecesFrom (.inside 0 low high value) (UInt8.ofNat (part + 128) :: rest) =
      .char (Char.ofNat (value * 64 + part)) :: piecesFrom .between rest := by
  have lowBits : (part + 128) % 64 = part := by omega
  have within : low ≤ part + 128 ∧ part + 128 ≤ high := ⟨least, most⟩
  have small : part + 128 < 256 := by omega
  rw [piecesFrom_cons, step]
  simp only [toNat_ofNat small, within, and_self, if_true, lowBits]
  rfl

theorem piecesFrom_more (more : Nat) (rest : List UInt8) :
    piecesFrom (.inside (more + 1) low high value) (UInt8.ofNat (part + 128) :: rest) =
      piecesFrom (.inside more 0x80 0xBF (value * 64 + part)) rest := by
  have lowBits : (part + 128) % 64 = part := by omega
  have within : low ≤ part + 128 ∧ part + 128 ≤ high := ⟨least, most⟩
  have small : part + 128 < 256 := by omega
  rw [piecesFrom_cons, step]
  simp only [toNat_ofNat small, within, and_self, if_true, lowBits]
  rfl

end

/-! ### First bytes -/

theorem lead_one : ∀ point < 128, lead (UInt8.ofNat point) = ([.char (Char.ofNat point)], .between) := by
  decide

theorem lead_two : ∀ part < 32, 2 ≤ part → lead (UInt8.ofNat (part + 192)) = ([], .inside 0 0x80 0xBF part) := by
  decide

theorem lead_three : ∀ part < 16, lead (UInt8.ofNat (part + 224)) =
    ([], .inside 1 (if part = 0 then 0xA0 else 0x80) (if part = 13 then 0x9F else 0xBF) part) := by
  decide

theorem lead_four : ∀ part < 5, lead (UInt8.ofNat (part + 240)) =
    ([], .inside 2 (if part = 0 then 0x90 else 0x80) (if part = 4 then 0x8F else 0xBF) part) := by
  decide

/-- The bytes of a character are read as that character. -/
theorem piecesFrom_char (scalar : Char) (rest : List UInt8) :
    piecesFrom .between (String.utf8EncodeChar scalar ++ rest) = .char scalar :: piecesFrom .between rest := by
  have valid : scalar.toNat < 0xD800 ∨ 0xDFFF < scalar.toNat ∧ scalar.toNat < 0x110000 := scalar.valid
  have whole : Char.ofNat scalar.toNat = scalar := Char.ofNat_toNat scalar
  have isPoint : scalar.val.toNat = scalar.toNat := rfl
  simp only [String.utf8EncodeChar, isPoint]
  generalize scalar.toNat = point at valid whole ⊢
  have starts (byte : UInt8) (rest : List UInt8) {next : State} (leads : lead byte = ([], next)) :
      piecesFrom .between (byte :: rest) = piecesFrom next rest := by
    rw [piecesFrom_cons, step, leads, List.nil_append]
  split_ifs with one two three
  · rw [List.singleton_append, piecesFrom_cons, step, lead_one point (by omega), whole]
    rfl
  · have value : point / 64 % 32 * 64 + point % 64 = point := by omega
    rw [List.cons_append, starts _ _ (lead_two _ (by omega) (by omega)), List.singleton_append,
      piecesFrom_last (by omega) (by omega) (by omega), value, whole]
  · have value : (point / 4096 % 16 * 64 + point / 64 % 64) * 64 + point % 64 = point := by omega
    rw [List.cons_append, starts _ _ (lead_three _ (by omega)), List.cons_append,
      piecesFrom_more (by split <;> omega) (by split <;> omega) (by omega), List.singleton_append,
      piecesFrom_last (by omega) (by omega) (by omega), value, whole]
  · have value : ((point / 262144 % 8 * 64 + point / 4096 % 64) * 64 + point / 64 % 64) * 64 + point % 64 = point := by
      omega
    rw [List.cons_append, starts _ _ (lead_four _ (by omega)), List.cons_append,
      piecesFrom_more (by split <;> omega) (by split <;> omega) (by omega), List.cons_append,
      piecesFrom_more (by omega) (by omega) (by omega), List.singleton_append,
      piecesFrom_last (by omega) (by omega) (by omega), value, whole]

theorem pieces_encode (text : List Char) : pieces (encode text) = text.map Piece.char := by
  rw [pieces]
  induction text with
  | nil => rfl
  | cons scalar text ih => rw [encode_cons, piecesFrom_char, ih, List.map_cons]

theorem decode?_encode (text : List Char) : decode? (encode text) = some text := by
  rw [decode?, pieces_encode, List.mapM_map]
  induction text with
  | nil => rfl
  | cons scalar text ih =>
      rw [List.mapM_cons, ih]
      rfl

end SequencedFeed.Utf8
