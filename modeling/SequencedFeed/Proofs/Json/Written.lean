import Mathlib.Tactic.IntervalCases
import SequencedFeed.Json.Text
import SequencedFeed.Proofs.Json.Collections
import SequencedFeed.Proofs.Json.Exact
import SequencedFeed.Proofs.Utf8
set_option autoImplicit false

/-!
# Written values

The text of a value is the shortest one of a tree, and as long as its numbers are integers of 64 bits and its
nesting is within the budget, that tree stands for the value again.
-/

namespace SequencedFeed.Json

theorem encode_ascii {scalar : Char} (ascii : scalar.toNat < 128) : String.utf8EncodeChar scalar = [byte scalar] := by
  have small : scalar.val.toNat ≤ 127 := by
    change scalar.toNat ≤ 127
    omega
  simp only [String.utf8EncodeChar, small, if_true]
  rfl

/-! ### Digits -/

section

variable {digit : Char} (isDigitChar : digit.isDigit = true)
include isDigitChar

theorem digit_range : 48 ≤ digit.toNat ∧ digit.toNat ≤ 57 := by
  simpa [Char.isDigit, UInt32.le_iff_toNat_le] using isDigitChar

theorem encode_digit : String.utf8EncodeChar digit = [byte digit] := by
  have range := digit_range isDigitChar
  exact encode_ascii (by omega)

theorem isDigit_byte : isDigit (byte digit) = true := by
  have range := digit_range isDigitChar
  have value : (byte digit).toNat = digit.toNat := Utf8.toNat_ofNat (by omega)
  simp only [isDigit, UInt8.le_iff_toNat_le, value, Bool.and_eq_true, decide_eq_true_eq]
  exact range

theorem digitValue_byte : digitValue (byte digit) = digit.toNat - 48 := by
  have range := digit_range isDigitChar
  have value : (byte digit).toNat = digit.toNat := Utf8.toNat_ofNat (by omega)
  rw [digitValue, value]

end

theorem encode_digits {digits : List Char} (all : ∀ digit ∈ digits, digit.isDigit = true) :
    Utf8.encode digits = digits.map byte := by
  induction digits with
  | nil => rfl
  | cons digit digits ih =>
      rw [Utf8.encode_cons, encode_digit (all digit List.mem_cons_self),
        ih fun other member => all other (List.mem_cons_of_mem digit member)]
      rfl

theorem isDigit_map_byte {digits : List Char} (all : ∀ digit ∈ digits, digit.isDigit = true) :
    ∀ next ∈ digits.map byte, isDigit next = true := by
  intro next member
  obtain ⟨digit, isDigitChar, rfl⟩ := List.mem_map.mp member
  exact isDigit_byte (all digit isDigitChar)

theorem ofDigitChars_ge (digits : List Char) (start : Nat) : start ≤ Nat.ofDigitChars 10 digits start := by
  induction digits generalizing start with
  | nil => exact Nat.le_refl start
  | cons digit digits ih =>
      rw [Nat.ofDigitChars_cons]
      have later := ih (10 * start + (digit.toNat - '0'.toNat))
      omega

theorem gatherDigits_map_byte {digits : List Char} (all : ∀ digit ∈ digits, digit.isDigit = true) {start : Nat}
    (fits : Nat.ofDigitChars 10 digits start ≤ maxUnsigned64) :
    gatherDigits start (digits.map byte) = (Nat.ofDigitChars 10 digits start, digits.length, []) := by
  induction digits generalizing start with
  | nil => rfl
  | cons digit digits ih =>
      have isDigitChar := all digit List.mem_cons_self
      have grown : start * 10 + digitValue (byte digit) = 10 * start + (digit.toNat - '0'.toNat) := by
        rw [digitValue_byte isDigitChar, Nat.mul_comm]
        rfl
      rw [Nat.ofDigitChars_cons] at fits ⊢
      have inside := ofDigitChars_ge digits (10 * start + (digit.toNat - '0'.toNat))
      have small : ¬maxUnsigned64 < 10 * start + (digit.toNat - '0'.toNat) := by omega
      have rest := ih (fun other member => all other (List.mem_cons_of_mem digit member)) fits
      simp only [List.map_cons, gatherDigits, isDigit_byte isDigitChar, grown, small, if_true, if_false, rest,
        List.length_cons]

theorem toDigits_cons {value : Nat} (positive : 0 < value) :
    ∃ first others, Nat.toDigits 10 value = first :: others ∧ first ≠ '0' := by
  induction value using Nat.strongRecOn with
  | ind value ih =>
      by_cases small : value < 10
      · refine ⟨value.digitChar, [], Nat.toDigits_of_lt_base small, fun zero => ?_⟩
        have code := Nat.toNat_digitChar_of_lt_ten small
        rw [zero] at code
        have zeroCode : '0'.toNat = 48 := rfl
        omega
      · obtain ⟨first, others, digits, nonzero⟩ := ih (value / 10) (by omega) (by omega)
        refine ⟨first, others ++ [(value % 10).digitChar], ?_, nonzero⟩
        rw [Nat.toDigits_of_base_le (by decide) (by omega), digits, List.cons_append]

theorem isDigit_toDigits (value : Nat) : ∀ digit ∈ Nat.toDigits 10 value, digit.isDigit = true :=
  fun _ member => Nat.isDigit_of_mem_toDigits (by decide) (by decide) member

def digitBytes (value : Nat) : List UInt8 :=
  (Nat.toDigits 10 value).map byte

theorem byte_injective_digit {digit : Char} (isDigitChar : digit.isDigit = true) (nonzero : digit ≠ '0') :
    byte digit ≠ byte '0' := by
  have range := digit_range isDigitChar
  intro same
  apply nonzero
  have value : (byte digit).toNat = digit.toNat := Utf8.toNat_ofNat (by omega)
  rw [same] at value
  have zero : (byte '0').toNat = '0'.toNat := rfl
  rw [zero] at value
  exact (Char.toNat_inj.mp value).symm

theorem skipUnsigned_digitBytes (value : Nat) : skipUnsigned (digitBytes value) = .ok ((), []) := by
  by_cases positive : 0 < value
  · obtain ⟨first, others, digits, nonzero⟩ := toDigits_cons positive
    have all := isDigit_toDigits value
    rw [digits] at all
    have isFirst := all first List.mem_cons_self
    have rest := isDigit_map_byte fun digit member => all digit (List.mem_cons_of_mem first member)
    have spans := spanDigits_of_digits rest (rfl : startsWithDigit [] = false)
    rw [List.append_nil] at spans
    simp only [digitBytes, digits, List.map_cons, skipUnsigned, byte_injective_digit isFirst nonzero,
      isDigit_byte isFirst, if_true, if_false, spans]
    rfl
  · obtain rfl : value = 0 := by omega
    rfl

theorem unsignedNumber_digitBytes (positive : Bool) {value : Nat} (fits : value ≤ maxUnsigned64) :
    unsignedNumber positive (digitBytes value) = finishInteger positive value [] := by
  by_cases nonzero : 0 < value
  · obtain ⟨first, others, digits, notZero⟩ := toDigits_cons nonzero
    have all := isDigit_toDigits value
    have whole : Nat.ofDigitChars 10 (Nat.toDigits 10 value) 0 = value := Nat.ofDigitChars_toDigits (by decide) (by decide)
    rw [digits] at all whole
    have isFirst := all first List.mem_cons_self
    have start : digitValue (byte first) = 10 * 0 + (first.toNat - '0'.toNat) := by
      rw [digitValue_byte isFirst, Nat.mul_zero, Nat.zero_add]
      rfl
    rw [Nat.ofDigitChars_cons, ← start] at whole
    have gathers := gatherDigits_map_byte (fun digit member => all digit (List.mem_cons_of_mem first member))
      (whole.le.trans fits)
    rw [whole] at gathers
    simp only [digitBytes, digits, List.map_cons, unsignedNumber, byte_injective_digit isFirst notZero,
      isDigit_byte isFirst, if_true, if_false, gathers]
    rfl
  · obtain rfl : value = 0 := by omega
    rfl

/-! ### Integers -/

def integerBytes (value : Int) : List UInt8 :=
  if value < 0 then byte '-' :: digitBytes value.natAbs else digitBytes value.natAbs

theorem encode_integerText (value : Int) : Utf8.encode (integerText value) = integerBytes value := by
  unfold integerText integerBytes
  split
  · rw [Utf8.encode_cons, encode_digits (isDigit_toDigits _)]
    rfl
  · rw [encode_digits (isDigit_toDigits _)]
    rfl

def Word.ofInteger (value : Int) : Word where
  bytes := integerBytes value
  isWord := by
    unfold integerBytes
    split
    · exact skipUnsigned_digitBytes value.natAbs
    · exact skipWord_of_unsigned (skipUnsigned_digitBytes value.natAbs)

theorem Word.number?_ofInteger {value : Int} (exact : IsExact value) :
    (Word.ofInteger value).number? = some (.integer value) := by
  have numbers : numberToken (integerBytes value) = .ok (.integer value, []) := by
    obtain ⟨least, most⟩ := exact
    unfold integerBytes
    have lower : minSigned64 = -9223372036854775808 := rfl
    have upper : maxUnsigned64 = 18446744073709551615 := rfl
    by_cases negative : value < 0
    · have fits : value.natAbs ≤ maxUnsigned64 := by omega
      have size : (1 <<< 63 : Nat) = 9223372036854775808 := rfl
      have inexact : ¬(value.natAbs = 0 ∨ 1 <<< 63 < value.natAbs) := by omega
      have whole : -(value.natAbs : Int) = value := by omega
      rw [if_pos negative]
      change unsignedNumber false (digitBytes value.natAbs) = _
      rw [unsignedNumber_digitBytes false fits]
      simp only [finishInteger, Bool.false_eq_true, if_false, if_neg inexact, whole]
    · have fits : value.natAbs ≤ maxUnsigned64 := by omega
      have whole : (value.natAbs : Int) = value := by omega
      have skipped := skipUnsigned_digitBytes value.natAbs
      have read := unsignedNumber_digitBytes true fits
      simp only [finishInteger, if_true, whole] at read
      rw [if_neg negative]
      cases bytes : digitBytes value.natAbs with
      | nil =>
          rw [bytes] at skipped
          cases skipped
      | cons next rest =>
          rw [bytes] at read skipped
          have minus : next ≠ byte '-' := by
            rintro rfl
            cases skipped
          simp only [numberToken, minus, if_false]
          exact read
  simp only [number?, Word.ofInteger, numbers]

theorem Word.bytes_ofInteger (value : Int) : (Tree.word (.ofInteger value)).bytes = Utf8.encode (integerText value) := by
  rw [encode_integerText]
  exact List.append_nil (integerBytes value)

/-! ### Strings -/

theorem StandsFor.append {bytes rest out : List UInt8} (plain : ∀ next ∈ bytes, isPlain next = true)
    (stands : StandsFor rest out) : StandsFor (bytes ++ rest) (bytes ++ out) := by
  induction bytes with
  | nil => exact stands
  | cons next bytes ih =>
      apply StandsFor.plain (plain next List.mem_cons_self)
      exact ih fun other member => plain other (List.mem_cons_of_mem next member)

theorem isPlain_ofNat {value : Nat} (least : 0x20 ≤ value) (most : value < 256) (quote : value ≠ 0x22)
    (slash : value ≠ 0x5C) : isPlain (UInt8.ofNat value) = true := by
  have same : (UInt8.ofNat value).toNat = value := Utf8.toNat_ofNat most
  have differs (other : UInt8) (different : value ≠ other.toNat) : UInt8.ofNat value ≠ other := by
    intro equal
    rw [equal] at same
    exact different same.symm
  have noQuote : UInt8.ofNat value ≠ byte '"' := differs _ quote
  have noSlash : UInt8.ofNat value ≠ byte '\\' := differs _ slash
  simp only [isPlain, UInt8.le_iff_toNat_le, same, bne_iff_ne, ne_eq, noQuote, noSlash, not_false_eq_true,
    decide_eq_true_eq, Bool.and_eq_true, and_true]
  exact least

theorem isPlain_encodeChar {scalar : Char} (quote : scalar ≠ '"') (slash : scalar ≠ '\\')
    (printable : 32 ≤ scalar.toNat) : ∀ next ∈ String.utf8EncodeChar scalar, isPlain next = true := by
  have isPoint : scalar.val.toNat = scalar.toNat := rfl
  have noQuote : scalar.toNat ≠ 0x22 := fun same => quote (Char.toNat_inj.mp same)
  have noSlash : scalar.toNat ≠ 0x5C := fun same => slash (Char.toNat_inj.mp same)
  simp only [String.utf8EncodeChar, isPoint]
  split_ifs
  all_goals
    intro next member
    simp only [List.mem_cons, List.not_mem_nil, or_false] at member
  · subst member
    apply isPlain_ofNat <;> omega
  · rcases member with rfl | rfl <;> apply isPlain_ofNat <;> omega
  · rcases member with rfl | rfl | rfl <;> apply isPlain_ofNat <;> omega
  · rcases member with rfl | rfl | rfl | rfl <;> apply isPlain_ofNat <;> omega

theorem encode_hexPair {point : Nat} (control : point < 32) : Utf8.encode (hexPair point) = (hexPair point).map byte := by
  interval_cases point <;> rfl

theorem escape_hexPair {point : Nat} (control : point < 32) (more : List UInt8) :
    escape ((byte 'u' :: byte '0' :: byte '0' :: (hexPair point).map byte) ++ more) = .ok (Char.ofNat point, more) := by
  interval_cases point <;> rfl

theorem standsFor_escapeText (scalar : Char) {rest out : List UInt8} (stands : StandsFor rest out) :
    StandsFor (Utf8.encode (escapeText scalar) ++ rest) (String.utf8EncodeChar scalar ++ out) := by
  have letter {escaped : UInt8} {other : Char} (same : scalar = other)
      (reads : ∀ more, escape ([escaped] ++ more) = .ok (other, more)) :
      StandsFor ([byte '\\', escaped] ++ rest) (String.utf8EncodeChar scalar ++ out) :=
    StandsFor.escape (same ▸ reads) stands
  unfold escapeText
  by_cases quote : scalar = '"'
  · rw [if_pos quote]
    exact letter quote fun _ => rfl
  rw [if_neg quote]
  by_cases slash : scalar = '\\'
  · rw [if_pos slash]
    exact letter slash fun _ => rfl
  rw [if_neg slash]
  by_cases back : scalar.toNat = 8
  · rw [if_pos back]
    exact letter (Char.toNat_inj.mp back : scalar = '\x08') fun _ => rfl
  rw [if_neg back]
  by_cases tab : scalar.toNat = 9
  · rw [if_pos tab]
    exact letter (Char.toNat_inj.mp tab : scalar = '\t') fun _ => rfl
  rw [if_neg tab]
  by_cases line : scalar.toNat = 10
  · rw [if_pos line]
    exact letter (Char.toNat_inj.mp line : scalar = '\n') fun _ => rfl
  rw [if_neg line]
  by_cases form : scalar.toNat = 12
  · rw [if_pos form]
    exact letter (Char.toNat_inj.mp form : scalar = '\x0c') fun _ => rfl
  rw [if_neg form]
  by_cases carriage : scalar.toNat = 13
  · rw [if_pos carriage]
    exact letter (Char.toNat_inj.mp carriage : scalar = '\r') fun _ => rfl
  rw [if_neg carriage]
  by_cases control : scalar.toNat < 32
  · have reads (more : List UInt8) := escape_hexPair control more
    rw [Char.ofNat_toNat] at reads
    rw [if_pos control, Utf8.encode_append, encode_hexPair control]
    exact StandsFor.escape reads stands
  · rw [if_neg control, Utf8.encode_cons, Utf8.encode_nil, List.append_nil]
    exact stands.append (isPlain_encodeChar quote slash (by omega))

theorem standsFor_text (text : List Char) : StandsFor (Utf8.encode (text.flatMap escapeText)) (Utf8.encode text) := by
  induction text with
  | nil => exact StandsFor.nil
  | cons scalar text ih =>
      rw [List.flatMap_cons, Utf8.encode_append, Utf8.encode_cons]
      exact standsFor_escapeText scalar ih

def Spelling.ofText (text : String) : Spelling where
  bytes := Utf8.encode (text.toList.flatMap escapeText)
  isSpelled := (standsFor_text text.toList).closed.isSkipped []

theorem Spelling.text?_ofText (text : String) : (Spelling.ofText text).text? = some text := by
  have token : stringToken ((Spelling.ofText text).bytes ++ [byte '"']) = .ok (text, []) := by
    refine stringToken_eq.mpr ⟨_, _, standsFor_text text.toList, rfl, ?_⟩
    rw [Utf8.decode?_encode, Option.map_some, String.ofList_toList]
  simp only [text?, token]

theorem encode_stringText (text : String) : Utf8.encode (stringText text) = (Token.text (.ofText text)).bytes := by
  rw [stringText, List.cons_append, Utf8.encode_cons, Utf8.encode_append]
  rfl

/-! ### Lists and objects -/

theorem itemTexts_eq (items : List Json) : itemTexts items = items.map text := by
  induction items with
  | nil => rfl
  | cons item items ih => rw [itemTexts, ih, List.map_cons]

theorem memberTexts_eq (members : List (String × Json)) :
    memberTexts members = members.map fun member => memberText member.1 (text member.2) := by
  induction members with
  | nil => rfl
  | cons member members ih => rw [memberTexts, ih, List.map_cons]

theorem commaSeparated_cons (first : List Char) (others : List (List Char)) :
    commaSeparated (first :: others) = first ++ others.flatMap fun other => ',' :: other := by
  induction others generalizing first with
  | nil => simp [commaSeparated]
  | cons next others ih => simp [commaSeparated, ih]

theorem encode_arrayText (items : List (List Char)) :
    Utf8.encode (arrayText items) = byte '[' :: (Utf8.encode (commaSeparated items) ++ [byte ']']) := by
  rw [arrayText, List.cons_append, Utf8.encode_cons, Utf8.encode_append]
  rfl

theorem encode_objectText (members : List (List Char)) :
    Utf8.encode (objectText members) = byte '\x7b' :: (Utf8.encode (commaSeparated members) ++ [byte '\x7d']) := by
  rw [objectText, List.cons_append, Utf8.encode_cons, Utf8.encode_append]
  rfl

def memberBytes (member : Spelling × Tree) : List UInt8 :=
  (Token.text member.1).bytes ++ byte ':' :: member.2.bytes

theorem encode_memberText {key : String} {tree : Tree} {written : List Char} (same : tree.bytes = Utf8.encode written) :
    memberBytes (.ofText key, tree) = Utf8.encode (memberText key written) := by
  rw [memberText, Utf8.encode_append, Utf8.encode_cons, encode_stringText, ← same]
  rfl

/-- Entries of a list or an object, and the texts they are written as. -/
abbrev WrittenAs {τ : Type} (bytes : τ → List UInt8) : List τ → List (List Char) → Prop :=
  List.Forall₂ fun entry text => bytes entry = Utf8.encode text

theorem bytes_list {trees : List Tree} {texts : List (List Char)} (written : WrittenAs Tree.bytes trees texts) :
    (Tree.list trees).bytes = Utf8.encode (arrayText texts) := by
  have more {trees : List Tree} {texts : List (List Char)} (written : WrittenAs Tree.bytes trees texts) :
      (itemTokens false trees).flatMap Token.bytes = Utf8.encode (texts.flatMap fun text => ',' :: text) := by
    induction written with
    | nil => rfl
    | cons same _ ih =>
        rw [itemTokens, List.flatMap_append, List.flatMap_append, ih, List.flatMap_cons, List.cons_append,
          Utf8.encode_cons, Utf8.encode_append, ← same]
        rfl
  cases written with
  | nil => rfl
  | cons same others =>
      rw [encode_arrayText, commaSeparated_cons, Utf8.encode_append, ← more others, ← same]
      simp [Tree.bytes, Tree.tokens, itemTokens, separator, Token.bytes, Mark.byte]

theorem bytes_object {members : List (Spelling × Tree)} {texts : List (List Char)}
    (written : WrittenAs memberBytes members texts) : (Tree.object members).bytes = Utf8.encode (objectText texts) := by
  have more {members : List (Spelling × Tree)} {texts : List (List Char)} (written : WrittenAs memberBytes members texts) :
      (memberTokens false members).flatMap Token.bytes = Utf8.encode (texts.flatMap fun text => ',' :: text) := by
    induction written with
    | nil => rfl
    | cons same _ ih =>
        rw [List.flatMap_cons, List.cons_append, Utf8.encode_cons, Utf8.encode_append, ← ih, ← same]
        simp [memberTokens, memberBytes, separator, Tree.bytes, Token.bytes, Mark.byte]
        rfl
  cases written with
  | nil => rfl
  | cons same others =>
      rw [encode_objectText, commaSeparated_cons, Utf8.encode_append, ← more others, ← same]
      simp [Tree.bytes, Tree.tokens, memberTokens, memberBytes, separator, Token.bytes, Mark.byte]

end SequencedFeed.Json
