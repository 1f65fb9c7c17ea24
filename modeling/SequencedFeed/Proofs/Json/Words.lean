import Mathlib.Data.List.TakeWhile
import SequencedFeed.Json.Read
set_option autoImplicit false

/-!
# Words

Numbers and literals have no closing mark of their own: a reader that takes one stops where it cannot go on. So
what it takes depends on what follows, but only on whether a word may end there.
-/

namespace SequencedFeed.Json

inductive Mark
  | openList
  | closeList
  | openObject
  | closeObject
  | comma
  | colon
deriving DecidableEq

def Mark.byte : Mark → UInt8
  | .openList => Json.byte '['
  | .closeList => Json.byte ']'
  | .openObject => Json.byte '\x7b'
  | .closeObject => Json.byte '\x7d'
  | .comma => Json.byte ','
  | .colon => Json.byte ':'

/-- Whether a word may end before these bytes: a blank, a mark or nothing at all is next. -/
def EndsWord : List UInt8 → Prop
  | [] => True
  | next :: _ => isBlank next = true ∨ ∃ mark : Mark, next = mark.byte

theorem isBlank_cases {next : UInt8} (blank : isBlank next = true) :
    next = 0x20 ∨ next = 0x0A ∨ next = 0x09 ∨ next = 0x0D := by
  simpa only [isBlank, Bool.or_eq_true, beq_iff_eq, or_assoc] using blank

theorem EndsWord.next {next : UInt8} {rest : List UInt8} (ends : EndsWord (next :: rest)) :
    isDigit next = false ∧ isExponentLetter next = false ∧ next ≠ byte '.' := by
  rcases ends with blank | ⟨mark, rfl⟩
  · rcases isBlank_cases blank with rfl | rfl | rfl | rfl <;> decide
  · cases mark <;> decide

theorem EndsWord.undigited {more : List UInt8} (ends : EndsWord more) : startsWithDigit more = false := by
  cases more with
  | nil => rfl
  | cons next rest => exact ends.next.1

section

variable {α : Type}

/-- The reader takes this piece off the front of whatever ends a word. -/
def Reader.Takes (reader : Reader α) (piece : List UInt8) (found : α) : Prop :=
  ∀ more, EndsWord more → reader (piece ++ more) = .ok (found, more)

/-- What a reader takes it takes whatever follows, as long as a word may end there. -/
def Reader.Local (reader : Reader α) : Prop :=
  ∀ {input found rest}, reader input = .ok (found, rest) →
    ∃ piece, input = piece ++ rest ∧ reader.Takes piece found

end

theorem bind_ok {ε α β : Type} {first : Except ε α} {next : α → Except ε β} {found : β} :
    (first >>= next) = .ok found ↔ ∃ value, first = .ok value ∧ next value = .ok found := by
  cases first with
  | error fault => simp [bind, Except.bind]
  | ok value => simp [bind, Except.bind]

/-! ### Digits -/

theorem spanDigits_of_digits {digits more : List UInt8} (all : ∀ next ∈ digits, isDigit next = true)
    (stops : startsWithDigit more = false) : spanDigits (digits ++ more) = (digits, more) := by
  have none : more.takeWhile isDigit = [] ∧ more.dropWhile isDigit = more := by
    cases more with
    | nil => exact ⟨rfl, rfl⟩
    | cons next rest =>
        have other : isDigit next = false := stops
        simp [other]
  rw [spanDigits, List.takeWhile_append_of_pos all, List.dropWhile_append_of_pos all, none.1, none.2,
    List.append_nil]

theorem spanDigits_eq (input : List UInt8) :
    input = (spanDigits input).1 ++ (spanDigits input).2 ∧
      (∀ next ∈ (spanDigits input).1, isDigit next = true) ∧ startsWithDigit (spanDigits input).2 = false := by
  refine ⟨List.takeWhile_append_dropWhile.symm, fun next member => List.mem_takeWhile_imp member, ?_⟩
  simp only [spanDigits]
  induction input with
  | nil => rfl
  | cons next rest ih =>
      cases digit : isDigit next with
      | true => simpa [digit] using ih
      | false => simp [digit, startsWithDigit]

/-- A run that begins with a digit goes on with the same digit, whatever comes behind its digits. -/
theorem spanDigits_head {input : List UInt8} (digit : startsWithDigit input = true) (more : List UInt8) :
    ((spanDigits input).1 ++ more).head? = input.head? ∧ startsWithDigit ((spanDigits input).1 ++ more) = true := by
  cases input with
  | nil => cases digit
  | cons next rest =>
      have isDigit : isDigit next = true := digit
      simp [spanDigits, isDigit, startsWithDigit]

/-! ### Skipping numbers -/

theorem exponentSign_eq (input : List UInt8) : ∃ sign, input = sign ++ (exponentSign input).2 ∧
    ∀ next rest, (exponentSign input).2 = next :: rest → ∀ more,
      exponentSign (sign ++ next :: more) = ((exponentSign input).1, next :: more) := by
  cases input with
  | nil => exact ⟨[], rfl, nofun⟩
  | cons first rest =>
      by_cases plus : first = byte '+'
      · refine ⟨[first], ?_, fun next _ _ more => ?_⟩ <;> simp [exponentSign, plus]
      · by_cases minus : first = byte '-'
        · have other : byte '-' ≠ byte '+' := by decide
          refine ⟨[first], ?_, fun next _ _ more => ?_⟩ <;> simp [exponentSign, minus, other]
        · refine ⟨[], ?_, fun next rest' same more => ?_⟩
          · simp [exponentSign, plus, minus]
          · simp only [exponentSign, plus, minus, if_false] at same
            obtain ⟨rfl, -⟩ := List.cons.inj same
            simp [exponentSign, plus, minus]

theorem skipExponent_local : Reader.Local skipExponent := by
  intro input found rest skipped
  obtain ⟨sign, same, again⟩ := exponentSign_eq input
  unfold skipExponent at skipped
  cases behind : (exponentSign input).2 with
  | nil => simp [behind] at skipped
  | cons next others =>
      cases digit : isDigit next with
      | false => simp [behind, digit] at skipped
      | true =>
          simp only [behind, digit, if_true, Except.ok.injEq, Prod.mk.injEq, true_and] at skipped
          obtain ⟨split, all, -⟩ := spanDigits_eq others
          refine ⟨sign ++ next :: (spanDigits others).1, ?_, fun more ends => ?_⟩
          · rw [same, behind, ← skipped, List.append_assoc, List.cons_append, ← split]
          · rw [List.append_assoc, List.cons_append, skipExponent, again next others behind]
            simp only [digit, if_true, spanDigits_of_digits all ends.undigited]

theorem skipDecimals_local : Reader.Local skipDecimals := by
  intro input found rest skipped
  obtain ⟨split, all, -⟩ := spanDigits_eq input
  generalize spanned : spanDigits input = span at split all
  obtain ⟨digits, behind⟩ := span
  by_cases none : digits = []
  · simp [skipDecimals, spanned, none] at skipped
  · have again (more : List UInt8) (stops : startsWithDigit more = false) :
        spanDigits (digits ++ more) = (digits, more) := spanDigits_of_digits all stops
    cases behind with
    | nil =>
        simp only [skipDecimals, spanned, none, if_false, Except.ok.injEq, Prod.mk.injEq, true_and] at skipped
        subst skipped
        refine ⟨digits, split, fun more ends => ?_⟩
        simp only [skipDecimals, again more ends.undigited, none, if_false]
        cases more with
        | nil => rfl
        | cons next others => simp [ends.next]
    | cons letter others =>
        cases exponent : isExponentLetter letter with
        | true =>
            simp only [skipDecimals, spanned, none, exponent, if_true, if_false] at skipped
            obtain ⟨piece, same, takes⟩ := skipExponent_local skipped
            have undigited : startsWithDigit (letter :: others) = false := by
              have stops := (spanDigits_eq input).2.2
              rw [spanned] at stops
              exact stops
            refine ⟨digits ++ letter :: piece, by rw [split, same]; simp, fun more ends => ?_⟩
            have spans := again (letter :: (piece ++ more)) undigited
            rw [List.append_assoc, List.cons_append, skipDecimals]
            simp only [spans, none, exponent, if_true, if_false]
            exact takes more ends
        | false =>
            simp only [skipDecimals, spanned, none, exponent, Bool.false_eq_true, if_false, Except.ok.injEq,
              Prod.mk.injEq, true_and] at skipped
            refine ⟨digits, by rw [split, skipped], fun more ends => ?_⟩
            simp only [skipDecimals, again more ends.undigited, none, if_false]
            cases more with
            | nil => rfl
            | cons next others => simp [ends.next]

/-- A reader that goes on behind some bytes, and otherwise finishes where it is. -/
structure Reader.Ends {α : Type} (ending finish : Reader α) (branch : UInt8 → Option (Reader α)) : Prop where
  nil : ending [] = finish []
  cons : ∀ next rest, ending (next :: rest) =
    match branch next with
    | some reader => reader rest
    | none => finish (next :: rest)
  isLocal : ∀ {next reader}, branch next = some reader → reader.Local
  finishes : ∀ {rest found after}, finish rest = .ok (found, after) →
    after = rest ∧ ∀ more, finish more = .ok (found, more)
  stops : ∀ {next rest}, EndsWord (next :: rest) → branch next = none
  digit : ∀ {next}, isDigit next = true → branch next = none

namespace Reader.Ends

variable {α : Type} {ending finish : Reader α} {branch : UInt8 → Option (Reader α)}
  (ends : ending.Ends finish branch)
include ends

theorem finish_of_endsWord {more : List UInt8} (stops : EndsWord more) : ending more = finish more := by
  cases more with
  | nil => exact ends.nil
  | cons next rest => rw [ends.cons, ends.stops stops]

theorem takes : ending.Local := by
  intro input found rest read
  cases input with
  | nil =>
      rw [ends.nil] at read
      obtain ⟨rfl, again⟩ := ends.finishes read
      exact ⟨[], rfl, fun more stops => (ends.finish_of_endsWord stops).trans (again more)⟩
  | cons next others =>
      rw [ends.cons] at read
      cases goes : branch next with
      | none =>
          rw [goes] at read
          obtain ⟨rfl, again⟩ := ends.finishes read
          exact ⟨[], rfl, fun more stops => (ends.finish_of_endsWord stops).trans (again more)⟩
      | some reader =>
          rw [goes] at read
          obtain ⟨piece, same, takes⟩ := ends.isLocal goes read
          refine ⟨next :: piece, by rw [same]; rfl, fun more stops => ?_⟩
          rw [List.cons_append, ends.cons, goes]
          exact takes more stops

theorem undigited {piece more : List UInt8} {found : α} (takes : ending.Takes piece found)
    (stops : EndsWord more) : startsWithDigit (piece ++ more) = false := by
  cases piece with
  | nil => exact stops.undigited
  | cons next others =>
      cases digit : isDigit next with
      | false => exact digit
      | true =>
          have whole := takes [] trivial
          rw [List.append_nil, ends.cons, ends.digit digit] at whole
          cases (ends.finishes whole).1

end Reader.Ends

theorem isExponentLetter_of_digit {next : UInt8} (digit : isDigit next = true) :
    isExponentLetter next = false ∧ next ≠ byte '.' := by
  refine ⟨Bool.eq_false_iff.mpr fun letter => ?_, ?_⟩
  · simp only [isExponentLetter, Bool.or_eq_true, beq_iff_eq] at letter
    rcases letter with rfl | rfl <;> exact absurd digit (by decide)
  · rintro rfl
    exact absurd digit (by decide)

/-- Where the digits before the point end, one reader takes decimal places and another an exponent. -/
def afterDigits {α : Type} (decimals exponent : Reader α) (next : UInt8) : Option (Reader α) :=
  if next = byte '.' then some decimals
  else if isExponentLetter next then some exponent
  else none

theorem afterDigits_local {α : Type} {decimals exponent reader : Reader α} (first : decimals.Local)
    (second : exponent.Local) {next : UInt8} (goes : afterDigits decimals exponent next = some reader) :
    reader.Local := by
  unfold afterDigits at goes
  split at goes
  · obtain rfl := Option.some.inj goes
    exact first
  · split at goes
    · obtain rfl := Option.some.inj goes
      exact second
    · cases goes

theorem afterDigits_none {α : Type} {decimals exponent : Reader α} {next : UInt8}
    (others : isExponentLetter next = false ∧ next ≠ byte '.') : afterDigits decimals exponent next = none := by
  simp [afterDigits, others]

theorem skipNumberEnding_ends :
    Reader.Ends skipNumberEnding (fun input => .ok ((), input)) (afterDigits skipDecimals skipExponent) where
  nil := rfl
  cons next rest := by
    unfold afterDigits skipNumberEnding
    by_cases point : next = byte '.'
    · simp [point]
    · cases letter : isExponentLetter next <;> simp [point, letter]
  isLocal goes := afterDigits_local skipDecimals_local skipExponent_local goes
  finishes read := by
    obtain ⟨-, rfl⟩ := Prod.mk.inj (Except.ok.inj read)
    exact ⟨rfl, fun _ => rfl⟩
  stops ends := afterDigits_none ends.next.2
  digit isDigit := afterDigits_none (isExponentLetter_of_digit isDigit)

theorem skipUnsigned_local : Reader.Local skipUnsigned := by
  intro input found rest skipped
  cases input with
  | nil => cases skipped
  | cons next others =>
      by_cases zero : next = byte '0'
      · subst zero
        cases more : startsWithDigit others with
        | true => simp [skipUnsigned, more] at skipped
        | false =>
            simp only [skipUnsigned, more, Bool.false_eq_true, if_true, if_false] at skipped
            obtain ⟨piece, same, takes⟩ := skipNumberEnding_ends.takes skipped
            refine ⟨byte '0' :: piece, by rw [same]; rfl, fun more ends => ?_⟩
            have stops := skipNumberEnding_ends.undigited takes ends
            rw [List.cons_append, skipUnsigned]
            simp only [stops, Bool.false_eq_true, if_true, if_false]
            exact takes more ends
      · cases digit : isDigit next with
        | false => simp [skipUnsigned, zero, digit] at skipped
        | true =>
            simp only [skipUnsigned, zero, digit, if_true, if_false] at skipped
            obtain ⟨split, all, -⟩ := spanDigits_eq others
            obtain ⟨piece, same, takes⟩ := skipNumberEnding_ends.takes skipped
            refine ⟨next :: (spanDigits others).1 ++ piece, ?_, fun more ends => ?_⟩
            · rw [List.append_assoc, ← same, List.cons_append, ← split]
            · have spans := spanDigits_of_digits all (skipNumberEnding_ends.undigited takes ends)
              rw [List.append_assoc, List.cons_append, skipUnsigned]
              simp only [zero, digit, if_true, if_false, spans]
              exact takes more ends

/-! ### Words -/

theorem literal_eq {letters input rest : List UInt8} :
    literal letters input = .ok ((), rest) ↔ input = letters ++ rest := by
  induction letters generalizing input with
  | nil => simp [literal]
  | cons letter letters ih =>
      cases input with
      | nil => simp [literal]
      | cons next others =>
          by_cases same : next = letter
          · simp [literal, same, ih]
          · simp [literal, same]

def skipWord : Reader Unit := fun input =>
  match input with
  | [] => .error (Cause.endInValue.at input)
  | next :: rest =>
      if next = byte 'n' then literal nullLetters rest
      else if next = byte 't' then literal trueLetters rest
      else if next = byte 'f' then literal falseLetters rest
      else if next = byte '-' then skipUnsigned rest
      else skipUnsigned input

theorem skipWord_local : Reader.Local skipWord := by
  intro input found rest skipped
  cases input with
  | nil => cases skipped
  | cons next others =>
      have behind {reader : Reader Unit} (isLocal : reader.Local) (read : reader others = .ok (found, rest))
          (goes : ∀ more, skipWord (next :: more) = reader more) :
          ∃ piece, next :: others = piece ++ rest ∧ Reader.Takes skipWord piece found := by
        obtain ⟨piece, same, takes⟩ := isLocal read
        refine ⟨next :: piece, by rw [same]; rfl, fun more ends => ?_⟩
        rw [List.cons_append, goes]
        exact takes more ends
      have letters (letters : List UInt8) : Reader.Local (literal letters) := by
        intro input found rest read
        exact ⟨letters, literal_eq.mp read, fun more _ => literal_eq.mpr rfl⟩
      by_cases isNull : next = byte 'n'
      · subst isNull
        exact behind (letters nullLetters) skipped fun _ => rfl
      by_cases isTrue : next = byte 't'
      · subst isTrue
        exact behind (letters trueLetters) skipped fun _ => rfl
      by_cases isFalse : next = byte 'f'
      · subst isFalse
        exact behind (letters falseLetters) skipped fun _ => rfl
      by_cases minus : next = byte '-'
      · subst minus
        exact behind skipUnsigned_local skipped fun _ => rfl
      · have goes (more : List UInt8) : skipWord (next :: more) = skipUnsigned (next :: more) := by
          simp only [skipWord, isNull, isTrue, isFalse, minus, if_false]
        rw [goes] at skipped
        obtain ⟨piece, same, takes⟩ := skipUnsigned_local skipped
        cases piece with
        | nil => cases takes [] trivial
        | cons first piece =>
            obtain ⟨rfl, rfl⟩ := List.cons.inj same
            refine ⟨next :: piece, rfl, fun more ends => ?_⟩
            rw [List.cons_append, goes]
            exact takes more ends

/-- A literal or a number, as whoever skips it takes it. -/
structure Word where
  bytes : List UInt8
  isWord : skipWord bytes = .ok ((), [])
deriving DecidableEq

/-- What a local reader takes as a whole it takes off the front. -/
theorem Reader.Local.takes {α : Type} {reader : Reader α} (isLocal : reader.Local) {bytes : List UInt8}
    {found : α} (whole : reader bytes = .ok (found, [])) : reader.Takes bytes found := by
  obtain ⟨piece, same, takes⟩ := isLocal whole
  rw [List.append_nil] at same
  exact same ▸ takes

theorem Word.takes (word : Word) : Reader.Takes skipWord word.bytes () :=
  skipWord_local.takes word.isWord

theorem exists_word {input rest : List UInt8} (skipped : skipWord input = .ok ((), rest)) :
    ∃ word : Word, input = word.bytes ++ rest := by
  obtain ⟨piece, same, takes⟩ := skipWord_local skipped
  have whole := takes [] trivial
  rw [List.append_nil] at whole
  exact ⟨⟨piece, whole⟩, same⟩

end SequencedFeed.Json
