import SequencedFeed.Proofs.Json.Words
set_option autoImplicit false

/-!
# Numbers

Whoever understands a number gathers its digits only as far as they fit, and drops the others. It takes as much
of the text as whoever only skips the number, so a word either stands for one number or for none.
-/

namespace SequencedFeed.Json

/-! ### Understanding numbers -/

theorem gatherDigits_undigited (significand : Nat) {input : List UInt8} (undigited : startsWithDigit input = false) :
    gatherDigits significand input = (significand, 0, input) := by
  cases input with
  | nil => rfl
  | cons next rest =>
      have other : isDigit next = false := undigited
      simp [gatherDigits, other]

/-- Gathering goes past these digits, and would again, whatever follows that does not go on with a digit or goes on
with the one that did not fit. -/
def GathersDigits (significand : Nat) (input digits : List UInt8) : Prop :=
  input = digits ++ (gatherDigits significand input).2.2 ∧ (∀ next ∈ digits, isDigit next = true) ∧
    ∀ more, startsWithDigit more = false ∨ more.head? = (gatherDigits significand input).2.2.head? →
      gatherDigits significand (digits ++ more) =
        ((gatherDigits significand input).1, (gatherDigits significand input).2.1, more)

theorem gathersDigits_nil {significand : Nat} {input : List UInt8}
    (stays : ∀ more, more.head? = input.head? → gatherDigits significand more = (significand, 0, more)) :
    GathersDigits significand input [] := by
  rw [GathersDigits, stays input rfl]
  refine ⟨rfl, List.forall_mem_nil _, fun more stops => ?_⟩
  rcases stops with undigited | same
  · exact gatherDigits_undigited significand undigited
  · exact stays more same

theorem gatherDigits_eq (significand : Nat) (input : List UInt8) : ∃ digits, GathersDigits significand input digits := by
  induction input generalizing significand with
  | nil =>
      refine ⟨[], gathersDigits_nil fun more same => ?_⟩
      rw [List.head?_eq_none_iff.mp same]
      rfl
  | cons next rest ih =>
      have starting {more : List UInt8} (same : more.head? = (next :: rest).head?) : ∃ others, more = next :: others := by
        cases more with
        | nil => cases same
        | cons first others => exact ⟨others, by rw [Option.some.inj same]⟩
      cases digit : isDigit next with
      | false =>
          refine ⟨[], gathersDigits_nil fun more same => ?_⟩
          obtain ⟨others, rfl⟩ := starting same
          exact gatherDigits_undigited significand digit
      | true =>
          by_cases large : maxUnsigned64 < significand * 10 + digitValue next
          · refine ⟨[], gathersDigits_nil fun more same => ?_⟩
            obtain ⟨others, rfl⟩ := starting same
            simp [gatherDigits, digit, large]
          · obtain ⟨digits, same, all, again⟩ := ih (significand * 10 + digitValue next)
            refine ⟨next :: digits, ?_, ?_, fun more stops => ?_⟩
            · simp only [gatherDigits, digit, large, if_true, if_false]
              exact congrArg (next :: ·) same
            · exact List.forall_mem_cons.mpr ⟨digit, all⟩
            · simp only [gatherDigits, digit, large, if_true, if_false] at stops ⊢
              simp only [List.cons_append, gatherDigits, digit, large, if_true, if_false]
              rw [again more stops]

theorem gatherExponent_undigited (exponent : Nat) {input : List UInt8} (undigited : startsWithDigit input = false) :
    gatherExponent exponent input = (some exponent, input) := by
  cases input with
  | nil => rfl
  | cons next rest =>
      have other : isDigit next = false := undigited
      simp [gatherExponent, other]

/-- An exponent that is gathered ends where its digits end; one that is too large ends anywhere. -/
theorem gatherExponent_eq (exponent : Nat) (input : List UInt8) :
    ∃ digits, input = digits ++ (gatherExponent exponent input).2 ∧
      (∀ next ∈ digits, isDigit next = true) ∧
      ∀ more, startsWithDigit more = false ∨ (gatherExponent exponent input).1 = none →
        gatherExponent exponent (digits ++ more) = ((gatherExponent exponent input).1, more) := by
  induction input generalizing exponent with
  | nil =>
      refine ⟨[], rfl, List.forall_mem_nil _, fun more stops => ?_⟩
      rcases stops with undigited | none
      · exact gatherExponent_undigited exponent undigited
      · cases none
  | cons next rest ih =>
      cases digit : isDigit next with
      | false =>
          have stay : gatherExponent exponent (next :: rest) = (some exponent, next :: rest) :=
            gatherExponent_undigited exponent digit
          rw [stay]
          refine ⟨[], rfl, List.forall_mem_nil _, fun more stops => ?_⟩
          rcases stops with undigited | none
          · exact gatherExponent_undigited exponent undigited
          · cases none
      | true =>
          by_cases large : maxExponent < exponent * 10 + digitValue next
          · have past (more : List UInt8) : gatherExponent exponent (next :: more) = (none, more) := by
              simp [gatherExponent, digit, large]
            rw [past]
            exact ⟨[next], rfl, List.forall_mem_singleton.mpr digit, fun more _ => past more⟩
          · have on (more : List UInt8) : gatherExponent exponent (next :: more) =
                gatherExponent (exponent * 10 + digitValue next) more := by
              simp [gatherExponent, digit, large]
            obtain ⟨digits, same, all, again⟩ := ih (exponent * 10 + digitValue next)
            rw [on]
            refine ⟨next :: digits, congrArg (next :: ·) same, List.forall_mem_cons.mpr ⟨digit, all⟩, ?_⟩
            intro more stops
            rw [List.cons_append, on]
            exact again more stops

section

variable (positive : Bool) (significand : Nat)

theorem finishReal_finishes {exponent : Int} {rest after : List UInt8} {found : Number}
    (read : finishReal positive significand exponent rest = .ok (found, after)) :
    after = rest ∧ ∀ more, finishReal positive significand exponent more = .ok (found, more) := by
  unfold finishReal at read ⊢
  cases value : Binary64.ofDecimal significand exponent with
  | none => simp [value] at read
  | some value =>
      simp only [value, Except.ok.injEq, Prod.mk.injEq] at read ⊢
      exact ⟨read.2.symm, fun more => ⟨read.1, trivial⟩⟩

theorem finishInteger_finishes {rest after : List UInt8} {found : Number}
    (read : finishInteger positive significand rest = .ok (found, after)) :
    after = rest ∧ ∀ more, finishInteger positive significand more = .ok (found, more) := by
  cases positive with
  | true =>
      obtain ⟨rfl, rfl⟩ := Prod.mk.inj (Except.ok.inj read)
      exact ⟨rfl, fun _ => rfl⟩
  | false =>
      by_cases inexact : significand = 0 ∨ 1 <<< 63 < significand
      · simp only [finishInteger, Bool.false_eq_true, if_false, if_pos inexact] at read ⊢
        exact finishReal_finishes false significand read
      · simp only [finishInteger, Bool.false_eq_true, if_false, if_neg inexact] at read ⊢
        obtain ⟨rfl, rfl⟩ := Prod.mk.inj (Except.ok.inj read)
        exact ⟨rfl, fun _ => rfl⟩

theorem exponentPart_local (start : Int) : Reader.Local (exponentPart positive significand start) := by
  intro input found rest read
  obtain ⟨sign, same, again⟩ := exponentSign_eq input
  unfold exponentPart at read
  cases behind : (exponentSign input).2 with
  | nil => simp [behind] at read
  | cons next others =>
      cases digit : isDigit next with
      | false => simp [behind, digit] at read
      | true =>
          obtain ⟨digits, split, -, gathers⟩ := gatherExponent_eq (digitValue next) others
          have starts (more : List UInt8) : exponentSign (sign ++ next :: more) =
              ((exponentSign input).1, next :: more) := again next others behind more
          generalize gathered : gatherExponent (digitValue next) others = result at split gathers
          obtain ⟨exponent, after⟩ := result
          simp only [behind, digit, if_true, gathered] at read
          cases exponent with
          | some exponent =>
              obtain ⟨rfl, finishes⟩ := finishReal_finishes positive significand read
              refine ⟨sign ++ next :: digits, by rw [same, behind, split]; simp, fun more ends => ?_⟩
              rw [List.append_assoc, List.cons_append, exponentPart]
              simp only [starts, digit, if_true, gathers more (.inl ends.undigited)]
              exact finishes more
          | none =>
              by_cases exceeds : significand ≠ 0 ∧ (exponentSign input).1 = true
              · simp [exceeds] at read
              · simp only [exceeds, if_false] at read
                obtain ⟨rfl, finishes⟩ := finishReal_finishes positive 0 read
                obtain ⟨tail, all, -⟩ := spanDigits_eq after
                refine ⟨sign ++ next :: digits ++ (spanDigits after).1, ?_, fun more ends => ?_⟩
                · rw [same, behind, split]
                  simp [← tail]
                · have gathers := gathers ((spanDigits after).1 ++ more) (.inr rfl)
                  have spans := spanDigits_of_digits all ends.undigited
                  rw [List.append_assoc, List.append_assoc, List.cons_append, exponentPart]
                  simp only [starts, digit, if_true, gathers, exceeds, if_false, spans]
                  exact finishes more

theorem realEnding_ends (exponent : Int) :
    Reader.Ends (realEnding positive significand exponent) (finishReal positive significand exponent)
      (fun next => if isExponentLetter next then some (exponentPart positive significand exponent) else none) where
  nil := rfl
  cons next rest := by
    cases letter : isExponentLetter next <;> simp [realEnding, letter]
  isLocal {next} _ goes := by
    cases letter : isExponentLetter next with
    | false => simp [letter] at goes
    | true =>
        simp only [letter, if_true, Option.some.injEq] at goes
        exact goes ▸ exponentPart_local positive significand exponent
  finishes read := finishReal_finishes positive significand read
  stops ends := by simp [ends.next]
  digit isDigit := by simp [isExponentLetter_of_digit isDigit]

theorem decimalPart_local (start : Int) : Reader.Local (decimalPart positive significand start) := by
  intro input found rest read
  obtain ⟨digits, same, all, again⟩ := gatherDigits_eq significand input
  generalize gathered : gatherDigits significand input = result at same again
  obtain ⟨final, count, behind⟩ := result
  unfold decimalPart at read
  cases more : startsWithDigit behind with
  | true =>
      -- a digit that did not fit: it and those after it are dropped
      simp only [gathered, more, if_true] at read
      obtain ⟨split, dropped, -⟩ := spanDigits_eq behind
      obtain ⟨piece, tail, takes⟩ := (realEnding_ends positive final (start - count)).takes read
      refine ⟨digits ++ ((spanDigits behind).1 ++ piece), ?_, fun others ends => ?_⟩
      · rw [List.append_assoc, List.append_assoc, ← tail, ← split]
        exact same
      · obtain ⟨head, starts⟩ := spanDigits_head more (piece ++ others)
        have stops := (realEnding_ends positive final (start - count)).undigited takes ends
        have gathers := again ((spanDigits behind).1 ++ (piece ++ others)) (.inr head)
        have spans := spanDigits_of_digits dropped stops
        rw [List.append_assoc, List.append_assoc, decimalPart]
        simp only [gathers, starts, if_true, spans]
        exact takes others ends
  | false =>
      by_cases none : count = 0
      · subst none
        cases behind <;> simp [gathered, more] at read
      · simp only [gathered, more, none, Bool.false_eq_true, if_false] at read
        obtain ⟨piece, tail, takes⟩ := (realEnding_ends positive final (start - count)).takes read
        refine ⟨digits ++ piece, by rw [List.append_assoc, ← tail]; exact same, fun others ends => ?_⟩
        have stops := (realEnding_ends positive final (start - count)).undigited takes ends
        rw [List.append_assoc, decimalPart]
        simp only [again _ (.inl stops), stops, none, Bool.false_eq_true, if_false]
        exact takes others ends

theorem longEnding_ends (exponent : Int) :
    Reader.Ends (longEnding positive significand exponent) (finishReal positive significand exponent)
      (afterDigits (decimalPart positive significand exponent) (exponentPart positive significand exponent)) where
  nil := rfl
  cons next rest := by
    unfold afterDigits longEnding
    by_cases point : next = byte '.'
    · simp [point]
    · cases letter : isExponentLetter next <;> simp [point, letter]
  isLocal goes := afterDigits_local (decimalPart_local positive significand exponent)
    (exponentPart_local positive significand exponent) goes
  finishes read := finishReal_finishes positive significand read
  stops ends := afterDigits_none ends.next.2
  digit isDigit := afterDigits_none (isExponentLetter_of_digit isDigit)

theorem integerEnding_ends :
    Reader.Ends (integerEnding positive significand) (finishInteger positive significand)
      (afterDigits (decimalPart positive significand 0) (exponentPart positive significand 0)) where
  nil := rfl
  cons next rest := by
    unfold afterDigits integerEnding
    by_cases point : next = byte '.'
    · simp [point]
    · cases letter : isExponentLetter next <;> simp [point, letter]
  isLocal goes := afterDigits_local (decimalPart_local positive significand 0)
    (exponentPart_local positive significand 0) goes
  finishes read := finishInteger_finishes positive significand read
  stops ends := afterDigits_none ends.next.2
  digit isDigit := afterDigits_none (isExponentLetter_of_digit isDigit)

theorem unsignedNumber_local : Reader.Local (unsignedNumber positive) := by
  intro input found rest read
  cases input with
  | nil => cases read
  | cons next others =>
      by_cases zero : next = byte '0'
      · subst zero
        cases more : startsWithDigit others with
        | true => simp [unsignedNumber, more] at read
        | false =>
            simp only [unsignedNumber, more, Bool.false_eq_true, if_true, if_false] at read
            obtain ⟨piece, same, takes⟩ := (integerEnding_ends positive 0).takes read
            refine ⟨byte '0' :: piece, by rw [same]; rfl, fun more ends => ?_⟩
            have stops := (integerEnding_ends positive 0).undigited takes ends
            rw [List.cons_append, unsignedNumber]
            simp only [stops, Bool.false_eq_true, if_true, if_false]
            exact takes more ends
      · cases digit : isDigit next with
        | false => simp [unsignedNumber, zero, digit] at read
        | true =>
            obtain ⟨digits, same, all, again⟩ := gatherDigits_eq (digitValue next) others
            generalize gathered : gatherDigits (digitValue next) others = result at same again
            obtain ⟨final, count, behind⟩ := result
            cases more : startsWithDigit behind with
            | true =>
                simp only [unsignedNumber, zero, digit, gathered, more, if_true, if_false] at read
                obtain ⟨split, extra, -⟩ := spanDigits_eq behind
                have ending := longEnding_ends positive final (spanDigits behind).1.length
                obtain ⟨piece, tail, takes⟩ := ending.takes read
                refine ⟨next :: (digits ++ ((spanDigits behind).1 ++ piece)), ?_, fun others ends => ?_⟩
                · rw [List.cons_append, List.append_assoc, List.append_assoc, ← tail, ← split, ← same]
                · obtain ⟨head, starts⟩ := spanDigits_head more (piece ++ others)
                  have spans := spanDigits_of_digits extra (ending.undigited takes ends)
                  rw [List.cons_append, List.append_assoc, List.append_assoc, unsignedNumber]
                  simp only [zero, digit, if_true, if_false, again _ (.inr head), starts, spans]
                  exact takes others ends
            | false =>
                simp only [unsignedNumber, zero, digit, gathered, more, Bool.false_eq_true, if_true, if_false] at read
                have ending := integerEnding_ends positive final
                obtain ⟨piece, tail, takes⟩ := ending.takes read
                refine ⟨next :: (digits ++ piece), ?_, fun others ends => ?_⟩
                · rw [List.cons_append, List.append_assoc, ← tail, ← same]
                · have stops := ending.undigited takes ends
                  rw [List.cons_append, List.append_assoc, unsignedNumber]
                  simp only [zero, digit, if_true, if_false, again _ (.inl stops), stops, Bool.false_eq_true]
                  exact takes others ends

end

theorem numberToken_local : Reader.Local numberToken := by
  intro input found rest read
  cases input with
  | nil => cases read
  | cons next others =>
      by_cases minus : next = byte '-'
      · subst minus
        obtain ⟨piece, same, takes⟩ := unsignedNumber_local false read
        exact ⟨byte '-' :: piece, by rw [same]; rfl, fun more ends => takes more ends⟩
      · have goes (more : List UInt8) : numberToken (next :: more) = unsignedNumber true (next :: more) := by
          simp only [numberToken, minus, if_false]
        rw [goes] at read
        obtain ⟨piece, same, takes⟩ := unsignedNumber_local true read
        cases piece with
        | nil => cases takes [] trivial
        | cons first piece =>
            obtain ⟨rfl, rfl⟩ := List.cons.inj same
            refine ⟨next :: piece, rfl, fun more ends => ?_⟩
            rw [List.cons_append, goes]
            exact takes more ends

/-! ### Whoever understands a number skips it -/

theorem spanDigits_append {digits : List UInt8} (all : ∀ next ∈ digits, isDigit next = true) (more : List UInt8) :
    (spanDigits (digits ++ more)).2 = (spanDigits more).2 := by
  rw [spanDigits, spanDigits, List.dropWhile_append_of_pos all]

theorem spanDigits_undigited {more : List UInt8} (undigited : startsWithDigit more = false) :
    spanDigits more = ([], more) := by
  have none : ∀ next ∈ ([] : List UInt8), isDigit next = true := List.forall_mem_nil _
  exact spanDigits_of_digits none undigited

theorem spanDigits_ne_nil {input : List UInt8} (digited : startsWithDigit input = true) :
    (spanDigits input).1 ≠ [] := by
  cases input with
  | nil => cases digited
  | cons next rest =>
      have digit : isDigit next = true := digited
      simp [spanDigits, digit]

/-- Where the digits of a run end does not depend on how many of them were gathered. -/
theorem spanDigits_gathered (significand : Nat) (input : List UInt8) :
    (spanDigits input).2 = (spanDigits (gatherDigits significand input).2.2).2 := by
  obtain ⟨digits, same, all, -⟩ := gatherDigits_eq significand input
  exact (congrArg (fun run => (spanDigits run).2) same).trans (spanDigits_append all _)

theorem undigited_of_gatherExponent {exponent gathered : Nat} {input rest : List UInt8}
    (read : gatherExponent exponent input = (some gathered, rest)) : startsWithDigit rest = false := by
  induction input generalizing exponent with
  | nil =>
      obtain ⟨-, rfl⟩ := Prod.mk.inj read
      rfl
  | cons next others ih =>
      cases digit : isDigit next with
      | false =>
          simp only [gatherExponent, digit, Bool.false_eq_true, if_false, Prod.mk.injEq] at read
          obtain ⟨-, rfl⟩ := read
          exact digit
      | true =>
          simp only [gatherExponent, digit, if_true] at read
          split at read
          · cases (Prod.mk.inj read).1
          · exact ih read

section

variable {positive : Bool} {significand : Nat} {input rest : List UInt8} {found : Number}

theorem skipExponent_of_read {start : Int}
    (read : exponentPart positive significand start input = .ok (found, rest)) :
    skipExponent input = .ok ((), rest) := by
  unfold exponentPart at read
  unfold skipExponent
  generalize exponentSign input = signed at read ⊢
  obtain ⟨upward, behind⟩ := signed
  cases behind with
  | nil => cases read
  | cons next others =>
      cases digit : isDigit next with
      | false => simp [digit] at read
      | true =>
          obtain ⟨digits, split, all, -⟩ := gatherExponent_eq (digitValue next) others
          generalize gathered : gatherExponent (digitValue next) others = result at split
          obtain ⟨exponent, after⟩ := result
          simp only [digit, if_true, gathered] at read ⊢
          rw [split, spanDigits_append all]
          cases exponent with
          | some exponent =>
              have undigited := undigited_of_gatherExponent gathered
              have finished := (finishReal_finishes positive significand read).1
              rw [spanDigits_undigited undigited, finished]
          | none =>
              by_cases exceeds : significand ≠ 0 ∧ upward = true
              · simp [exceeds] at read
              · simp only [exceeds, if_false] at read
                rw [(finishReal_finishes positive 0 read).1]

theorem skipDecimals_of_read {start : Int}
    (read : decimalPart positive significand start input = .ok (found, rest)) :
    skipDecimals input = .ok ((), rest) := by
  have digited : startsWithDigit input = true := by
    cases starts : startsWithDigit input with
    | true => rfl
    | false =>
        simp only [decimalPart, gatherDigits_undigited significand starts, starts, Bool.false_eq_true, if_false,
          if_true] at read
        cases input <;> cases read
  -- whether or not all digits fit, the ending is read where they end
  obtain ⟨final, exponent, ending⟩ : ∃ final exponent,
      realEnding positive final exponent (spanDigits input).2 = .ok (found, rest) := by
    rw [spanDigits_gathered significand input]
    unfold decimalPart at read
    generalize gatherDigits significand input = result at read ⊢
    obtain ⟨final, count, behind⟩ := result
    cases starts : startsWithDigit behind with
    | true =>
        simp only [starts, if_true] at read
        exact ⟨_, _, read⟩
    | false =>
        simp only [starts, Bool.false_eq_true, if_false] at read
        rw [spanDigits_undigited starts]
        split at read
        · cases behind <;> cases read
        · exact ⟨_, _, read⟩
  simp only [skipDecimals, spanDigits_ne_nil digited, if_false]
  generalize (spanDigits input).2 = behind at ending ⊢
  unfold realEnding at ending
  cases behind with
  | nil => rw [(finishReal_finishes positive final ending).1]
  | cons next others =>
      cases letter : isExponentLetter next with
      | true =>
          simp only [letter, if_true] at ending ⊢
          exact skipExponent_of_read ending
      | false =>
          simp only [letter, Bool.false_eq_true, if_false] at ending ⊢
          rw [(finishReal_finishes positive final ending).1]

theorem skipNumberEnding_of_read {ending finish : Reader Number} {exponent : Int}
    (ends : ending.Ends finish
      (afterDigits (decimalPart positive significand exponent) (exponentPart positive significand exponent)))
    (read : ending input = .ok (found, rest)) : skipNumberEnding input = .ok ((), rest) := by
  cases input with
  | nil =>
      rw [ends.nil] at read
      rw [(ends.finishes read).1]
      rfl
  | cons next others =>
      rw [ends.cons] at read
      rw [skipNumberEnding_ends.cons]
      unfold afterDigits at read ⊢
      by_cases point : next = byte '.'
      · simp only [point, if_true] at read ⊢
        exact skipDecimals_of_read read
      cases letter : isExponentLetter next with
      | true =>
          simp only [point, letter, if_true, if_false] at read ⊢
          exact skipExponent_of_read read
      | false =>
          simp only [point, letter, Bool.false_eq_true, if_false] at read ⊢
          rw [(ends.finishes read).1]

theorem skipUnsigned_of_read (read : unsignedNumber positive input = .ok (found, rest)) :
    skipUnsigned input = .ok ((), rest) := by
  unfold unsignedNumber at read
  unfold skipUnsigned
  cases input with
  | nil => cases read
  | cons next others =>
      by_cases zero : next = byte '0'
      · simp only [zero, if_true] at read ⊢
        cases more : startsWithDigit others with
        | true => simp [more] at read
        | false =>
            simp only [more, Bool.false_eq_true, if_false] at read ⊢
            exact skipNumberEnding_of_read (integerEnding_ends positive 0) read
      cases digit : isDigit next with
      | false => simp [zero, digit] at read
      | true =>
          simp only [zero, digit, if_true, if_false] at read ⊢
          rw [spanDigits_gathered (digitValue next) others]
          generalize gatherDigits (digitValue next) others = result at read ⊢
          obtain ⟨final, count, behind⟩ := result
          cases starts : startsWithDigit behind with
          | true =>
              simp only [starts, if_true] at read
              exact skipNumberEnding_of_read (longEnding_ends positive final _) read
          | false =>
              simp only [starts, Bool.false_eq_true, if_false] at read
              rw [spanDigits_undigited starts]
              exact skipNumberEnding_of_read (integerEnding_ends positive final) read

end

theorem startsNumber_of_skipped {next : UInt8} {others rest : List UInt8}
    (skipped : skipUnsigned (next :: others) = .ok ((), rest)) : startsNumber next = true := by
  unfold startsNumber
  cases digit : isDigit next with
  | true => simp
  | false =>
      by_cases zero : next = byte '0'
      · subst zero
        cases digit
      · simp [skipUnsigned, zero, digit] at skipped

theorem ne_of_startsNumber {next : UInt8} (starts : startsNumber next = true) {other : UInt8}
    (differs : startsNumber other = false) : next ≠ other := by
  rintro rfl
  rw [differs] at starts
  cases starts

theorem skipWord_of_unsigned {input rest : List UInt8} (skipped : skipUnsigned input = .ok ((), rest)) :
    skipWord input = .ok ((), rest) := by
  cases input with
  | nil => cases skipped
  | cons next others =>
      have starts := startsNumber_of_skipped skipped
      have isNull : next ≠ byte 'n' := ne_of_startsNumber starts (by decide)
      have isTrue : next ≠ byte 't' := ne_of_startsNumber starts (by decide)
      have isFalse : next ≠ byte 'f' := ne_of_startsNumber starts (by decide)
      have minus : next ≠ byte '-' := by
        rintro rfl
        cases skipped
      simp only [skipWord, isNull, isTrue, isFalse, minus, if_false]
      exact skipped

theorem skipWord_of_read {input rest : List UInt8} {found : Number}
    (read : numberToken input = .ok (found, rest)) : skipWord input = .ok ((), rest) := by
  cases input with
  | nil => cases read
  | cons next others =>
      by_cases minus : next = byte '-'
      · subst minus
        exact skipUnsigned_of_read read
      · simp only [numberToken, minus, if_false] at read
        exact skipWord_of_unsigned (skipUnsigned_of_read read)

/-! ### What a word stands for -/

namespace Word

protected def null : Word :=
  ⟨byte 'n' :: nullLetters, rfl⟩

protected def true : Word :=
  ⟨byte 't' :: trueLetters, rfl⟩

protected def false : Word :=
  ⟨byte 'f' :: falseLetters, rfl⟩

/-- The number of a word, unless it is a literal or too large. -/
def number? (word : Word) : Option Number :=
  match numberToken word.bytes with
  | .ok (found, _) => some found
  | .error _ => none

theorem ext {word other : Word} (same : word.bytes = other.bytes) : word = other := by
  cases word
  cases other
  obtain rfl : _ = _ := same
  rfl

theorem cases (word : Word) : word = Word.null ∨ word = Word.true ∨ word = Word.false ∨
    ∃ next rest, word.bytes = next :: rest ∧ startsNumber next = true := by
  have isWord := word.isWord
  cases same : word.bytes with
  | nil =>
      rw [same] at isWord
      cases isWord
  | cons next rest =>
      have ofLetters {letters : List UInt8} (read : literal letters rest = .ok ((), [])) :
          word.bytes = next :: letters := by
        rw [same, literal_eq.mp read, List.append_nil]
      rw [same] at isWord
      simp only [skipWord] at isWord
      split_ifs at isWord with isNull isTrue isFalse minus
      · exact .inl (ext (by rw [ofLetters isWord, isNull]; rfl))
      · exact .inr (.inl (ext (by rw [ofLetters isWord, isTrue]; rfl)))
      · exact .inr (.inr (.inl (ext (by rw [ofLetters isWord, isFalse]; rfl))))
      · exact .inr (.inr (.inr ⟨next, rest, rfl, by rw [minus]; rfl⟩))
      · exact .inr (.inr (.inr ⟨next, rest, rfl, startsNumber_of_skipped isWord⟩))

variable {word : Word} {found : Number}

theorem takes_number (isNumber : word.number? = some found) : Reader.Takes numberToken word.bytes found := by
  unfold number? at isNumber
  cases read : numberToken word.bytes with
  | error fault => simp [read] at isNumber
  | ok result =>
      obtain ⟨other, rest⟩ := result
      have whole := (skipWord_of_read read).symm.trans word.isWord
      obtain rfl : rest = [] := congrArg Prod.snd (Except.ok.inj whole)
      simp only [read, Option.some.injEq] at isNumber
      exact numberToken_local.takes (isNumber ▸ read)

theorem startsNumber_of_number (isNumber : word.number? = some found) :
    ∃ next rest, word.bytes = next :: rest ∧ startsNumber next = true := by
  rcases word.cases with rfl | rfl | rfl | starts
  · cases isNumber
  · cases isNumber
  · cases isNumber
  · exact starts

end Word

theorem exists_number {input rest : List UInt8} {found : Number}
    (read : numberToken input = .ok (found, rest)) :
    ∃ word : Word, input = word.bytes ++ rest ∧ word.number? = some found := by
  obtain ⟨piece, same, takes⟩ := numberToken_local read
  have whole := takes [] trivial
  rw [List.append_nil] at whole
  refine ⟨⟨piece, skipWord_of_read whole⟩, same, ?_⟩
  simp only [Word.number?, whole]

end SequencedFeed.Json
