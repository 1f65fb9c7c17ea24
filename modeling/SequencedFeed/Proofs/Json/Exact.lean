import SequencedFeed.Proofs.Json.Numbers
set_option autoImplicit false

/-!
# Exact integers

A number is read as an exact integer only if it has neither a point nor an exponent and fits into 64 bits, with
or without a sign. All other numbers are double-precision ones.
-/

namespace SequencedFeed.Json

def IsExact (value : Int) : Prop :=
  minSigned64 ≤ value ∧ value ≤ maxUnsigned64

/-- A reader whose numbers are all double-precision ones. -/
def Reader.Inexact (reader : Reader Number) : Prop :=
  ∀ input value rest, reader input ≠ .ok (.integer value, rest)

section

variable (positive : Bool) (significand : Nat)

theorem finishReal_inexact (exponent : Int) : Reader.Inexact (finishReal positive significand exponent) := by
  intro input value rest read
  unfold finishReal at read
  split at read <;> cases read

theorem exponentPart_inexact (start : Int) : Reader.Inexact (exponentPart positive significand start) := by
  intro input value rest read
  unfold exponentPart at read
  generalize exponentSign input = signed at read
  obtain ⟨upward, behind⟩ := signed
  cases behind with
  | nil => cases read
  | cons next others =>
      cases digit : isDigit next with
      | false => simp [digit] at read
      | true =>
          simp only [digit, if_true] at read
          generalize gatherExponent (digitValue next) others = gathered at read
          obtain ⟨exponent, after⟩ := gathered
          cases exponent with
          | some exponent => exact finishReal_inexact positive significand _ _ _ _ read
          | none =>
              by_cases exceeds : significand ≠ 0 ∧ upward = true
              · simp [exceeds] at read
              · simp only [exceeds, if_false] at read
                exact finishReal_inexact positive 0 _ _ _ _ read

theorem realEnding_inexact (exponent : Int) : Reader.Inexact (realEnding positive significand exponent) := by
  intro input value rest read
  unfold realEnding at read
  split at read
  · exact finishReal_inexact positive significand _ _ _ _ read
  · split at read
    · exact exponentPart_inexact positive significand _ _ _ _ read
    · exact finishReal_inexact positive significand _ _ _ _ read

theorem decimalPart_inexact (start : Int) : Reader.Inexact (decimalPart positive significand start) := by
  intro input value rest read
  unfold decimalPart at read
  generalize gatherDigits significand input = gathered at read
  obtain ⟨final, count, behind⟩ := gathered
  dsimp only at read
  split at read
  · exact realEnding_inexact positive final _ _ _ _ read
  · split at read
    · cases behind <;> cases read
    · exact realEnding_inexact positive final _ _ _ _ read

end

variable {positive : Bool} {significand : Nat} {input rest : List UInt8} {value : Int}

theorem finish_of_integer {ending finish : Reader Number} {exponent : Int}
    (ends : ending.Ends finish
      (afterDigits (decimalPart positive significand exponent) (exponentPart positive significand exponent)))
    (read : ending input = .ok (.integer value, rest)) : finish input = .ok (.integer value, rest) := by
  cases input with
  | nil => exact ends.nil.symm.trans read
  | cons next others =>
      rw [ends.cons] at read
      unfold afterDigits at read
      by_cases point : next = byte '.'
      · simp only [point, if_true] at read
        exact absurd read (decimalPart_inexact positive significand _ _ _ _)
      cases letter : isExponentLetter next with
      | true =>
          simp only [point, letter, if_true, if_false] at read
          exact absurd read (exponentPart_inexact positive significand _ _ _ _)
      | false => simpa only [point, letter, Bool.false_eq_true, if_false] using read

theorem gatherDigits_le (fits : significand ≤ maxUnsigned64) (input : List UInt8) :
    (gatherDigits significand input).1 ≤ maxUnsigned64 := by
  induction input generalizing significand with
  | nil => exact fits
  | cons next others ih =>
      unfold gatherDigits
      split
      · by_cases large : maxUnsigned64 < significand * 10 + digitValue next
        · simpa only [large, if_true] using fits
        · simp only [large, if_false]
          exact ih (Nat.not_lt.mp large)
      · exact fits

theorem finishInteger_exact (fits : significand ≤ maxUnsigned64)
    (read : finishInteger positive significand input = .ok (.integer value, rest)) : IsExact value := by
  have least : minSigned64 = -9223372036854775808 := rfl
  have most : maxUnsigned64 = 18446744073709551615 := rfl
  have size : (1 <<< 63 : Nat) = 9223372036854775808 := rfl
  unfold finishInteger at read
  split_ifs at read with isPositive inexact
  · obtain ⟨same, -⟩ := Prod.mk.inj (Except.ok.inj read)
    obtain rfl := Number.integer.inj same
    constructor <;> omega
  · exact absurd read (finishReal_inexact false significand _ _ _ _)
  · obtain ⟨same, -⟩ := Prod.mk.inj (Except.ok.inj read)
    obtain rfl := Number.integer.inj same
    constructor <;> omega

theorem unsignedNumber_exact (read : unsignedNumber positive input = .ok (.integer value, rest)) : IsExact value := by
  cases input with
  | nil => cases read
  | cons next others =>
      by_cases zero : next = byte '0'
      · simp only [unsignedNumber, zero, if_true] at read
        split_ifs at read
        exact finishInteger_exact (Nat.zero_le _) (finish_of_integer (integerEnding_ends positive 0) read)
      cases digit : isDigit next with
      | false => simp [unsignedNumber, zero, digit] at read
      | true =>
          have small : digitValue next ≤ maxUnsigned64 := by
            have byteBound := next.toNat_lt
            have most : maxUnsigned64 = 18446744073709551615 := rfl
            unfold digitValue
            omega
          have fits := gatherDigits_le small others
          simp only [unsignedNumber, zero, digit, if_true, if_false] at read
          generalize gatherDigits (digitValue next) others = gathered at read fits
          obtain ⟨final, count, behind⟩ := gathered
          cases more : startsWithDigit behind with
          | true =>
              simp only [more, if_true] at read
              have real := finish_of_integer (longEnding_ends positive final _) read
              exact absurd real (finishReal_inexact positive final _ _ _ _)
          | false =>
              simp only [more, Bool.false_eq_true, if_false] at read
              exact finishInteger_exact fits (finish_of_integer (integerEnding_ends positive final) read)

theorem numberToken_exact (read : numberToken input = .ok (.integer value, rest)) : IsExact value := by
  unfold numberToken at read
  split at read
  · cases read
  · split at read
    · exact unsignedNumber_exact read
    · exact unsignedNumber_exact read

theorem Word.number?_exact {word : Word} (isNumber : word.number? = some (.integer value)) : IsExact value := by
  have read := takes_number isNumber [] trivial
  exact numberToken_exact read

end SequencedFeed.Json
