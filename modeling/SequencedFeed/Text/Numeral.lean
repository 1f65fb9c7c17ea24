set_option autoImplicit false

/-!
# Numerals

Digits in a base, and the plain unsigned numbers that options and addresses hold.
-/

namespace SequencedFeed

/-- The value of a digit in a base up to sixteen. -/
def digitValue? (base : Nat) (digit : Char) : Option Nat :=
  let value? :=
    if '0' ≤ digit ∧ digit ≤ '9' then some (digit.toNat - '0'.toNat)
    else if 'a' ≤ digit ∧ digit ≤ 'f' then some (digit.toNat - 'a'.toNat + 10)
    else if 'A' ≤ digit ∧ digit ≤ 'F' then some (digit.toNat - 'A'.toNat + 10)
    else none
  value?.filter (· < base)

def isDigitIn (base : Nat) (digit : Char) : Bool :=
  (digitValue? base digit).isSome

/-- The value of a row of digits, the most significant first. -/
def numeralValue (base : Nat) (digits : List Char) : Nat :=
  digits.foldl (fun value digit => value * base + (digitValue? base digit).getD 0) 0

def numeral (base value : Nat) : String :=
  String.ofList (Nat.toDigits base value)

/-! ### Numbers of 64 bits -/

/-- Why a text is no unsigned number of 64 bits. -/
inductive NumeralFault
  | empty
  | invalidDigit
  | tooLarge
deriving DecidableEq

def NumeralFault.message : NumeralFault → String
  | .empty => "cannot parse integer from empty string"
  | .invalidDigit => "invalid digit found in string"
  | .tooLarge => "number too large to fit in target type"

def largest64 : Nat := 0xffffffffffffffff

/-- Reads on after digits of the given value. The first offence counts: a character that is no digit,
or a digit that makes the number too large. -/
def readUnsigned64From (value : Nat) : List Char → Except NumeralFault Nat
  | [] => .ok value
  | digit :: rest =>
      match digitValue? 10 digit with
      | none => .error .invalidDigit
      | some unit =>
          if largest64 < value * 10 + unit then .error .tooLarge
          else readUnsigned64From (value * 10 + unit) rest

/-- Reads an unsigned decimal number of 64 bits. A plus sign may stand in front of the digits. -/
def readUnsigned64 (text : String) : Except NumeralFault Nat :=
  match text.toList with
  | [] => .error .empty
  | ['+'] => .error .invalidDigit
  | '+' :: digits => readUnsigned64From 0 digits
  | digits => readUnsigned64From 0 digits

end SequencedFeed
