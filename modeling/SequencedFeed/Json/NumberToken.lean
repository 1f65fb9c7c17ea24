import SequencedFeed.Json.Reader
set_option autoImplicit false

/-!
# Number tokens

An integer that fits into 64 bits stays exact: up to `2 ^ 64 - 1`, or down to `-2 ^ 63`. Minus zero
and every literal with a point or an exponent is a double-precision number. Digits are gathered
into a 64-bit significand; those that no longer fit only shift the exponent (before the point) or
are dropped (behind it).
-/

namespace SequencedFeed.Json

/-- Adds digits to a significand while it stays below `2 ^ 64`. Gives the significand, the number
of digits taken, and the rest, which starts with a digit exactly if that digit did not fit. -/
def gatherDigits (significand : Nat) : List UInt8 → Nat × Nat × List UInt8
  | [] => (significand, 0, [])
  | next :: rest =>
      if isDigit next then
        let grown := significand * 10 + digitValue next
        if maxUnsigned64 < grown then (significand, 0, next :: rest)
        else
          let (final, count, rest) := gatherDigits grown rest
          (final, count + 1, rest)
      else (significand, 0, next :: rest)

def spanDigits (input : List UInt8) : List UInt8 × List UInt8 :=
  (input.takeWhile isDigit, input.dropWhile isDigit)

def startsWithDigit : List UInt8 → Bool
  | [] => false
  | next :: _ => isDigit next

/-- The double-precision number of a finished literal, if it is not too large. -/
def finishReal (positive : Bool) (significand : Nat) (exponent : Int) : Reader Number := fun rest =>
  match Binary64.ofDecimal significand exponent with
  | none => .error (Cause.numberOutOfRange.before rest)
  | some value => .ok (.real (if positive then value else value.negate), rest)

/-- The largest exponent that is still gathered digit by digit. -/
def maxExponent : Nat := 0x7fffffff

/-- Adds digits to an exponent; `none` with the rest behind the digit that is one too many. -/
def gatherExponent (exponent : Nat) : List UInt8 → Option Nat × List UInt8
  | [] => (some exponent, [])
  | next :: rest =>
      if isDigit next then
        let grown := exponent * 10 + digitValue next
        if maxExponent < grown then (none, rest) else gatherExponent grown rest
      else (some exponent, next :: rest)

/-- The sign of an exponent; none means plus. -/
def exponentSign : List UInt8 → Bool × List UInt8
  | [] => (true, [])
  | next :: rest =>
      if next = byte '+' then (true, rest)
      else if next = byte '-' then (false, rest)
      else (true, next :: rest)

/-- The exponent behind its letter. One too large to gather makes the number zero or out of range. -/
def exponentPart (positive : Bool) (significand : Nat) (start : Int) : Reader Number := fun input =>
  let (upward, input) := exponentSign input
  match input with
  | [] => .error (Cause.endInValue.before [])
  | next :: rest =>
      if isDigit next then
        match gatherExponent (digitValue next) rest with
        | (some exponent, rest) =>
            finishReal positive significand (if upward then start + exponent else start - exponent) rest
        | (none, rest) =>
            if significand ≠ 0 ∧ upward then .error (Cause.numberOutOfRange.before rest)
            else finishReal positive 0 0 (spanDigits rest).2
      else .error (Cause.invalidNumber.before rest)

def isExponentLetter (next : UInt8) : Bool :=
  next == byte 'e' || next == byte 'E'

/-- What may follow the digits of a real literal: an exponent or nothing. -/
def realEnding (positive : Bool) (significand : Nat) (exponent : Int) : Reader Number := fun input =>
  match input with
  | [] => finishReal positive significand exponent []
  | next :: rest =>
      if isExponentLetter next then exponentPart positive significand exponent rest
      else finishReal positive significand exponent input

def decimalPart (positive : Bool) (significand : Nat) (start : Int) : Reader Number := fun input =>
  let (significand, count, rest) := gatherDigits significand input
  if startsWithDigit rest then
    realEnding positive significand (start - count) (spanDigits rest).2
  else if count = 0 then
    match rest with
    | [] => .error (Cause.endInValue.at rest)
    | _ :: _ => .error (Cause.invalidNumber.at rest)
  else realEnding positive significand (start - count) rest

/-- What may follow digits that do not fit: a point, an exponent or nothing. -/
def longEnding (positive : Bool) (significand : Nat) (exponent : Int) : Reader Number := fun input =>
  match input with
  | [] => finishReal positive significand exponent []
  | next :: rest =>
      if next = byte '.' then decimalPart positive significand exponent rest
      else if isExponentLetter next then exponentPart positive significand exponent rest
      else finishReal positive significand exponent input

/-- An integer literal; minus zero and integers below `-2 ^ 63` are not exact integers. -/
def finishInteger (positive : Bool) (significand : Nat) : Reader Number := fun rest =>
  if positive then .ok (.integer significand, rest)
  else if significand = 0 ∨ 1 <<< 63 < significand then finishReal false significand 0 rest
  else .ok (.integer (-significand), rest)

/-- What may follow the digits of an integer. -/
def integerEnding (positive : Bool) (significand : Nat) : Reader Number := fun input =>
  match input with
  | [] => finishInteger positive significand []
  | next :: rest =>
      if next = byte '.' then decimalPart positive significand 0 rest
      else if isExponentLetter next then exponentPart positive significand 0 rest
      else finishInteger positive significand input

/-- A number behind its sign. A leading zero stands alone. -/
def unsignedNumber (positive : Bool) : Reader Number := fun input =>
  match input with
  | [] => .error (Cause.endInValue.before [])
  | next :: rest =>
      if next = byte '0' then
        if startsWithDigit rest then .error (Cause.invalidNumber.at rest)
        else integerEnding positive 0 rest
      else if isDigit next then
        let (significand, _, rest) := gatherDigits (digitValue next) rest
        if startsWithDigit rest then
          let (extra, rest) := spanDigits rest
          longEnding positive significand extra.length rest
        else integerEnding positive significand rest
      else .error (Cause.invalidNumber.before rest)

def startsNumber (next : UInt8) : Bool :=
  next == byte '-' || isDigit next

def numberToken : Reader Number := fun input =>
  match input with
  | [] => .error (Cause.endInValue.before [])
  | next :: rest =>
      if next = byte '-' then unsignedNumber false rest else unsignedNumber true input

end SequencedFeed.Json
