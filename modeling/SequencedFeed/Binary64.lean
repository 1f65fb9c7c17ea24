set_option autoImplicit false

/-!
# Double-precision numbers

Finite binary floating-point numbers with 53 significant bits, and the operations that reading a
decimal literal needs. Every operation works on the exact rational result and rounds it once, to
nearest with ties to even.
-/

namespace SequencedFeed

/-- The number `± significand * 2 ^ exponent`. In its one stored form the exponent is at least
`-1074`, and the significand fills 53 bits unless the exponent is that least one. -/
structure Binary64 where
  negative : Bool
  significand : Nat
  exponent : Int
deriving DecidableEq, Inhabited

namespace Binary64

def leastExponent : Int := -1074

def greatestExponent : Int := 971

def zero : Binary64 := ⟨false, 0, leastExponent⟩

def negate (x : Binary64) : Binary64 :=
  { x with negative := !x.negative }

/-- Nearest integer to `num / den`, the even one of two equally near. -/
def roundRatio (num den : Nat) : Nat :=
  let floor := num / den
  let rest := 2 * (num % den)
  if rest < den then floor
  else if den < rest then floor + 1
  else if floor % 2 = 0 then floor
  else floor + 1

/-- `num / (den * 2 ^ exponent)` as a quotient of natural numbers. -/
def scaled (num den : Nat) (exponent : Int) : Nat × Nat :=
  if 0 ≤ exponent then (num, den <<< exponent.toNat) else (num <<< (-exponent).toNat, den)

/-- The exponent at which `num / den` has a quotient of exactly 53 bits, or the least exponent. -/
def exponentOf (num den : Nat) : Int :=
  let guess : Int := (Nat.log2 num : Int) - Nat.log2 den - 52
  let (top, bottom) := scaled num den guess
  let exact := if top / bottom < 1 <<< 52 then guess - 1 else guess
  max exact leastExponent

/-- The nonnegative number nearest to `num / den`; `none` if it is too large. -/
def ofRatio (num den : Nat) : Option Binary64 :=
  if num = 0 then some zero
  else
    let exponent := exponentOf num den
    let (top, bottom) := scaled num den exponent
    let rounded := roundRatio top bottom
    let (significand, exponent) :=
      if rounded = 1 <<< 53 then (1 <<< 52, exponent + 1) else (rounded, exponent)
    if greatestExponent < exponent then none else some ⟨false, significand, exponent⟩

def ratio (x : Binary64) : Nat × Nat :=
  if 0 ≤ x.exponent then (x.significand <<< x.exponent.toNat, 1)
  else (x.significand, 1 <<< (-x.exponent).toNat)

def mul (left right : Binary64) : Option Binary64 :=
  let (num, den) := left.ratio
  let (num', den') := right.ratio
  ofRatio (num * num') (den * den')

def div (left right : Binary64) : Option Binary64 :=
  let (num, den) := left.ratio
  let (num', den') := right.ratio
  ofRatio (num * den') (den * num')

def powerOfTen (exponent : Nat) : Option Binary64 :=
  ofRatio (Nat.pow 10 exponent) 1

/-- The largest power of ten that is a double-precision number. -/
def largestPower : Nat := 308

/-- Division by a power of ten, in steps of at most the largest power that can be represented. -/
def shrink (x : Binary64) (exponent : Nat) : Option Binary64 :=
  if exponent ≤ largestPower then (powerOfTen exponent).bind x.div
  else if x.significand = 0 then some x
  else ((powerOfTen largestPower).bind x.div).bind fun smaller =>
    smaller.shrink (exponent - largestPower)
termination_by exponent
decreasing_by
  simp only [largestPower] at *
  omega

/-- The number meant by `significand * 10 ^ exponent`: the significand is rounded, then multiplied or
divided by a rounded power of ten, so the last digit may differ from the nearest number's. `none` if
the product is too large. -/
def ofDecimal (significand : Nat) (exponent : Int) : Option Binary64 :=
  (ofRatio significand 1).bind fun whole =>
    if 0 ≤ exponent then
      if exponent.toNat ≤ largestPower then (powerOfTen exponent.toNat).bind whole.mul
      else if whole.significand = 0 then some whole
      else none
    else whole.shrink (-exponent).toNat

end Binary64

end SequencedFeed
