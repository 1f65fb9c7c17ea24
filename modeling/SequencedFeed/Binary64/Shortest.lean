import SequencedFeed.Binary64
set_option autoImplicit false

/-!
# The fewest digits that read back

The text of a double-precision number has the fewest decimal digits that round to it, and of those
texts the one nearest to it. The numbers that round to it form an interval, whose ends belong to it
when its significand is even. A decimal with `n` digits lies in the interval only if one of the two
`n`-digit neighbours of the number itself does.
-/

namespace SequencedFeed.Binary64

/-- Decimal digits `d₁ d₂ … dₙ` read as `d₁.d₂…dₙ * 10 ^ exponent`. -/
structure Digits where
  digits : List Char
  exponent : Int

/-- The interval of the numbers that round to a magnitude: `low ≤ value ≤ high`, all over the common
denominator `den`. -/
structure Interval where
  low : Nat
  value : Nat
  high : Nat
  den : Nat
  closed : Bool

/-- Half way to either neighbour; the lower one is nearer at a power of two. -/
def interval (x : Binary64) : Interval :=
  let below := if x.significand = 1 <<< 52 ∧ leastExponent < x.exponent then 1 else 2
  let quarter := x.exponent - 2
  let unit := if 0 ≤ quarter then 1 <<< quarter.toNat else 1
  let den := if 0 ≤ quarter then 1 else 1 <<< (-quarter).toNat
  { low := (4 * x.significand - below) * unit
    value := 4 * x.significand * unit
    high := (4 * x.significand + 2) * unit
    den
    closed := x.significand % 2 = 0 }

def Interval.holds (range : Interval) (point den' : Nat) : Bool :=
  let middle := point * range.den
  if range.closed then range.low * den' ≤ middle && middle ≤ range.high * den'
  else range.low * den' < middle && middle < range.high * den'

/-- The quotient `num / den` with the unit `10 ^ exponent`, as numerator and denominator. -/
def perPower (num den : Nat) (exponent : Int) : Nat × Nat :=
  if 0 ≤ exponent then (num, den * Nat.pow 10 exponent.toNat) else (num * Nat.pow 10 (-exponent).toNat, den)

/-- The decimal exponent of the first digit of `num / den`. The estimate from the binary logarithm is
at most one too small or one too large. -/
def leadingExponent (num den : Nat) : Int :=
  let bits : Int := (Nat.log2 num : Int) - Nat.log2 den
  let guess := bits * 30103 / 100000
  let reaches (exponent : Int) : Bool :=
    let (top, bottom) := perPower num den exponent
    bottom ≤ top
  if reaches (guess + 1) then guess + 1
  else if reaches guess then guess
  else if reaches (guess - 1) then guess - 1
  else guess - 2

/-- The neighbour on the grid of multiples of `10 ^ grid` that lies in the interval, the nearer one of
two, as a count of grid steps. -/
def onGrid (range : Interval) (grid : Int) : Option Nat :=
  let (top, bottom) := perPower range.value range.den grid
  let floor := top / bottom
  let inside (steps : Nat) : Bool :=
    if 0 ≤ grid then range.holds (steps * Nat.pow 10 grid.toNat) 1
    else range.holds steps (Nat.pow 10 (-grid).toNat)
  match inside floor, inside (floor + 1) with
  | true, true =>
      let rest := 2 * (top % bottom)
      some (if rest < bottom || (rest = bottom && floor % 2 = 0) then floor else floor + 1)
  | true, false => some floor
  | false, true => some (floor + 1)
  | false, false => none

/-- Tries ever finer grids, from `count` digits on. Seventeen digits always suffice. -/
def search (range : Interval) (leading : Int) : Nat → Nat → Nat × Int
  | 0, count =>
      let grid := leading - count
      (((onGrid range grid).getD 0), grid)
  | more + 1, count =>
      let grid := leading - count
      match onGrid range grid with
      | some steps => (steps, grid)
      | none => search range leading more (count + 1)

/-- The fewest digits, and of those the nearest, for a number other than zero. -/
def shortest (x : Binary64) : Digits :=
  let range := x.interval
  let (steps, grid) := search range (leadingExponent range.value range.den) 17 0
  let written := Nat.toDigits 10 steps
  let trimmed := (written.reverse.dropWhile (· == '0')).reverse
  ⟨trimmed, grid + written.length - 1⟩

/-- Positional notation with a point while the first digit's exponent is between `-5` and `15`;
otherwise one digit before the point and a signed exponent. Zero is `0.0`, and the sign of zero
shows. -/
def text (x : Binary64) : List Char :=
  let sign := if x.negative then ['-'] else []
  if x.significand = 0 then sign ++ ['0', '.', '0']
  else
    let shown := x.shortest
    let digits := shown.digits
    let count : Int := digits.length
    if 0 ≤ shown.exponent ∧ shown.exponent ≤ 15 then
      let whole := shown.exponent.toNat + 1
      if count ≤ whole then
        sign ++ digits ++ List.replicate (whole - digits.length) '0' ++ ['.', '0']
      else sign ++ digits.take whole ++ '.' :: digits.drop whole
    else if -5 ≤ shown.exponent ∧ shown.exponent < 0 then
      sign ++ ['0', '.'] ++ List.replicate ((-shown.exponent).toNat - 1) '0' ++ digits
    else
      let fraction := if digits.tail = [] then [] else '.' :: digits.tail
      let exponentSign := if shown.exponent < 0 then '-' else '+'
      sign ++ digits.take 1 ++ fraction ++ 'e' :: exponentSign ::
        Nat.toDigits 10 shown.exponent.natAbs

end SequencedFeed.Binary64
