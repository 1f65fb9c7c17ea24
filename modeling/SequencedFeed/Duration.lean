set_option autoImplicit false

/-!
# Durations

A span of time is a count of nanoseconds below `2 ^ 64` seconds. Sums stop at the longest span, and
the text of a span names the largest unit it fills, with the rest as decimal places.
-/

namespace SequencedFeed

def nanosPerSecond : Nat := 1000000000

/-- Nanoseconds in the longest span: one short of `2 ^ 64` seconds. -/
def longestNanos : Nat := nanosPerSecond <<< 64 - 1

/-- A span of time, never negative and never longer than `longestNanos`. -/
structure Duration where
  nanos : Nat
  nanos_le : nanos ≤ longestNanos
deriving DecidableEq

namespace Duration

@[ext]
theorem ext {left right : Duration} (same : left.nanos = right.nanos) : left = right := by
  cases left
  cases right
  cases same
  rfl

/-- A count of nanoseconds, cut off at the longest span. -/
def ofNanos (count : Nat) : Duration :=
  ⟨min count longestNanos, Nat.min_le_right _ _⟩

def ofParts (seconds nanos : Nat) : Duration :=
  ofNanos (seconds * nanosPerSecond + nanos)

def ofSeconds (count : Nat) : Duration :=
  ofParts count 0

def ofMillis (count : Nat) : Duration :=
  ofNanos (count * 1000000)

def zero : Duration :=
  ofNanos 0

def longest : Duration :=
  ofNanos longestNanos

def seconds (span : Duration) : Nat :=
  span.nanos / nanosPerSecond

def subsecond (span : Duration) : Nat :=
  span.nanos % nanosPerSecond

/-- Milliseconds that cover the span; virtual clocks tick in milliseconds and never early. -/
def millis (span : Duration) : Nat :=
  (999999 + span.nanos) / 1000000

def add (left right : Duration) : Duration :=
  ofNanos (left.nanos + right.nanos)

instance : Add Duration := ⟨add⟩

instance : LE Duration := ⟨fun left right => left.nanos ≤ right.nanos⟩

instance : DecidableRel (fun left right : Duration => left ≤ right) :=
  fun left right => inferInstanceAs (Decidable (left.nanos ≤ right.nanos))

instance : Min Duration := ⟨fun left right => if left ≤ right then left else right⟩

instance : Max Duration := ⟨fun left right => if left ≤ right then right else left⟩

theorem le_iff {left right : Duration} : left ≤ right ↔ left.nanos ≤ right.nanos :=
  Iff.rfl

@[simp]
theorem nanos_ofNanos (count : Nat) : (ofNanos count).nanos = min count longestNanos :=
  rfl

@[simp]
theorem nanos_add (left right : Duration) :
    (left + right).nanos = min (left.nanos + right.nanos) longestNanos :=
  rfl

@[simp]
theorem nanos_min (left right : Duration) : (min left right).nanos = min left.nanos right.nanos := by
  change (if left.nanos ≤ right.nanos then left else right).nanos = _
  split
  · next ordered => exact (Nat.min_eq_left ordered).symm
  · next ordered => exact (Nat.min_eq_right (Nat.le_of_lt (Nat.lt_of_not_le ordered))).symm

@[simp]
theorem nanos_max (left right : Duration) : (max left right).nanos = max left.nanos right.nanos := by
  change (if left.nanos ≤ right.nanos then right else left).nanos = _
  split
  · next ordered => exact (Nat.max_eq_right ordered).symm
  · next ordered => exact (Nat.max_eq_left (Nat.le_of_lt (Nat.lt_of_not_le ordered))).symm

/-! ### Text -/

/-- Decimal places of `part / 10 ^ places`, without the zeros at the end. -/
def decimalPlaces (places part : Nat) : List Char :=
  let digits := Nat.toDigits 10 part
  let padded := List.replicate (places - digits.length) '0' ++ digits
  (padded.reverse.dropWhile (· == '0')).reverse

/-- A whole number of units, its decimal places if any are left, and the unit. -/
def inUnit (whole part places : Nat) (unit : String) : String :=
  let shown := decimalPlaces places part
  String.ofList (Nat.toDigits 10 whole ++ (if shown = [] then [] else '.' :: shown)) ++ unit

/-- The span in the largest unit that it fills; less than a microsecond is whole nanoseconds. -/
def text (span : Duration) : String :=
  if nanosPerSecond ≤ span.nanos then
    inUnit span.seconds span.subsecond 9 "s"
  else if 1000000 ≤ span.nanos then
    inUnit (span.nanos / 1000000) (span.nanos % 1000000) 6 "ms"
  else if 1000 ≤ span.nanos then
    inUnit (span.nanos / 1000) (span.nanos % 1000) 3 "µs"
  else
    inUnit span.nanos 0 0 "ns"

end Duration

end SequencedFeed
