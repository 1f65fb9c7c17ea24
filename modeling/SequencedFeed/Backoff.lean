import SequencedFeed.Duration
set_option autoImplicit false

/-!
# Linear back-off

Waits between attempts to reconnect grow by one step from attempt to attempt up to a longest wait.
Neither may be shorter than a millisecond, so no series of failures can run without time passing.
-/

namespace SequencedFeed

/-- The first wait, by which every further one grows, and the longest wait. -/
structure Backoff where
  step : Duration
  most : Duration
deriving DecidableEq

namespace Backoff

def least : Duration :=
  Duration.ofMillis 1

/-- Half a second more every time, up to fifteen seconds. -/
def standard : Backoff :=
  { step := Duration.ofMillis 500, most := Duration.ofSeconds 15 }

/-- No wait is shorter than the shortest, and the step is the smaller of the two spans. -/
def normalized (backoff : Backoff) : Backoff :=
  { step := min (max backoff.step least) (max backoff.most least)
    most := max (max backoff.step least) (max backoff.most least) }

/-- The wait after a failed attempt that was preceded by a given wait. -/
def next (backoff : Backoff) (wait : Duration) : Duration :=
  min (wait + backoff.normalized.step) backoff.normalized.most

def first (backoff : Backoff) : Duration :=
  backoff.normalized.step

/-- The wait before the attempt with this number, counted from zero. -/
def delay (backoff : Backoff) : Nat → Duration
  | 0 => backoff.first
  | count + 1 => backoff.next (backoff.delay count)

/-- As many waits, each following the one before it. -/
def delaysFrom (backoff : Backoff) (wait : Duration) : Nat → List Duration
  | 0 => []
  | count + 1 => wait :: backoff.delaysFrom (backoff.next wait) count

def delays (backoff : Backoff) (count : Nat) : List Duration :=
  backoff.delaysFrom backoff.first count

end Backoff

end SequencedFeed
