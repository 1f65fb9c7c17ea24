set_option autoImplicit false

/-!
# Virtual time

Time is counted in milliseconds and moves only on demand. On the way to a later instant every timer
that falls due is served in order, and what it wakes comes to rest before time moves on.
-/

namespace SequencedFeed

/-- The longest that a sleep lasts: thirty years of 365 days, in milliseconds. -/
def longestWait : Nat :=
  30 * 365 * 24 * 60 * 60 * 1000

/-- When a sleep ends that begins at an instant. One that is meant to last longer than the longest wait ends
after that wait. The deadline of a send is no sleep and is not cut. -/
def expiry (start wait : Nat) : Nat :=
  start + min wait longestWait

theorem expiry_of_le {start wait : Nat} (short : wait ≤ longestWait) :
    expiry start wait = start + wait := by
  rw [expiry, Nat.min_eq_left short]

theorem lt_expiry {start wait : Nat} (positive : 0 < wait) : start < expiry start wait := by
  have limit : 0 < longestWait := by decide
  have least : 0 < min wait longestWait := Nat.lt_min.2 ⟨positive, limit⟩
  exact Nat.lt_add_of_pos_right least

/-- A state that waits for instants. `due?` is the earliest instant it waits for, and `wake` brings
the state to an instant and then to rest. -/
structure Timed (σ : Type) where
  due? : σ → Option Nat
  wake : Nat → σ → σ

namespace Timed

variable {σ : Type}

/-- Serves the timers due up to `finish`, at most `fuel` of them. -/
def serve (timed : Timed σ) (finish : Nat) : Nat → σ → σ
  | 0, state => state
  | fuel + 1, state =>
      match timed.due? state with
      | none => state
      | some instant =>
          if instant ≤ finish then serve timed finish fuel (timed.wake instant state) else state

/-- Time from `start` to `finish`. At rest every timer lies in the future, so no more timers are
served than milliseconds pass. -/
def pass (timed : Timed σ) (start finish : Nat) (state : σ) : σ :=
  timed.wake finish (serve timed finish (finish - start) state)

end Timed

/-- The earlier of two instants that may not exist. -/
def earlier? : Option Nat → Option Nat → Option Nat
  | none, instant => instant
  | instant, none => instant
  | some here, some there => some (min here there)

/-- The earliest of several instants. -/
def earliest? (instants : List (Option Nat)) : Option Nat :=
  instants.foldr earlier? none

end SequencedFeed
