import SequencedFeed.Proofs.Waits
set_option autoImplicit false

/-!
# The delays of a back-off

A back-off may be made of any two spans, in any order and as long as spans can be. Its delays are the
multiples of its step, cut off at its longest wait: the sums by which they are made stop at the longest
span, but no delay is that long before it is cut off anyway.
-/

namespace SequencedFeed

namespace Backoff

variable (backoff : Backoff)

/-! ### Bounds -/

theorem normalized_eq :
    backoff.normalized =
      ⟨max least (min backoff.step backoff.most), max least (max backoff.step backoff.most)⟩ := by
  rw [normalized, Backoff.mk.injEq]
  constructor <;> apply Duration.ext <;> simp only [Duration.nanos_min, Duration.nanos_max] <;> omega

theorem normalized_normalized : backoff.normalized.normalized = backoff.normalized := by
  have step := backoff.least_le_step
  have ordered := backoff.step_le_most
  rw [normalized_eq backoff.normalized]
  generalize backoff.normalized = bounds at step ordered
  obtain ⟨shortest, longest⟩ := bounds
  rw [Backoff.mk.injEq]
  constructor <;> apply Duration.ext <;>
    simp only [Duration.nanos_min, Duration.nanos_max, least_nanos] at step ordered ⊢ <;> omega

theorem normalized_exchanged :
    (Backoff.mk backoff.most backoff.step).normalized = backoff.normalized := by
  simp only [normalized, Backoff.mk.injEq]
  constructor <;> apply Duration.ext <;> simp only [Duration.nanos_min, Duration.nanos_max] <;> omega

/-! ### The list of delays -/

theorem delaysFrom_eq (first count : Nat) :
    backoff.delaysFrom (backoff.delay first) count = (List.range' first count).map backoff.delay := by
  induction count generalizing first with
  | zero => rfl
  | succ count ih => rw [delaysFrom, List.range'_succ, List.map_cons, ← ih (first + 1), delay]

theorem delays_eq (count : Nat) : backoff.delays count = (List.range count).map backoff.delay := by
  rw [List.range_eq_range']
  exact backoff.delaysFrom_eq 0 count

/-- The number of delays that are shorter than the longest wait. -/
def shorter : Nat :=
  (backoff.normalized.most.nanos - 1) / backoff.normalized.step.nanos

theorem lt_shorter_iff (place : Nat) :
    place < backoff.shorter ↔
      (place + 1) * backoff.normalized.step.nanos < backoff.normalized.most.nanos := by
  have step := backoff.least_le_step
  have ordered := backoff.step_le_most
  rw [shorter, Nat.lt_iff_add_one_le, Nat.le_div_iff_mul_le (by omega)]
  omega

theorem delay_of_lt_shorter {place : Nat} (short : place < backoff.shorter) :
    (backoff.delay place).nanos = (place + 1) * backoff.normalized.step.nanos := by
  rw [delay_nanos]
  exact Nat.min_eq_left (Nat.le_of_lt ((backoff.lt_shorter_iff place).mp short))

theorem delay_of_shorter_le {place : Nat} (long : backoff.shorter ≤ place) :
    backoff.delay place = backoff.normalized.most := by
  apply Duration.ext
  rw [delay_nanos]
  exact Nat.min_eq_right (Nat.le_of_not_lt fun short => Nat.not_lt_of_le long ((backoff.lt_shorter_iff place).mpr short))

theorem delay_mono {earlier later : Nat} (ordered : earlier ≤ later) :
    backoff.delay earlier ≤ backoff.delay later := by
  rw [Duration.le_iff, delay_nanos, delay_nanos]
  have grows := Nat.mul_le_mul_right backoff.normalized.step.nanos (Nat.succ_le_succ ordered)
  simp only [Nat.succ_eq_add_one] at grows
  omega

/-- Of the two spans of a back-off the smaller one is its step and the larger one its longest wait, each a
millisecond at least; being put in order changes nothing a second time, and it does not matter which span was
which. The delays are the multiples of the step in nanoseconds, cut off at the longest wait, for spans of any
length. So they begin with the step, never decrease, and grow by exactly the step until they reach the longest
wait, where they stay. -/
theorem delays_closed_form (backoff : Backoff) :
    let step := max least (min backoff.step backoff.most)
    let most := max least (max backoff.step backoff.most)
    backoff.normalized = ⟨step, most⟩ ∧
      backoff.normalized.normalized = backoff.normalized ∧
      (Backoff.mk backoff.most backoff.step).normalized = backoff.normalized ∧
      (∀ count, (backoff.delays count).map Duration.nanos =
        (List.range count).map fun place => min ((place + 1) * step.nanos) most.nanos) ∧
      (∀ count, (backoff.delays (count + 1)).head? = some step) ∧
      (∀ count, (backoff.delays count).Pairwise (· ≤ ·) ∧ ∀ delay ∈ backoff.delays count, delay ≤ most) ∧
      ∃ shorter, ∀ count, ∀ place < count, ∃ delay, (backoff.delays count)[place]? = some delay ∧
        (place < shorter → delay.nanos = (place + 1) * step.nanos ∧ delay.nanos < most.nanos) ∧
        (shorter ≤ place → delay = most) := by
  intro step most
  have bounds : backoff.normalized = ⟨step, most⟩ := backoff.normalized_eq
  have steps : backoff.normalized.step = step := congrArg Backoff.step bounds
  have mosts : backoff.normalized.most = most := congrArg Backoff.most bounds
  refine ⟨bounds, backoff.normalized_normalized, backoff.normalized_exchanged, fun count => ?_, fun count => ?_,
    fun count => ⟨?_, ?_⟩, backoff.shorter, fun count place inside => ⟨backoff.delay place, ?_, fun short => ?_, ?_⟩⟩
  · rw [delays_eq, List.map_map]
    refine List.map_congr_left fun place _ => ?_
    rw [← steps, ← mosts]
    exact backoff.delay_nanos place
  · rw [← steps]
    rfl
  · rw [delays_eq, List.pairwise_map]
    exact List.pairwise_lt_range.imp fun ordered => backoff.delay_mono (Nat.le_of_lt ordered)
  · intro delay member
    rw [delays_eq] at member
    obtain ⟨place, -, rfl⟩ := List.mem_map.mp member
    rw [Duration.le_iff, delay_nanos, ← mosts]
    exact Nat.min_le_right ..
  · rw [delays_eq, List.getElem?_map, List.getElem?_range inside]
    rfl
  · have below := (backoff.lt_shorter_iff place).mp short
    have exact := backoff.delay_of_lt_shorter short
    rw [← steps, ← mosts]
    omega
  · rw [← mosts]
    exact backoff.delay_of_shorter_le

/-- The second sum would be longer than any span. -/
example : ((Backoff.mk (Duration.ofNanos (longestNanos - 5)) Duration.longest).delays 3).map Duration.nanos =
    [longestNanos - 5, longestNanos, longestNanos] := by
  decide

end Backoff

end SequencedFeed
