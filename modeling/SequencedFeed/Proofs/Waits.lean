import SequencedFeed.Endpoint
import SequencedFeed.Timeline
set_option autoImplicit false

/-!
# The waits of a back-off

The recursion by which waits follow each other has a closed form: the wait grows by one step with every
failed attempt until it is the longest. Whole spans of milliseconds pass without being rounded up, so the
closed form also holds on a virtual clock.
-/

namespace SequencedFeed

namespace Duration

def IsWhole (span : Duration) : Prop :=
  1000000 ∣ span.nanos

theorem IsWhole.millis_eq {span : Duration} (whole : span.IsWhole) : span.millis * 1000000 = span.nanos := by
  obtain ⟨count, same⟩ := whole
  unfold millis
  omega

theorem millis_pos {span : Duration} (least : 1000000 ≤ span.nanos) : 0 < span.millis := by
  unfold millis
  omega

theorem IsWhole.min {left right : Duration} (first : left.IsWhole) (second : right.IsWhole) :
    (min left right).IsWhole := by
  unfold IsWhole
  rw [nanos_min]
  rcases Nat.le_total left.nanos right.nanos with ordered | ordered
  · rw [Nat.min_eq_left ordered]
    exact first
  · rw [Nat.min_eq_right ordered]
    exact second

theorem IsWhole.max {left right : Duration} (first : left.IsWhole) (second : right.IsWhole) :
    (max left right).IsWhole := by
  unfold IsWhole
  rw [nanos_max]
  rcases Nat.le_total left.nanos right.nanos with ordered | ordered
  · rw [Nat.max_eq_right ordered]
    exact second
  · rw [Nat.max_eq_left ordered]
    exact first

end Duration

namespace Backoff

variable (backoff : Backoff)

theorem least_nanos : least.nanos = 1000000 :=
  rfl

theorem least_le_step : 1000000 ≤ backoff.normalized.step.nanos := by
  simp only [normalized, Duration.nanos_min, Duration.nanos_max, least_nanos]
  omega

theorem step_le_most : backoff.normalized.step.nanos ≤ backoff.normalized.most.nanos := by
  simp only [normalized, Duration.nanos_min, Duration.nanos_max]
  omega

/-- The wait after so many failed attempts grows by a step with each of them, up to the longest wait. -/
theorem delay_nanos (failed : Nat) :
    (backoff.delay failed).nanos =
      min ((failed + 1) * backoff.normalized.step.nanos) backoff.normalized.most.nanos := by
  have ordered := backoff.step_le_most
  have limit := backoff.normalized.most.nanos_le
  induction failed with
  | zero =>
      rw [delay, first]
      omega
  | succ failed ih =>
      -- a sum that is cut off at the longest span is past the longest wait
      have grows : (failed + 1 + 1) * backoff.normalized.step.nanos =
          (failed + 1) * backoff.normalized.step.nanos + backoff.normalized.step.nanos := Nat.succ_mul ..
      rw [delay, next, Duration.nanos_min, Duration.nanos_add, ih, grows]
      omega

theorem next_pos (wait : Duration) : 0 < (backoff.next wait).millis := by
  have least := backoff.least_le_step
  have ordered := backoff.step_le_most
  have limit := backoff.normalized.most.nanos_le
  refine Duration.millis_pos ?_
  rw [next, Duration.nanos_min, Duration.nanos_add]
  omega

theorem first_pos : 0 < backoff.first.millis :=
  Duration.millis_pos backoff.least_le_step

variable {backoff}

theorem normalized_whole (step : backoff.step.IsWhole) (most : backoff.most.IsWhole) :
    backoff.normalized.step.IsWhole ∧ backoff.normalized.most.IsWhole := by
  have least : least.IsWhole := Nat.dvd_refl _
  exact ⟨(step.max least).min (most.max least), (step.max least).max (most.max least)⟩

theorem delay_millis (step : backoff.step.IsWhole) (most : backoff.most.IsWhole) (failed : Nat) :
    (backoff.delay failed).millis =
      min ((failed + 1) * backoff.normalized.step.millis) backoff.normalized.most.millis := by
  obtain ⟨wholeStep, wholeMost⟩ := normalized_whole step most
  have wait := backoff.delay_nanos failed
  rw [← wholeStep.millis_eq, ← wholeMost.millis_eq, ← Nat.mul_assoc] at wait
  rw [Duration.millis, wait]
  omega

end Backoff

namespace ClientOptions

/-- All waits before a dial are whole milliseconds, and no timer is too short for them. -/
structure TellsTime (options : ClientOptions) : Prop where
  supervisor : options.supervisorDelay.IsWhole
  step : options.backoff.step.IsWhole
  most : options.backoff.most.IsWhole
  supervisor_le : options.supervisorDelay.millis ≤ longestWait
  step_le : options.backoff.step.millis ≤ longestWait
  most_le : options.backoff.most.millis ≤ longestWait

variable {options : ClientOptions}

theorem TellsTime.delay_le (tells : options.TellsTime) (failed : Nat) :
    (options.backoff.delay failed).millis ≤ longestWait := by
  have limit : 1 ≤ longestWait := by decide
  have step := tells.step_le
  have most := tells.most_le
  have wait := options.backoff.delay_nanos failed
  simp only [Backoff.normalized, Duration.nanos_min, Duration.nanos_max, Backoff.least_nanos] at wait
  unfold Duration.millis at step most ⊢
  omega

theorem standard_tellsTime (url : String) : (standard url).TellsTime := by
  refine ⟨?_, ?_, ?_, ?_, ?_, ?_⟩
  · exact (by decide : 1000000 ∣ defaultSupervisorDelay.nanos)
  · exact (by decide : 1000000 ∣ Backoff.standard.step.nanos)
  · exact (by decide : 1000000 ∣ Backoff.standard.most.nanos)
  · exact (by decide : defaultSupervisorDelay.millis ≤ longestWait)
  · exact (by decide : Backoff.standard.step.millis ≤ longestWait)
  · exact (by decide : Backoff.standard.most.millis ≤ longestWait)

end ClientOptions

end SequencedFeed
