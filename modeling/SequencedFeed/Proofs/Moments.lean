import SequencedFeed.Proofs.Standstill
set_option autoImplicit false

/-!
# The moments of a run

A run is cut into single milliseconds: its moments are the states that it rests in, one behind every step and
one at every instant that a sleep passes. From one moment to the next either one thing is done to the client or
around it, or one millisecond passes, and then the client moves until it rests again.
-/

namespace SequencedFeed

namespace ScenarioStep

def ticks : ScenarioStep → List ScenarioStep
  | .sleep millis => List.replicate millis (.sleep 1)
  | step => [step]

def millis : ScenarioStep → Nat
  | .sleep millis => millis
  | _ => 0

/-- A step that lets no more than a millisecond pass, and a sleep of no other length. -/
def IsTick (step : ScenarioStep) : Prop :=
  ∀ millis, step = .sleep millis → millis = 1

theorem isTick_sleep : (sleep 1).IsTick :=
  fun _ same => (ScenarioStep.sleep.inj same).symm

theorem isTick_of_mem {step tick : ScenarioStep} (member : tick ∈ step.ticks) : tick.IsTick := by
  cases step with
  | sleep millis =>
      obtain rfl := List.eq_of_mem_replicate member
      exact isTick_sleep
  | _ =>
      obtain rfl := List.mem_singleton.mp member
      exact fun other same => by cases same

theorem IsTick.eq_sleep {step : ScenarioStep} (tick : step.IsTick) (passes : 0 < step.millis) : step = .sleep 1 := by
  cases step with
  | sleep millis => rw [tick millis rfl]
  | _ => exact absurd passes (Nat.lt_irrefl 0)

end ScenarioStep

namespace ClientRun

def ticks (steps : List ScenarioStep) : List ScenarioStep :=
  steps.flatMap ScenarioStep.ticks

/-- The state that a run rests in after so many of its ticks. -/
def moment (run : ClientRun) (steps : List ScenarioStep) (place : Nat) : ClientRun :=
  run.play ((ticks steps).take place)

variable {run : ClientRun} {steps : List ScenarioStep} {place : Nat}

theorem isTick_of_getElem (inside : place < (ticks steps).length) : ((ticks steps)[place]).IsTick := by
  obtain ⟨step, -, member⟩ := List.mem_flatMap.mp (List.getElem_mem inside)
  exact ScenarioStep.isTick_of_mem member

theorem Still.sleep_zero (still : run.Still) : (run.apply (.sleep 0)).1 = run := by
  have begun : (run.begin (.sleep 0)).1 = timed.pass run.stage.now run.stage.now run := by
    simp only [begin, Nat.add_zero]
  rw [apply_eq, begun, still.pass_self, still.settle]

theorem Still.play_step (still : run.Still) (step : ScenarioStep) : run.play step.ticks = (run.apply step).1 := by
  cases step with
  | sleep millis =>
      change run.play (List.replicate millis (.sleep 1)) = _
      induction millis generalizing run with
      | zero => exact still.sleep_zero.symm
      | succ millis ih =>
          rw [List.replicate_succ, play_cons, ih (still.apply _), ← still.sleep_append, Nat.add_comm]
  | _ => rfl

/-- The ticks of a run come to the same as its steps. -/
theorem Still.play_ticks (still : run.Still) (steps : List ScenarioStep) : run.play (ticks steps) = run.play steps := by
  induction steps generalizing run with
  | nil => rfl
  | cons step rest ih =>
      rw [ticks, List.flatMap_cons, play_append, still.play_step]
      exact ih (still.apply step)

theorem Still.moment_last (still : run.Still) (steps : List ScenarioStep) :
    run.moment steps (ticks steps).length = run.play steps := by
  rw [moment, List.take_length, still.play_ticks]

theorem Still.moment (still : run.Still) (steps : List ScenarioStep) (place : Nat) : (run.moment steps place).Still :=
  still.play _

theorem moment_succ (run : ClientRun) (inside : place < (ticks steps).length) :
    run.moment steps (place + 1) = ((run.moment steps place).apply (ticks steps)[place]).1 := by
  rw [moment, List.take_add_one, List.getElem?_eq_getElem inside, play_append]
  rfl

theorem moment_reaches (run : ClientRun) (steps : List ScenarioStep) {first last : Nat} (ordered : first ≤ last) :
    (run.moment steps first).Reaches (run.moment steps last) := by
  obtain ⟨rest, split⟩ := List.take_prefix_take_left (l := ticks steps) ordered
  rw [moment, moment, ← split, play_append]
  exact reaches_play _ rest

/-! ### One tick -/

/-- What a tick changes before the client moves. -/
def touched (run : ClientRun) : ScenarioStep → ClientRun
  | .sleep millis => { run with stage := { run.stage with now := run.stage.now + millis } }
  | step => (run.begin step).1

theorem Still.apply_tick (still : run.Still) {step : ScenarioStep} (tick : step.IsTick) :
    (run.apply step).1 = (run.touched step).settle := by
  cases step with
  | sleep millis =>
      obtain rfl := tick millis rfl
      have early : ∀ due, timed.due? run = some due → run.stage.now + 1 ≤ due := fun due waits => still.ahead waits
      obtain ⟨woken, now⟩ := still.wake (Nat.le_succ run.stage.now) early
      have passes : timed.pass run.stage.now (run.stage.now + 1) run = timed.wake (run.stage.now + 1) run := by
        rw [← still.pass_wake (Nat.le_succ _) (Nat.le_refl _) early]
        have rests := woken.pass_self
        rwa [now] at rests
      have begun : (run.begin (.sleep 1)).1 = timed.pass run.stage.now (run.stage.now + 1) run := by simp only [begin]
      rw [apply_eq, begun, passes, woken.settle]
      exact wake_eq (run.stage.now + 1) run
  | _ => exact apply_eq run _

theorem touched_reaches (run : ClientRun) (step : ScenarioStep) : run.Reaches (run.touched step) := by
  cases step with
  | sleep millis => exact .single (.around (.time _))
  | _ => exact reaches_begin run _

theorem touched_now (run : ClientRun) (step : ScenarioStep) :
    (run.touched step).stage.now = run.stage.now + step.millis := by
  cases step with
  | stop =>
      obtain ⟨links, same⟩ := Client.stop_links run.client run.stage
      change (run.client.stop run.stage).2.now = _
      rw [same]
      rfl
  | push name item times => exact Stage.changeNamed_now ..
  | hangUp name => exact Stage.changeNamed_now ..
  | receive most => exact Stage.receive_now ..
  | _ => rfl

theorem phase_touched {step : ScenarioStep} {link since : Nat}
    (here : (run.touched step).client.phase = .reading link since) : run.client.phase = .reading link since := by
  cases step with
  | start =>
      change (run.client.start run.stage).phase = _ at here
      have starts := run.client.start_starts run.stage
      generalize run.client.start run.stage = started at starts here
      cases starts with
      | report barred known => exact here
      | first enabled unstarted => cases here
  | stop =>
      change (run.client.stop run.stage).1.phase = _ at here
      rw [Client.stop_eq] at here
      exact here
  | _ => exact here

theorem takenFrom_touched (run : ClientRun) (step : ScenarioStep) (link : Nat) :
    (run.touched step).stage.takenFrom link = run.stage.takenFrom link := by
  cases step with
  | stop =>
      change (run.client.stop run.stage).2.takenFrom link = _
      rw [Client.stop_eq]
      exact Stage.takenFrom_closeHeld
  | push name item times =>
      exact (Stage.changeNamed_grows (Link.repeat_onlySends (Link.push_onlySends item) times) name).taken link
  | hangUp name => exact (Stage.changeNamed_grows Link.hangUp_onlySends name).taken link
  | receive most => exact (Stage.Changes.receive most).grows.taken link
  | _ => rfl

end ClientRun

end SequencedFeed
