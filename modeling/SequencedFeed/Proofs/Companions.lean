import SequencedFeed.Proofs.Mirrors
set_option autoImplicit false

/-!
# Steps that several clients share

The mates of the clients of a fleet run by themselves. Each of them is told what concerns it of what is done to the
fleet, and goes with its client through every step. In a sleep the fleet also wakes when one of its clients has
something to do, and then nothing happens to the mates of all others.
-/

namespace SequencedFeed

/-- What a step is to somebody whom only the connections of some names concern. -/
def ScenarioStep.only (concerned : String → Bool) : ScenarioStep → ScenarioStep
  | .push name item times => if concerned name then .push name item times else .look
  | .hangUp name => if concerned name then .hangUp name else .look
  | step => step

namespace Fleet

/-- A fleet whose clients have mates in runs of their own, which the connections concern that they have. -/
structure Accompanied (numberings : Nat → Renumbering) (concerns : Nat → String → Bool) (runs : Nat → ClientRun)
    (fleet : Fleet) : Prop where
  mirrored : fleet.Mirrored numberings fun place => ((runs place).client, (runs place).stage)
  still : ∀ place < fleet.clients.length, (runs place).Still
  concerned : ∀ place < fleet.clients.length, ∀ name link, Link.lastNamed? fleet.stage.links name = some link →
    (concerns place name = true ↔ ∃ own, (numberings place).number own = link)

variable {numberings : Nat → Renumbering} {concerns : Nat → String → Bool} {runs : Nat → ClientRun} {fleet : Fleet}

private theorem settle_runs (runs : Nat → ClientRun)
    (mirrored : fleet.Mirrored numberings fun place => ((runs place).client, (runs place).stage)) :
    fleet.settle.Mirrored numberings fun place => ((runs place).settle.client, (runs place).settle.stage) := by
  refine mirrored.settle.congr fun place _ => ?_
  unfold ClientRun.settle
  simp only [(ClientRun.collect_kept _).1, (ClientRun.collect_kept _).2]

namespace Accompanied

theorem alike (accompanied : fleet.Accompanied numberings concerns runs) {place : Nat} {client : Client}
    (found : fleet.clients[place]? = some client) :
    Alike (numberings place).likeness fleet.stage (client, fleet.stage) ((runs place).client, (runs place).stage) :=
  accompanied.mirrored.alike place client found

theorem now (accompanied : fleet.Accompanied numberings concerns runs) {place : Nat} (inside : place < fleet.clients.length) :
    (runs place).stage.now = fleet.stage.now :=
  (accompanied.alike (List.getElem?_eq_getElem inside)).stage.now.symm

theorem after (accompanied : fleet.Accompanied numberings concerns runs) {later : Fleet} {runs' : Nat → ClientRun}
    (reaches : fleet.Reaches later)
    (mirrored : later.Mirrored numberings fun place => ((runs' place).client, (runs' place).stage))
    (still : ∀ place < fleet.clients.length, (runs' place).Still) : later.Accompanied numberings concerns runs' := by
  refine ⟨mirrored, ?_, ?_⟩
  · rw [reaches.length]
    exact still
  · rw [reaches.length]
    intro place inside name link found
    rw [Link.lastNamed_eq reaches.names] at found
    exact accompanied.concerned place inside name link found

theorem congr (accompanied : fleet.Accompanied numberings concerns runs) {runs' : Nat → ClientRun}
    (same : ∀ place < fleet.clients.length, runs' place = runs place) : fleet.Accompanied numberings concerns runs' := by
  refine accompanied.after .refl (accompanied.mirrored.congr fun place inside => ?_) fun place inside => ?_
  · rw [same place inside]
  · rw [same place inside]
    exact accompanied.still place inside

/-! ### Time -/

theorem early (accompanied : fleet.Accompanied numberings concerns runs) {instant : Nat}
    (early : ∀ due, timed.due? fleet = some due → instant ≤ due) {place : Nat} (inside : place < fleet.clients.length)
    {due : Nat} (waits : ClientRun.timed.due? (runs place) = some due) : instant ≤ due := by
  have found := List.getElem?_eq_getElem inside
  have waits' : (fleet.clients[place]).due? = some due := (accompanied.alike found).due.trans waits
  have member : some due ∈ fleet.clients.map Client.due? := by
    rw [← waits']
    exact List.mem_map_of_mem (List.mem_of_getElem? found)
  obtain ⟨first, least, le⟩ := earliest?_le member
  exact Nat.le_trans (early first least) le

theorem ahead (accompanied : fleet.Accompanied numberings concerns runs) {due : Nat} (waits : timed.due? fleet = some due) :
    fleet.stage.now < due := by
  obtain ⟨client, member, waits'⟩ := List.mem_map.mp (mem_of_earliest? waits)
  obtain ⟨place, found⟩ := List.getElem?_of_mem member
  have inside := (List.getElem?_eq_some_iff.mp found).1
  rw [← accompanied.now inside]
  exact (accompanied.still place inside).ahead ((accompanied.alike found).due.symm.trans waits')

theorem wake (accompanied : fleet.Accompanied numberings concerns runs) {instant : Nat} (passes : fleet.stage.now ≤ instant)
    (early : ∀ due, timed.due? fleet = some due → instant ≤ due) :
    (timed.wake instant fleet).Accompanied numberings concerns fun place => ClientRun.timed.wake instant (runs place) := by
  have woken := settle_runs (fun place => { runs place with stage := { (runs place).stage with now := instant } })
    (accompanied.mirrored.time instant)
  refine accompanied.after (reaches_wake instant fleet) woken fun place inside => ?_
  have passes' : (runs place).stage.now ≤ instant := by
    rw [accompanied.now inside]
    exact passes
  exact ((accompanied.still place inside).wake passes' fun _ => accompanied.early early inside).1

theorem wake_now (accompanied : fleet.Accompanied numberings concerns runs) {instant : Nat} (passes : fleet.stage.now ≤ instant)
    (early : ∀ due, timed.due? fleet = some due → instant ≤ due) : (timed.wake instant fleet).stage.now = instant := by
  have woken := accompanied.wake passes early
  cases empty : fleet.clients with
  | nil =>
      have stays (fleet : Fleet) (empty : fleet.clients = []) : fleet.settle.stage = fleet.stage := by
        have round : fleet.round = fleet := by simp [Fleet.round, Fleet.turns, empty]
        rw [Fleet.settle, round, round, Fleet.collect]
        split <;> rfl
      exact congrArg Stage.now (stays { fleet with stage := { fleet.stage with now := instant } } empty)
  | cons first rest =>
      have inside : 0 < fleet.clients.length := by simp [empty]
      have length : (timed.wake instant fleet).clients.length = fleet.clients.length := (reaches_wake instant fleet).length
      have passes' : (runs 0).stage.now ≤ instant := by
        rw [accompanied.now inside]
        exact passes
      rw [← woken.now (length.symm ▸ inside)]
      exact ((accompanied.still 0 inside).wake passes' fun _ => accompanied.early early inside).2

/-- A sleep of the fleet is one of every mate. -/
theorem pass (accompanied : fleet.Accompanied numberings concerns runs) {finish : Nat} (before : fleet.stage.now ≤ finish) :
    (timed.pass fleet.stage.now finish fleet).Accompanied numberings concerns fun place =>
      ClientRun.timed.pass (runs place).stage.now finish (runs place) := by
  -- whenever the fleet is woken, the mates that have slept up to then sleep on as if they had not been woken
  let kept (later : Fleet) : Prop := ∃ runs', later.Accompanied numberings concerns runs' ∧ fleet.Reaches later ∧
    (later.stage.now ≤ finish → ∀ place < fleet.clients.length,
      ClientRun.timed.pass (runs' place).stage.now finish (runs' place) =
        ClientRun.timed.pass (runs place).stage.now finish (runs place))
  have wakes (instant : Nat) (later : Fleet) (held : kept later) (passes : later.stage.now ≤ instant)
      (early : ∀ due, timed.due? later = some due → instant ≤ due) :
      kept (timed.wake instant later) ∧ (timed.wake instant later).stage.now = instant := by
    obtain ⟨runs', with_runs, reaches, same⟩ := held
    have woken := with_runs.wake passes early
    have now := with_runs.wake_now passes early
    refine ⟨⟨_, woken, reaches.trans (reaches_wake instant later), fun inTime place inside => ?_⟩, now⟩
    rw [now] at inTime
    have inside' : place < later.clients.length := reaches.length.symm ▸ inside
    have here := with_runs.now inside'
    have passes' : (runs' place).stage.now ≤ instant := here.symm ▸ passes
    have still := with_runs.still place inside'
    have early' (due : Nat) (waits : ClientRun.timed.due? (runs' place) = some due) : instant ≤ due :=
      with_runs.early early inside' waits
    rw [(still.wake passes' early').2, still.pass_wake passes' inTime early']
    exact same (Nat.le_trans passes inTime) place inside
  obtain ⟨⟨runs', with_runs, reaches, same⟩, finished⟩ := Timed.pass_through timed kept (fun later => later.stage.now) wakes
    (fun later due held waits => held.elim fun _ held => held.1.ahead waits)
    ⟨runs, accompanied, .refl, fun _ _ _ => rfl⟩ before
  refine with_runs.congr fun place inside => ?_
  rw [reaches.length] at inside
  rw [← same (Nat.le_of_eq finished) place inside]
  have here := (with_runs.now (reaches.length.symm ▸ inside)).trans finished
  have rests := with_runs.still place (reaches.length.symm ▸ inside)
  generalize runs' place = run at here rests ⊢
  rw [← here]
  exact rests.pass_self

/-! ### Steps -/

private theorem begin (accompanied : fleet.Accompanied numberings concerns runs) (step : ScenarioStep) :
    (fleet.begin step).1.Mirrored numberings fun place =>
      (((runs place).begin (step.only (concerns place))).1.client, ((runs place).begin (step.only (concerns place))).1.stage) := by
  have mirrored := accompanied.mirrored
  cases step with
  | look => exact mirrored
  | start => exact mirrored.start
  | cancel => exact mirrored.cancel
  | stop => exact mirrored.stop.aside _ _ _
  | sleep millis =>
      refine (accompanied.pass (Nat.le_add_right fleet.stage.now millis)).mirrored.congr fun place inside => ?_
      have inside : place < fleet.clients.length := (reaches_begin fleet (.sleep millis)).length ▸ inside
      simp only [ScenarioStep.only, ClientRun.begin, accompanied.now inside]
  | push name item times =>
      have sends := Link.repeat_onlySends (Link.push_onlySends item) times
      refine (mirrored.changeNamed name sends (.push name item times) fun place inside =>
        accompanied.concerned place inside name).congr fun place _ => ?_
      simp only [ScenarioStep.only]
      split <;> rfl
  | hangUp name =>
      refine (mirrored.changeNamed name Link.hangUp_onlySends (.hangUp name) fun place inside =>
        accompanied.concerned place inside name).congr fun place _ => ?_
      simp only [ScenarioStep.only]
      split <;> rfl
  | receive most =>
      refine (mirrored.receive most).congr fun place inside => ?_
      have silent : (runs place).stage.channel = none := (mirrored.tame place inside).silent
      simp only [ScenarioStep.only, ClientRun.begin, Stage.receive_silent silent]
  | closeReceiver =>
      refine mirrored.closeReceiver.congr fun place inside => ?_
      have silent : (runs place).stage.channel = none := (mirrored.tame place inside).silent
      simp only [ScenarioStep.only, ClientRun.begin, Stage.closeReceiver_silent silent]

theorem apply (accompanied : fleet.Accompanied numberings concerns runs) (step : ScenarioStep) :
    (fleet.apply step).1.Accompanied numberings concerns fun place =>
      ((runs place).apply (step.only (concerns place))).1 := by
  have settled := settle_runs (fun place => ((runs place).begin (step.only (concerns place))).1) (accompanied.begin step)
  exact accompanied.after (reaches_apply fleet step) settled fun place inside => (accompanied.still place inside).apply _

theorem play (accompanied : fleet.Accompanied numberings concerns runs) (steps : List ScenarioStep) :
    (fleet.play steps).Accompanied numberings concerns fun place =>
      (runs place).play (steps.map (ScenarioStep.only (concerns place))) := by
  induction steps generalizing fleet runs with
  | nil => exact accompanied
  | cons step rest ih => exact ih (accompanied.apply step)

end Accompanied

end Fleet

end SequencedFeed
