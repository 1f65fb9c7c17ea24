import SequencedFeed.Proofs.Running
import SequencedFeed.Proofs.Sending
set_option autoImplicit false

/-!
# Runs at a standstill

Between two steps a client is at rest, and nothing happens to it until something is done to it or what it waits
for is there. A look at it changes nothing, and time may pass in as many parts as one likes. The moves by which
it came to rest could only lead there, however many of them were made at first.
-/

namespace SequencedFeed

theorem Stage.readLink?_later {stage : Stage} {link : Nat} (waits : stage.readLink? link = none) (instant : Nat) :
    Stage.readLink? { stage with now := instant } link = none := by
  unfold readLink? at waits ⊢
  split at waits
  · next nothing => simp only [nothing]
  · cases waits

namespace Client

variable {client client' : Client} {stage stage' : Stage}

/-- Rest lasts until the instant that is waited for. -/
theorem atRest_later (rest : client.atRest stage) {instant : Nat}
    (early : ∀ due, client.due? = some due → instant < due) : client.atRest { stage with now := instant } := by
  rw [atRest_iff, proceed?] at rest ⊢
  rw [due?] at early
  cases here : client.phase with
  | idle => rfl
  | hanging episode =>
      simp only [here] at rest ⊢
      split at rest
      · cases rest
      · next going => rw [if_neg going]
  | connecting | ready | looping | confirming => simp [here] at rest
  | dialling | retrying | backingOff =>
      simp only [here] at rest early ⊢
      split at rest
      · cases rest
      · next going => rw [if_neg going, if_neg (Nat.not_le_of_lt (early _ rfl))]
  | sinking start mark due =>
      simp only [here] at early ⊢
      exact if_neg (Nat.not_le_of_lt (early due rfl))
  | reading link since =>
      have waits : stage.readLink? link = none := by
        simp only [here, read?] at rest
        cases reads : stage.readLink? link with
        | none => rfl
        | some result => simp [reads] at rest
      simp only [here] at early ⊢
      rw [read?, Stage.readLink?_later waits instant]
      cases limit : client.idleDeadline? since with
      | none => rfl
      | some deadline => exact if_neg (Nat.not_le_of_lt (early deadline limit))
  | sending mark deadline =>
      simp only [here] at rest early ⊢
      unfold send? at rest ⊢
      cases observed : stage.channel with
      | none => simp [observed] at rest
      | some channel =>
          simp only [observed] at rest ⊢
          obtain ⟨⟨sending, channel'⟩, resumed⟩ : ∃ found, channel.resumeSend client.number mark deadline client.cancelled
            stage.now = found := ⟨_, rfl⟩
          rw [resumed] at rest
          cases sending with
          | ended how => cases rest
          | inLine later =>
              cases Channel.resumes_of_resumeSend resumed with
              | stay going ungranted isOpen early' =>
                  have ahead := Nat.not_le_of_lt (early deadline rfl)
                  simp [Channel.resumeSend, going, ungranted, isOpen, ahead]

/-! ### Coming to rest by any way -/

theorem moveUpTo_atRest (rest : client.atRest stage) (count : Nat) : moveUpTo count client stage = (client, stage) := by
  cases count with
  | zero => rfl
  | succ count =>
      have still : client.move? stage = none := rest
      simp only [moveUpTo, still]

theorem settle_atRest (rest : client.atRest stage) : client.settle stage = (client, stage) :=
  moveUpTo_atRest rest _

theorem Consistent.toil_lt_of_move (consistent : client.Consistent stage) (pauses : client.Pauses stage)
    (moved : client.move? stage = some (client', stage')) : client'.toil stage' < client.toil stage := by
  obtain ⟨next, around, moves, rfl, rfl⟩ := moves_of_move moved
  have less : next.toil around < client.toil stage := moves.toil_lt consistent pauses
  exact less

/-- However long a client may move, it comes to the same rest. -/
theorem Consistent.moveUpTo_enough (consistent : client.Consistent stage) (pauses : client.Pauses stage)
    {count count' : Nat} (enough : client.toil stage ≤ count) (enough' : client.toil stage ≤ count') :
    moveUpTo count client stage = moveUpTo count' client stage := by
  induction count generalizing client stage count' with
  | zero =>
      have rest : client.atRest stage := consistent.moveUpTo_atRest pauses enough
      rw [Client.moveUpTo_atRest rest, Client.moveUpTo_atRest rest]
  | succ count ih =>
      cases count' with
      | zero =>
          have rest : client.atRest stage := consistent.moveUpTo_atRest pauses enough'
          rw [Client.moveUpTo_atRest rest, Client.moveUpTo_atRest rest]
      | succ count' =>
          cases moved : client.move? stage with
          | none => simp only [moveUpTo, moved]
          | some next =>
              obtain ⟨client', stage'⟩ := next
              have acts : client.Acts stage client' stage' := .move moved
              have less := consistent.toil_lt_of_move pauses moved
              simp only [moveUpTo, moved]
              exact ih (consistent.acts acts) (acts.pauses pauses) (by omega) (by omega)

/-- The rest that a client comes to does not depend on the moves that it has made on the way. -/
theorem Consistent.settle_of_move (consistent : client.Consistent stage) (pauses : client.Pauses stage)
    (moved : client.move? stage = some (client', stage')) : client.settle stage = client'.settle stage' := by
  have acts : client.Acts stage client' stage' := .move moved
  have first : moveUpTo (client.work stage + client'.work stage' + 1) client stage =
      moveUpTo (client.work stage + client'.work stage') client' stage' := by
    simp only [moveUpTo, moved]
  have here : client.toil stage ≤ client.work stage := client.toil_le_work
  have there : client'.toil stage' ≤ client'.work stage' := client'.toil_le_work
  rw [settle, consistent.moveUpTo_enough pauses here
    (by omega : client.toil stage ≤ client.work stage + client'.work stage' + 1), first]
  exact (consistent.acts acts).moveUpTo_enough (acts.pauses pauses) (by omega) there

end Client

namespace ClientRun

/-- Nothing is going on: the client is at rest, and if it has no task, no call waits for that. -/
structure Still (run : ClientRun) : Prop extends run.Rested (fun _ _ _ => True) [] where
  collected : run.client.isIdle = true → run.waiting = 0

variable {run : ClientRun}

private theorem nothing_lasts : Client.Lasts fun _ _ _ => True :=
  ⟨fun _ _ _ => trivial, fun _ _ _ _ => trivial, fun _ _ => trivial, fun _ _ _ _ => trivial⟩

private theorem nothing_closes : Client.Closes fun _ _ _ => True :=
  fun _ => trivial

theorem collect_collected (run : ClientRun) : run.collect.client.isIdle = true → run.collect.waiting = 0 := by
  unfold collect
  split
  · exact fun _ => rfl
  · next busy => exact fun idle => absurd idle busy

theorem collect_of_collected (collected : run.client.isIdle = true → run.waiting = 0) : run.collect = run := by
  unfold collect
  split
  · next idle =>
      have none := collected idle
      obtain ⟨stage, client, waiting, stopped⟩ := run
      obtain rfl : waiting = 0 := none
      simp
  · rfl

theorem Still.settle (still : run.Still) : run.settle = run := by
  rw [ClientRun.settle, Client.settle_atRest still.rest]
  exact collect_of_collected still.collected

theorem Still.wake (still : run.Still) {instant : Nat} (passes : run.stage.now ≤ instant)
    (early : ∀ due, timed.due? run = some due → instant ≤ due) :
    (timed.wake instant run).Still ∧ (timed.wake instant run).stage.now = instant := by
  obtain ⟨rested, now⟩ := still.toRested.wake nothing_lasts passes early
  exact ⟨⟨rested, collect_collected _⟩, now⟩

theorem Still.wake_idle (still : run.Still) {instant : Nat} (early : ∀ due, timed.due? run = some due → instant < due) :
    timed.wake instant run = { run with stage := { run.stage with now := instant } } := by
  have rest : run.client.atRest { run.stage with now := instant } := Client.atRest_later still.rest early
  rw [wake_eq, ClientRun.settle, Client.settle_atRest rest]
  exact collect_of_collected still.collected

theorem Still.ahead (still : run.Still) {due : Nat} (waits : timed.due? run = some due) : run.stage.now < due :=
  Client.lt_due_of_atRest still.rest waits

theorem Still.pass_self (still : run.Still) : timed.pass run.stage.now run.stage.now run = run := by
  have awake : timed.pass run.stage.now run.stage.now run = timed.wake run.stage.now run := by
    rw [Timed.pass, Nat.sub_self, Timed.serve]
  rw [awake, still.wake_idle fun _ => still.ahead]

theorem Still.apply (still : run.Still) (step : ScenarioStep) : (run.apply step).1.Still :=
  ⟨{ still.toRested.apply nothing_lasts step (fun _ => @nothing_closes) with holds := trivial }, collect_collected _⟩

theorem Still.play (still : run.Still) (steps : List ScenarioStep) : (run.play steps).Still := by
  induction steps generalizing run with
  | nil => exact still
  | cons step rest ih => exact ih (still.apply step)

theorem still_make {stage : Stage} (opening : stage.Opening) {options : ClientOptions}
    (pauses : (stage.script options.endpoint.url).beyond.isSome = true → 0 < options.supervisorDelay.millis)
    (sink : SinkScript) : (make stage options sink).Still :=
  { consistent := (reachable_play opening options sink []).consistent
    pauses := pauses
    holds := trivial
    rest := rfl
    collected := fun _ => rfl }

private theorem wakes_kept (instant : Nat) (run : ClientRun) (still : run.Still) (passes : run.stage.now ≤ instant)
    (early : ∀ due, timed.due? run = some due → instant ≤ due) :
    (timed.wake instant run).Still ∧ (timed.wake instant run).stage.now = instant :=
  still.wake passes early

private theorem idles_kept (instant : Nat) (run : ClientRun) (still : run.Still) (_ : run.stage.now ≤ instant)
    (early : ∀ due, timed.due? run = some due → instant < due) :
    timed.due? (timed.wake instant run) = timed.due? run ∧
      ∀ later, timed.wake later (timed.wake instant run) = timed.wake later run := by
  rw [still.wake_idle early]
  exact ⟨rfl, fun _ => rfl⟩

/-- A sleep may be interrupted at any instant at which nothing is overdue. -/
theorem Still.pass_wake (still : run.Still) {instant finish : Nat} (passes : run.stage.now ≤ instant)
    (inTime : instant ≤ finish) (early : ∀ due, timed.due? run = some due → instant ≤ due) :
    timed.pass instant finish (timed.wake instant run) = timed.pass run.stage.now finish run :=
  Timed.pass_wake timed Still (fun run => run.stage.now) wakes_kept (fun _ _ still waits => still.ahead waits) idles_kept
    still passes inTime early

theorem Still.pass (still : run.Still) {finish : Nat} (passes : run.stage.now ≤ finish) :
    (timed.pass run.stage.now finish run).Still ∧ (timed.pass run.stage.now finish run).stage.now = finish :=
  Timed.pass_through timed Still (fun run => run.stage.now) wakes_kept (fun _ _ still waits => still.ahead waits)
    still passes

theorem Still.sleep_append (still : run.Still) (first second : Nat) :
    (run.apply (.sleep (first + second))).1 = ((run.apply (.sleep first)).1.apply (.sleep second)).1 := by
  have slept (run : ClientRun) (still : run.Still) (millis : Nat) :
      (run.apply (.sleep millis)).1 = timed.pass run.stage.now (run.stage.now + millis) run := by
    rw [apply_eq]
    exact (still.pass (Nat.le_add_right ..)).1.settle
  obtain ⟨part, now⟩ := still.pass (Nat.le_add_right run.stage.now first)
  rw [slept run still, slept run still, slept _ part, now, ← Nat.add_assoc]
  exact (Timed.pass_append timed Still (fun run => run.stage.now) wakes_kept (fun _ _ still waits => still.ahead waits)
    idles_kept still (Nat.le_add_right ..) (Nat.le_add_right ..)).symm

end ClientRun

end SequencedFeed
