import SequencedFeed.Proofs.Cancelling
import SequencedFeed.Proofs.Moments
import SequencedFeed.Proofs.Silences
set_option autoImplicit false

/-!
# Connections that are dropped because nothing came

A client that goes on drops a connection for its silence in one way: a read begins, nothing comes on the
connection, and the millisecond passes at the end of which the deadline of that read lies. A tick leaves the
read that a client is parked in as it is, or the read that is there behind it began in that very instant. So
each read can be followed back over the moments of a run to the one in which it began, and each drop to the
tick that made the read overdue.
-/

namespace SequencedFeed

namespace Client

variable {client client' : Client} {stage : Stage}

theorem idleDeadline?_congr (same : client'.options = client.options) (since : Nat) :
    client'.idleDeadline? since = client.idleDeadline? since := by
  unfold idleDeadline?
  rw [same]

theorem mem_of_failedRead {history : List (Nat × Occurrence)} {time link : Nat} {error : TransportError}
    (noted : (time, link, error) ∈ history.filterMap fun entry => entry.2.failedRead?.map (Prod.mk entry.1)) :
    (time, .read link (.error error)) ∈ history := by
  obtain ⟨⟨instant, occurrence⟩, member, viewed⟩ := List.mem_filterMap.mp noted
  obtain ⟨failed, view, same⟩ := Option.map_eq_some_iff.mp viewed
  cases occurrence with
  | read other result =>
      cases result with
      | ok frame => cases view
      | error cause =>
          cases view
          cases same
          exact member
  | _ => cases view

end Client

namespace ClientRun

variable {run later : ClientRun} {step : ScenarioStep} {link since time : Nat}

/-- A run between two steps in which the client goes on. -/
structure Goes (run : ClientRun) : Prop where
  still : run.Still
  reachable : run.Reachable
  going : run.client.shouldStop = false

theorem Reachable.going (reachable : run.Reachable) (reaches : run.Reaches later)
    (uncancelled : later.stage.tokenCancelled = false) (unstopped : later.client.isShuttingDown = false) :
    run.client.shouldStop = false := by
  have isOpen : run.client.isShuttingDown = false := by
    refine Bool.eq_false_iff.mpr fun stopped => ne_true_of_eq_false unstopped ?_
    exact reaches.keeps (fun state => state.client.isShuttingDown = true) reachable stopped
      fun _ stopped step => step.stopped stopped
  refine Bool.or_eq_false_iff.mpr ⟨Bool.eq_false_iff.mpr fun cancelled => ?_, isOpen⟩
  rcases reachable.endures.bidden cancelled with token | stopped
  · exact ne_true_of_eq_false uncancelled (reaches.callsOff reachable token).token
  · exact ne_true_of_eq_false isOpen stopped

theorem Goes.sentOn_eq (goes : run.Goes) (here : run.client.phase = .reading link since) :
    run.stage.sentOn link = (run.client.framesRead link).map .ok := by
  have held := goes.still.consistent.held_of_reading here (Client.going_of_shouldStop goes.going).2
  have nothing := Stage.sentOn_length_le (Client.waits_of_rest goes.still.rest here)
  exact goes.reachable.delivers.sent_eq held (by simp [here]) nothing

theorem Goes.takenFrom_eq (goes : run.Goes) (here : run.client.phase = .reading link since) :
    run.stage.takenFrom link = (run.stage.sentOn link).length := by
  have held := goes.still.consistent.held_of_reading here (Client.going_of_shouldStop goes.going).2
  rw [goes.sentOn_eq here, List.length_map, goes.reachable.delivers.clean link held (by simp [here])]

theorem Goes.handled (goes : run.Goes) (here : run.client.phase = .reading link since) :
    run.client.sinkCalls.map Prod.snd = (run.client.installs.flatMap fun link =>
        (run.client.framesRead link).filterMap SinkCall.ofFrame?) ∧
      run.client.sinkCalls.length = (seen Occurrence.sinkReturn? run.client.history).length := by
  have delivers := goes.reachable.delivers
  have returned := delivers.returned
  rw [← Client.sinkCalls_eq_seen, List.length_map, here] at returned
  exact ⟨delivers.calls_eq, returned⟩

/-! ### One tick -/

theorem settle_comesTo (consistent : run.client.Consistent run.stage) :
    run.client.ComesTo run.stage run.settle.client run.settle.stage := by
  rw [settle, (collect_kept _).1, (collect_kept _).2]
  exact consistent.comesTo _

theorem touched_readsAside (run : ClientRun) (step : ScenarioStep) :
    Client.ReadsAside run.client.history (run.touched step).client.history := by
  have same : Client.ReadsAside run.client.history run.client.history := .of_eq rfl
  cases step with
  | start =>
      have starts := run.client.start_starts run.stage
      change Client.ReadsAside run.client.history (run.client.start run.stage).history
      generalize run.client.start run.stage = started at starts ⊢
      cases starts with
      | report barred => exact same.cons _ rfl
      | first enabled unstarted => exact same
  | stop =>
      change Client.ReadsAside run.client.history (run.client.stop run.stage).1.history
      rw [Client.stop_eq]
      exact same.cons _ rfl
  | _ => exact same

/-- A client is parked in a read whose deadline is a millisecond away. -/
structure RunsOut (run : ClientRun) (link since : Nat) : Prop where
  reads : run.client.phase = .reading link since
  deadline : run.client.idleDeadline? since = some (run.stage.now + 1)

/-- A read only gets overdue in the millisecond that ends with its deadline, for at rest nothing is overdue. -/
theorem Still.runsOut (still : run.Still) (tick : step.IsTick)
    (overdue : (run.touched step).client.Overdue (run.touched step).stage link) :
    step = .sleep 1 ∧ ∃ since, run.RunsOut link since := by
  obtain ⟨since, deadline, here, -, limit, late⟩ := overdue
  have reads := phase_touched here
  rw [Client.idleDeadline?_congr (run.touched_reaches step).settings.1] at limit
  have waits : timed.due? run = some deadline := by
    change run.client.due? = some deadline
    rw [Client.due?, reads]
    exact limit
  have ahead := still.ahead waits
  rw [touched_now] at late
  obtain rfl := tick.eq_sleep (by omega)
  obtain rfl : deadline = run.stage.now + 1 := Nat.le_antisymm late ahead
  exact ⟨rfl, since, reads, limit⟩

theorem Goes.apply_now (goes : run.Goes) (tick : step.IsTick) :
    (run.apply step).1.stage.now = run.stage.now + step.millis := by
  have consistent := (goes.reachable.later (run.touched_reaches step)).consistent
  rw [goes.still.apply_tick tick, (settle_comesTo consistent).now, touched_now]

theorem Goes.noted (goes : run.Goes) (tick : step.IsTick) {limit : Duration}
    (noted : (time, .read link (.error (.idleTimeout limit))) ∈ (run.apply step).1.client.history) :
    (time, .read link (.error (.idleTimeout limit))) ∈ run.client.history ∨
      (run.apply step).1.stage.Broke link ∨
        step = .sleep 1 ∧ time = run.stage.now + 1 ∧ ∃ since, run.RunsOut link since := by
  have consistent := (goes.reachable.later (run.touched_reaches step)).consistent
  have comes := settle_comesTo consistent
  rw [goes.still.apply_tick tick] at noted ⊢
  rcases comes.silence noted with before | broke | ⟨now, overdue⟩
  · exact .inl ((run.touched_readsAside step).mem before)
  · exact .inr (.inl broke)
  · obtain ⟨rfl, out⟩ := goes.still.runsOut tick overdue
    rw [touched_now] at now
    exact .inr (.inr ⟨rfl, now, out⟩)

/-- The millisecond that ends with the deadline is the end of the connection. -/
theorem Goes.loses (goes : run.Goes) (out : run.RunsOut link since) :
    (run.apply (.sleep 1)).1.client.LostToSilence (run.apply (.sleep 1)).1.stage link (run.stage.now + 1) := by
  obtain ⟨reads, deadline⟩ := out
  rw [goes.still.apply_tick ScenarioStep.isTick_sleep]
  have reachable := goes.reachable.later (run.touched_reaches (.sleep 1))
  have waits := Stage.readLink?_later (Client.waits_of_rest goes.still.rest reads) (run.stage.now + 1)
  have pauses : (run.touched (.sleep 1)).client.Pauses (run.touched (.sleep 1)).stage :=
    (run.touched_reaches (.sleep 1)).settings.2 goes.still.pauses
  obtain ⟨next, around, moved, lost⟩ := reachable.consistent.loses reachable.delivers goes.going reads waits deadline
    (Nat.le_refl _)
  have onward : Step (run.touched (.sleep 1)) { run.touched (.sleep 1) with client := next, stage := around } :=
    .move moved
  have same : (run.touched (.sleep 1)).settle =
      settle { run.touched (.sleep 1) with client := next, stage := around } := by
    simp only [settle, reachable.consistent.settle_of_move pauses moved]
  rw [same]
  exact (reaches_settle _).lost (reachable.later onward.reaches) lost

theorem Goes.reads (goes : run.Goes) (tick : step.IsTick) (goes' : (run.apply step).1.Goes)
    (here : (run.apply step).1.client.phase = .reading link since) :
    since = (run.apply step).1.stage.now ∨ run.client.phase = .reading link since ∧
      (run.apply step).1.stage.sentOn link = run.stage.sentOn link := by
  have consistent := (goes.reachable.later (run.touched_reaches step)).consistent
  have comes := settle_comesTo consistent
  have applied := goes.still.apply_tick tick
  rw [← applied] at comes
  rcases comes.begins here with begun | ⟨client, stage⟩
  · exact .inl (begun.trans comes.now.symm)
  · -- the client has not moved, so nothing was taken, and what is taken at rest is all that was sent
    have before := phase_touched (client ▸ here)
    have taken := run.takenFrom_touched step link
    rw [← stage, goes.takenFrom_eq before, goes'.takenFrom_eq here] at taken
    have grows := ((reaches_apply run step).retains goes.reachable).sent link
    exact .inr ⟨before, (grows.eq_of_length taken.symm).symm⟩

/-! ### The moments of a run -/

/-- From one moment to another a client stays in a single read, which begins at the first of them, and nothing
comes on its connection. -/
structure Parked (moment : Nat → ClientRun) (link first last : Nat) : Prop where
  ordered : first ≤ last
  reads : ∀ place ≤ last, first ≤ place → (moment place).client.phase = .reading link (moment first).stage.now
  silent : ∀ place ≤ last, first ≤ place →
    (moment place).stage.sentOn link = (moment first).stage.sentOn link ∧
      (moment place).stage.hungUpOn link = (moment first).stage.hungUpOn link

theorem Parked.begin {moment : Nat → ClientRun} {place : Nat}
    (here : (moment place).client.phase = .reading link (moment place).stage.now) :
    Parked moment link place place where
  ordered := Nat.le_refl _
  reads other most least := by rwa [Nat.le_antisymm most least]
  silent other most least := by
    rw [Nat.le_antisymm most least]
    exact ⟨rfl, rfl⟩

theorem Parked.succ {moment : Nat → ClientRun} {first place : Nat} (parked : Parked moment link first place)
    (here : (moment (place + 1)).client.phase = .reading link (moment first).stage.now)
    (sent : (moment (place + 1)).stage.sentOn link = (moment place).stage.sentOn link)
    (gone : (moment (place + 1)).stage.hungUpOn link = (moment place).stage.hungUpOn link) :
    Parked moment link first (place + 1) where
  ordered := Nat.le_succ_of_le parked.ordered
  reads other most least := by
    rcases Nat.le_succ_iff.mp most with before | rfl
    · exact parked.reads other before least
    · exact here
  silent other most least := by
    rcases Nat.le_succ_iff.mp most with before | rfl
    · exact parked.silent other before least
    · obtain ⟨sent', gone'⟩ := parked.silent place (Nat.le_refl _) parked.ordered
      exact ⟨sent.trans sent', gone.trans gone'⟩

/-- The moments of a run in all of which the client goes on, from before its start. -/
structure Progress (moment : Nat → ClientRun) (last : Nat) : Prop where
  goes : ∀ place ≤ last, (moment place).Goes
  ticks : ∀ place < last, ∃ step : ScenarioStep, step.IsTick ∧ moment (place + 1) = ((moment place).apply step).1
  reaches : ∀ {first place : Nat}, first ≤ place → (moment first).Reaches (moment place)
  fresh : (moment 0).client.history = [] ∧ (moment 0).client.phase = .idle

namespace Progress

variable {moment : Nat → ClientRun} {first place last : Nat}

theorem now_le (progress : Progress moment last) (ordered : first ≤ place) (inside : place ≤ last) :
    (moment first).stage.now ≤ (moment place).stage.now := by
  induction ordered with
  | refl => exact Nat.le_refl _
  | @step place ordered ih =>
      obtain ⟨step, tick, next⟩ := progress.ticks place inside
      rw [next, (progress.goes place (Nat.le_of_succ_le inside)).apply_now tick]
      exact Nat.le_trans (ih (Nat.le_of_succ_le inside)) (Nat.le_add_right ..)

theorem parked (progress : Progress moment last) (inside : place ≤ last)
    (here : (moment place).client.phase = .reading link since) :
    ∃ first, (moment first).stage.now = since ∧ Parked moment link first place := by
  induction place generalizing since with
  | zero =>
      rw [progress.fresh.2] at here
      cases here
  | succ place ih =>
      obtain ⟨step, tick, next⟩ := progress.ticks place inside
      have goes := progress.goes place (Nat.le_of_succ_le inside)
      have goes' := progress.goes (place + 1) inside
      have gone := Stage.hungUpOn_of_waits (Client.waits_of_rest goes'.still.rest here)
      rw [next] at goes' here
      rcases goes.reads tick goes' here with begun | ⟨before, sent⟩
      · refine ⟨place + 1, ?_, .begin ?_⟩
        · rw [next, begun]
        · rw [next, here, begun]
      · obtain ⟨first, now, parked⟩ := ih (Nat.le_of_succ_le inside) before
        refine ⟨first, now, parked.succ ?_ ?_ ?_⟩
        · rw [next, here, now]
        · rw [next, sent]
        · rw [gone, Stage.hungUpOn_of_waits (Client.waits_of_rest goes.still.rest before)]

theorem runsOut (progress : Progress moment last) (inside : place ≤ last) {limit : Duration}
    (noted : (time, .read link (.error (.idleTimeout limit))) ∈ (moment place).client.history) :
    (moment place).stage.Broke link ∨ ∃ before < place, moment (before + 1) = ((moment before).apply (.sleep 1)).1 ∧
      time = (moment before).stage.now + 1 ∧ ∃ since, (moment before).RunsOut link since := by
  -- back to the tick that left the read behind; an error that was taken before stays taken
  induction place with
  | zero =>
      rw [progress.fresh.1] at noted
      cases noted
  | succ place ih =>
      obtain ⟨step, tick, next⟩ := progress.ticks place inside
      have goes := progress.goes place (Nat.le_of_succ_le inside)
      rw [next] at noted
      rcases goes.noted tick noted with old | broke | ⟨rfl, now, out⟩
      · rcases ih (Nat.le_of_succ_le inside) old with broke | ⟨before, earlier, found⟩
        · refine .inl (Stage.Retains.broke ?_ broke)
          rw [next]
          exact (reaches_apply ..).retains goes.reachable
        · exact .inr ⟨before, Nat.lt_succ_of_lt earlier, found⟩
      · rw [next]
        exact .inl broke
      · exact .inr ⟨place, Nat.lt_succ_self _, next, now, out⟩

/-- A connection that was lost to silence was waited for in a single read until the millisecond that ended with the
deadline of that read. -/
theorem parked_of_lost (progress : Progress moment last)
    (lost : (moment last).client.LostToSilence (moment last).stage link time) :
    ∃ first place, place < last ∧ Parked moment link first place ∧
      moment (place + 1) = ((moment place).apply (.sleep 1)).1 ∧ time = (moment place).stage.now + 1 ∧
        (moment place).RunsOut link (moment first).stage.now := by
  rcases progress.runsOut (Nat.le_refl _) lost.noted with broke | ⟨place, earlier, next, now, since, out⟩
  · exact absurd broke lost.spotless.not_broke
  · obtain ⟨first, rfl, parked⟩ := progress.parked (Nat.le_of_lt earlier) out.reads
    exact ⟨first, place, earlier, parked, next, now, out⟩

/-- After such a millisecond the connection is lost for good. -/
theorem lost_of_runsOut (progress : Progress moment last) (next : moment (place + 1) = ((moment place).apply (.sleep 1)).1)
    (out : (moment place).RunsOut link since) {later : Nat} (after : place < later) (inside : later ≤ last) :
    (moment later).client.LostToSilence (moment later).stage link ((moment place).stage.now + 1) := by
  have within : place < last := Nat.lt_of_lt_of_le after inside
  refine (progress.reaches after).lost (progress.goes (place + 1) within).reachable ?_
  rw [next]
  exact (progress.goes place (Nat.le_of_lt within)).loses out

end Progress

theorem progress_moment {stage : Stage} (opening : stage.Opening) {options : ClientOptions}
    (pauses : (stage.script options.endpoint.url).beyond.isSome = true → 0 < options.supervisorDelay.millis)
    (sink : SinkScript) (steps : List ScenarioStep)
    (uncancelled : ((make stage options sink).play steps).stage.tokenCancelled = false)
    (unstopped : ((make stage options sink).play steps).client.isShuttingDown = false) :
    Progress ((make stage options sink).moment steps) (ticks steps).length where
  goes place inside := by
    have still := still_make opening pauses sink
    have reachable : ((make stage options sink).moment steps place).Reachable := reachable_play opening options sink _
    have reaches := moment_reaches (make stage options sink) steps inside
    rw [still.moment_last] at reaches
    exact ⟨still.moment steps place, reachable, reachable.going reaches uncancelled unstopped⟩
  ticks place inside := ⟨(ticks steps)[place], isTick_of_getElem inside, moment_succ _ inside⟩
  reaches := moment_reaches _ steps
  fresh := ⟨rfl, rfl⟩

/-- A client that nobody cancels or stops drops its connection for silence at an instant if and only if it has an
idle timeout and has been parked in a single read for that time, thirty years at most, in which nothing came on the
connection: no frame, no error and no end. Behind the drop everything sent before it has been handled: whenever the
client is parked in a read it has read all frames that were sent, and the sink calls that they lead to have returned.
What the client does outside of reads puts off every drop to come by the whole timeout. -/
theorem drops_for_silence {stage : Stage} (opening : stage.Opening) {options : ClientOptions}
    (pauses : (stage.script options.endpoint.url).beyond.isSome = true → 0 < options.supervisorDelay.millis)
    (sink : SinkScript) (steps : List ScenarioStep)
    (uncancelled : ((make stage options sink).play steps).stage.tokenCancelled = false)
    (unstopped : ((make stage options sink).play steps).client.isShuttingDown = false) :
    let run := (make stage options sink).play steps
    let moment := (make stage options sink).moment steps
    let last := (ticks steps).length
    let limit := min options.endpoint.idleTimeout.millis longestWait
    moment last = run ∧
    (∀ link time, run.client.LostToSilence run.stage link time ↔ 0 < options.endpoint.idleTimeout.millis ∧
      ∃ first place, place < last ∧ Parked moment link first place ∧ (moment first).stage.now + limit = time ∧
        (moment place).stage.now < time ∧ (moment (place + 1)).stage.now = time) ∧
    (∀ place ≤ last, ∀ link since, (moment place).client.phase = .reading link since →
      (moment place).stage.sentOn link = ((moment place).client.framesRead link).map .ok ∧
      (moment place).client.sinkCalls.map Prod.snd = ((moment place).client.installs.flatMap fun link =>
        ((moment place).client.framesRead link).filterMap SinkCall.ofFrame?) ∧
      (moment place).client.sinkCalls.length =
        (seen Occurrence.sinkReturn? (moment place).client.history).length) ∧
    ∀ place ≤ last, (moment place).client.phase.isReading = false → ∀ link time,
      run.client.LostToSilence run.stage link time →
        (moment place).client.LostToSilence (moment place).stage link time ∨ (moment place).stage.now + limit ≤ time := by
  intro run moment last limit
  have whole : moment last = run := (still_make opening pauses sink).moment_last steps
  have progress : Progress moment last := progress_moment opening pauses sink steps uncancelled unstopped
  have options_eq (place : Nat) : (moment place).client.options = options :=
    (reaches_play (make stage options sink) _).settings.1
  have deadline (place since due : Nat) : (moment place).client.idleDeadline? since = some due ↔
      0 < options.endpoint.idleTimeout.millis ∧ since + limit = due := by
    rw [Client.idleDeadline?_eq_some, options_eq]
  rw [← whole]
  refine ⟨rfl, fun link time => ⟨fun dropped => ?_, ?_⟩, fun place inside link since here => ?_, ?_⟩
  · obtain ⟨first, place, inside, parked, next, rfl, out⟩ := progress.parked_of_lost dropped
    obtain ⟨timed, due⟩ := (deadline ..).mp out.deadline
    refine ⟨timed, first, place, inside, parked, due, Nat.lt_succ_self _, ?_⟩
    rw [next, (progress.goes place (Nat.le_of_lt inside)).apply_now ScenarioStep.isTick_sleep]
    rfl
  · rintro ⟨timed, first, place, inside, parked, due, early, now⟩
    obtain ⟨step, tick, next⟩ := progress.ticks place inside
    have passed := (progress.goes place (Nat.le_of_lt inside)).apply_now tick
    rw [← next, now] at passed
    obtain rfl := tick.eq_sleep (by omega)
    obtain rfl : time = (moment place).stage.now + 1 := passed
    refine progress.lost_of_runsOut next ⟨parked.reads place (Nat.le_refl _) parked.ordered, ?_⟩ inside (Nat.le_refl _)
    exact (deadline ..).mpr ⟨timed, due⟩
  · have goes := progress.goes place inside
    exact ⟨goes.sentOn_eq here, goes.handled here⟩
  · intro place inside unread link time dropped
    obtain ⟨first, before, earlier, parked, next, rfl, out⟩ := progress.parked_of_lost dropped
    obtain ⟨-, due⟩ := (deadline ..).mp out.deadline
    rcases Nat.lt_or_ge before place with past | ahead
    · exact .inl (progress.lost_of_runsOut next out past inside)
    · -- the read that is lost begins after this moment, for the client is parked in it until it is lost
      rcases Nat.lt_or_ge place first with begun | within
      · have passed := progress.now_le (Nat.le_of_lt begun) (Nat.le_trans parked.ordered (Nat.le_of_lt earlier))
        exact .inr (by omega)
      · rw [parked.reads place ahead within] at unread
        cases unread

/-- The sink takes twenty milliseconds over a batch, which do not count, and an empty frame comes two after that:
with an idle timeout of five milliseconds the connection is dropped five after the empty frame. -/
theorem drops_for_silence_after_keepAlive :
    let stage := Stage.planned [("ws://feed", [⟨.connect "first", 0, false⟩])] none
    let options := (ClientOptions.standard "ws://feed").withIdleTimeout (.ofMillis 5)
    let steps : List ScenarioStep :=
      [.start, .push "first" (.ok (batchFrame 7 [.null])) 1, .sleep 22, .push "first" (.ok []) 1, .sleep 10]
    let run := (make stage options ⟨false, 20⟩).play steps
    let parked := (make stage options ⟨false, 20⟩).moment steps 29
    run.client.LostToSilence run.stage 0 27 ∧ parked.stage.now = 26 ∧
      parked.stage.sentOn 0 = [.ok (batchFrame 7 [.null]), .ok []] ∧
        (seen Occurrence.sinkReturn? parked.client.history).length = 1 := by
  intro stage options steps run parked
  have opening : stage.Opening := .planned ..
  obtain ⟨now, frames, calls⟩ : parked.stage.now = 26 ∧
      parked.client.framesRead 0 = [batchFrame 7 [.null], []] ∧ parked.client.sinkCalls.length = 1 := by decide +kernel
  have pauses : (stage.script options.endpoint.url).beyond.isSome = true → 0 < options.supervisorDelay.millis := by decide
  obtain ⟨-, silence, handled, -⟩ :=
    drops_for_silence opening pauses ⟨false, 20⟩ steps (by decide +kernel) (by decide +kernel)
  obtain ⟨sent, -, returned⟩ := handled 29 (by decide +kernel) 0 22 (by decide +kernel)
  refine ⟨(silence 0 27).mpr ⟨by decide, 25, 29, by decide +kernel, ⟨by decide, ?_, ?_⟩, ?_, ?_, ?_⟩, now, ?_, ?_⟩
  · decide +kernel
  · decide +kernel
  · decide +kernel
  · decide +kernel
  · decide +kernel
  · rw [sent, frames]
    rfl
  · rw [← returned, calls]

/-- A timer runs for thirty years at most: with an idle timeout that is a millisecond longer a connection is dropped
for silence a millisecond early. -/
theorem drops_after_thirty_years :
    let idle := Duration.ofMillis 946080000001
    let run := (make (Stage.planned [("ws://feed", [⟨.connect "first", 0, false⟩])] none)
      ((ClientOptions.standard "ws://feed").withIdleTimeout idle) ⟨false, 0⟩).play
        [.start, .sleep 900000000000, .sleep 46080000000]
    run.stage.tokenCancelled = false ∧ run.client.isShuttingDown = false ∧ run.stage.now = 946080000000 ∧
      run.client.LostToSilence run.stage 0 946080000000 ∧ 946080000000 < idle.millis := by
  intro idle run
  obtain ⟨uncancelled, unstopped, now, taken, closes⟩ : run.stage.tokenCancelled = false ∧
      run.client.isShuttingDown = false ∧ run.stage.now = 946080000000 ∧ run.stage.takenFrom 0 = 0 ∧
      0 < run.stage.closesOf 0 := by decide +kernel
  refine ⟨uncancelled, unstopped, now, ⟨Client.mem_of_failedRead ?_, ?_, closes⟩, by decide⟩
  · decide +kernel
  · intro place inside
    rw [taken] at inside
    exact absurd inside (Nat.not_lt_zero place)

end ClientRun

end SequencedFeed
