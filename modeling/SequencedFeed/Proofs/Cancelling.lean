import SequencedFeed.Envelope.Text
import SequencedFeed.Proofs.Endurance
import SequencedFeed.Proofs.Rest
import SequencedFeed.Proofs.Stopping
set_option autoImplicit false

/-!
# What a cancelled client still does

A cancelled client ends at its next look at the token, wherever the cancellation has found it. Only a read
does not look: a client that is parked in one still handles the frame which that read gives. So what a
cancelled client may do is counted by the read it is in, and every other rule takes it nearer to its end.
-/

namespace SequencedFeed

/-- What a cancelled client may still leave behind: the end of a read, the sink call that this leads to, the
return of a sink call, and reports of anything but failed dials and reads. -/
def Occurrence.isFarewell : Occurrence → Bool
  | .log event => !event.reportsFailure
  | .read .. => true
  | .applied _ => true
  | .sinkReturned _ => true
  | _ => false

def SinkCall.ofRead? : ReadResult → Option SinkCall
  | .ok frame => SinkCall.ofFrame? frame
  | .error _ => none

namespace Client

variable {client middle client' : Client} {stage stage' : Stage}

/-- From one state of a cancelled client to a later one. At most the read that it is parked in ends, it leads
to its sink call, and no failure is reported or counted. -/
structure WindsDown (client client' : Client) : Prop where
  farewell : OnlyAdds (fun occurrence => occurrence.isFarewell = true) client.history client'.history
  retryCount : client'.retryCount = client.retryCount
  dialFailures : client'.metrics.dialFailures = client.metrics.dialFailures
  readErrors : client'.metrics.readErrors = client.metrics.readErrors
  lastRead : ∃ results, client'.reads = client.reads ++ results ∧
    seen Occurrence.call? client'.history =
      seen Occurrence.call? client.history ++ results.filterMap (fun entry => SinkCall.ofRead? entry.2) ∧
    results.length + client'.phase.isReading.toNat ≤ client.phase.isReading.toNat ∧
    ∀ entry ∈ results, ∃ since, client.phase = .reading entry.1 since
  parked : client'.phase.isReading = true → client'.phase = client.phase

theorem WindsDown.aside
    (adds : OnlyAdds (fun occurrence => occurrence.isFarewell = true ∧ occurrence.read? = none ∧
      occurrence.call? = none) client.history client'.history)
    (retryCount : client'.retryCount = client.retryCount)
    (dialFailures : client'.metrics.dialFailures = client.metrics.dialFailures)
    (readErrors : client'.metrics.readErrors = client.metrics.readErrors)
    (parked : client'.phase.isReading = true → client'.phase = client.phase) :
    client.WindsDown client' where
  farewell := adds.mono fun _ fits => fits.1
  retryCount := retryCount
  dialFailures := dialFailures
  readErrors := readErrors
  lastRead := by
    refine ⟨[], ?_, ?_, ?_, List.forall_mem_nil _⟩
    · rw [List.append_nil]
      exact adds.seen_eq fun _ fits => fits.2.1
    · rw [List.filterMap_nil, List.append_nil]
      exact adds.seen_eq fun _ fits => fits.2.2
    · cases reading : client'.phase.isReading with
      | false => exact Nat.zero_le _
      | true =>
          rw [parked reading] at reading
          rw [reading]
          exact Nat.le_refl _
  parked := parked

theorem WindsDown.log (client : Client) (now : Nat) {event : LogEvent}
    (harmless : event.reportsFailure = false) : client.WindsDown (client.log now event) := by
  refine .aside ((OnlyAdds.of_eq rfl).cons now ⟨?_, rfl, rfl⟩) rfl rfl rfl fun _ => rfl
  rw [Occurrence.isFarewell, harmless, Bool.not_false]

theorem WindsDown.enter (client : Client) {phase : Phase} (unread : phase.isReading = false) :
    client.WindsDown (client.enter phase) :=
  .aside (.of_eq rfl) rfl rfl rfl fun reading => absurd reading (ne_true_of_eq_false unread)

theorem WindsDown.refl (client : Client) : client.WindsDown client :=
  .aside (.of_eq rfl) rfl rfl rfl fun _ => rfl

theorem WindsDown.trans (first : client.WindsDown middle) (second : middle.WindsDown client') :
    client.WindsDown client' where
  farewell := first.farewell.trans second.farewell
  retryCount := second.retryCount.trans first.retryCount
  dialFailures := second.dialFailures.trans first.dialFailures
  readErrors := second.readErrors.trans first.readErrors
  lastRead := by
    obtain ⟨earlier, reads, calls, bound, links⟩ := first.lastRead
    obtain ⟨later, reads', calls', bound', links'⟩ := second.lastRead
    refine ⟨earlier ++ later, ?_, ?_, ?_, fun entry ended => ?_⟩
    · rw [reads', reads, List.append_assoc]
    · rw [calls', calls, List.filterMap_append, List.append_assoc]
    · rw [List.length_append]
      omega
    · rcases List.mem_append.mp ended with ended | ended
      · exact links entry ended
      · -- a read that is still in progress in the middle was in progress at first
        obtain ⟨since, reading⟩ := links' entry ended
        rw [← first.parked (by rw [reading]; rfl)]
        exact ⟨since, reading⟩
  parked reading := by
    have before := second.parked reading
    rw [before] at reading ⊢
    exact first.parked reading

theorem WindsDown.sinkCalls (winds : client.WindsDown client') :
    ∃ results calls, client'.reads = client.reads ++ results ∧
      client'.sinkCalls = client.sinkCalls ++ calls ∧
      calls.map Prod.snd = results.filterMap (fun entry => SinkCall.ofRead? entry.2) ∧
      results.length + client'.phase.isReading.toNat ≤ client.phase.isReading.toNat ∧
      ∀ entry ∈ results, ∃ since, client.phase = .reading entry.1 since := by
  obtain ⟨results, reads, seenCalls, bound, links⟩ := winds.lastRead
  obtain ⟨calls, grown⟩ : client.sinkCalls <+: client'.sinkCalls := by
    obtain ⟨added, history, -⟩ := winds.farewell
    rw [Client.sinkCalls, Client.sinkCalls, history, List.filterMap_append, List.reverse_append]
    exact List.prefix_append ..
  refine ⟨results, calls, reads, grown.symm, ?_, bound, links⟩
  rw [← sinkCalls_eq_seen, ← sinkCalls_eq_seen, ← grown, List.map_append] at seenCalls
  exact List.append_cancel_left seenCalls

/-- What a cancelled client leaves behind is no beginning but a sink call, and no report of a failure. -/
theorem WindsDown.unchanged (winds : client.WindsDown client') :
    client'.dials = client.dials ∧ client'.installs = client.installs ∧
      client'.deliveries = client.deliveries ∧ client'.failureReports = client.failureReports := by
  refine ⟨congrArg List.reverse (winds.farewell.filterMap_eq ?_), winds.farewell.seen_eq ?_,
    winds.farewell.seen_eq ?_, winds.farewell.seen_eq ?_⟩
  · rintro ⟨time, occurrence⟩ fits
    cases occurrence <;> first | rfl | cases fits
  · intro occurrence fits
    cases occurrence <;> first | rfl | cases fits
  · intro occurrence fits
    cases occurrence <;> first | rfl | cases fits
  · intro occurrence fits
    cases occurrence with
    | log event =>
        rw [Occurrence.isFarewell, Bool.not_eq_true'] at fits
        rw [Occurrence.failureReport?, fits, if_neg Bool.false_ne_true]
    | _ => rfl

/-! ### One move -/

theorem Passes.unread_of_cancelled {phase : Phase} (passes : client.Passes stage phase)
    (cancelled : client.cancelled = true) : phase.isReading = false := by
  cases passes with
  | skip | abandon => exact (phaseAfterDial_plain ..).2.1
  | beginRead here going held =>
      rw [going] at cancelled
      cases cancelled
  | giveUp | retry | endBackOff | redial | handOver | leave | leaveUnconnected | letGo | letGoInLine => rfl

private theorem summary_reportsFailure {α : Type} (envelope : Envelope α) :
    (LogEvent.summary envelope).reportsFailure = false := by
  unfold LogEvent.summary
  split <;> rfl

private theorem TakesFrame.farewell {now : Nat} {frame : List UInt8}
    (takes : client.TakesFrame now frame client') :
    OnlyAdds (fun occurrence => occurrence.isFarewell = true) client.history client'.history ∧
      client'.retryCount = client.retryCount ∧
      client'.metrics.dialFailures = client.metrics.dialFailures ∧
      client'.metrics.readErrors = client.metrics.readErrors := by
  have nothing : OnlyAdds (fun occurrence => occurrence.isFarewell = true) client.history client.history :=
    .of_eq rfl
  cases takes with
  | blank empty => exact ⟨nothing, rfl, rfl, rfl⟩
  | undecodable filled refused => exact ⟨nothing.cons now rfl, rfl, rfl, rfl⟩
  | @pass envelope phase filled decoded uncalled next =>
      have summed : (Occurrence.log (LogEvent.summary envelope)).isFarewell = true := by
        rw [Occurrence.isFarewell, summary_reportsFailure, Bool.not_false]
      exact ⟨nothing.cons now summed, rfl, rfl, rfl⟩
  | @apply envelope call filled decoded called =>
      have summed : (Occurrence.log (LogEvent.summary envelope)).isFarewell = true := by
        rw [Occurrence.isFarewell, summary_reportsFailure, Bool.not_false]
      exact ⟨(nothing.cons now summed).cons now rfl, rfl, rfl, rfl⟩

structure Frozen (client : Client) (stage : Stage) (client' : Client) (stage' : Stage) : Prop where
  slot : client'.slot = client.slot
  closes : ∀ link, stage'.closesOf link = stage.closesOf link
  queue : stage'.queue = stage.queue

theorem Moves.windsDown (moves : client.Moves stage client' stage') (cancelled : client.cancelled = true) :
    client.WindsDown client' ∧ client.Frozen stage client' stage' := by
  have uncancelled {claim : Prop} (going : client.cancelled = false) : claim := by
    rw [going] at cancelled
    cases cancelled
  -- five of the rules are only for clients that are not cancelled
  cases moves with
  | dial here enabled isOpen going next => exact uncancelled going
  | endDial here going late ended => exact uncancelled going
  | drop here fails going changed => exact uncancelled (going_of_shouldStop going).1
  | reconnect here unconnected going => exact uncancelled (going_of_shouldStop going).1
  | getInLine here observed sent => simp [Channel.beginSend, cancelled] at sent
  | pass passes =>
      exact ⟨.enter client (passes.unread_of_cancelled cancelled), rfl, fun _ => rfl, rfl⟩
  | @skipCancelled episode here enabled isOpen cancelled =>
      have unread := (client.phaseAfterDial_plain episode).2.1
      exact ⟨(WindsDown.log client _ rfl).trans (.enter _ unread), rfl, fun _ => rfl, rfl⟩
  | @takeFrame link since frame _ _ here reads takes =>
      obtain ⟨farewell, retryCount, dialFailures, readErrors⟩ := takes.farewell
      have unread := takes.settled.unread
      have read : OnlyAdds (fun occurrence => occurrence.isFarewell = true) client.history
          (client.note stage.now (.read link (.ok frame))).history := (OnlyAdds.of_eq rfl).cons _ rfl
      refine ⟨⟨read.trans farewell, retryCount, dialFailures, readErrors, ?_, fun reading => ?_⟩,
        takes.settled.slot, reads.closes, ?_⟩
      · refine ⟨[(link, .ok frame)], ?_, ?_, ?_, List.forall_mem_singleton.mpr ⟨since, here⟩⟩
        · rw [Client.reads, takes.seen fun _ => rfl, note_history, seen_cons]
          cases SinkCall.ofFrame? frame <;> exact List.append_nil _
        · rw [takes.seen fun _ => rfl, note_history, seen_cons]
          cases called : SinkCall.ofFrame? frame <;> simp [SinkCall.ofRead?, called, Occurrence.call?]
        · rw [unread, here]
          exact Nat.le_refl _
      · exact absurd reading (ne_true_of_eq_false unread)
      · obtain ⟨links, rfl⟩ := reads.links
        rfl
  | @endReading link since error _ here fails stopping =>
      refine ⟨⟨(OnlyAdds.of_eq rfl).cons _ rfl, rfl, rfl, rfl, ?_, fun reading => by cases reading⟩, rfl, ?_, ?_⟩
      · refine ⟨[(link, .error error)], seen_cons .., ?_, ?_, List.forall_mem_singleton.mpr ⟨since, here⟩⟩
        · exact (seen_skip _ rfl _ _).trans (List.append_nil _).symm
        · rw [here]
          exact Nat.le_refl _
      · exact fails.closes
      · obtain ⟨links, rfl⟩ := fails.links
        rfl
  | @endSink start due mark here late =>
      obtain ⟨-, -, -, -, -, slot, retryCount⟩ := endSink_kept client stage.now start mark
      have metrics := endSink_metrics client stage.now start mark
      refine ⟨.aside ?_ retryCount ?_ ?_ ?_, slot, fun _ => rfl, rfl⟩
      · rw [endSink_history]
        cases client.sink.fails with
        | false => exact (OnlyAdds.of_eq rfl).cons _ ⟨rfl, rfl, rfl⟩
        | true => exact ((OnlyAdds.of_eq rfl).cons _ ⟨rfl, rfl, rfl⟩).cons _ ⟨rfl, rfl, rfl⟩
      · rw [metrics]
        split <;> rfl
      · rw [metrics]
        split <;> rfl
      · intro reading
        rw [endSink_phase] at reading
        cases mark <;> cases reading
  | @endSend mark how channel channel' observed ends =>
      obtain ⟨rfl, same⟩ := ends.abandoned cancelled
      refine ⟨.aside (.of_eq rfl) rfl rfl rfl (fun reading => by cases reading), rfl, fun _ => rfl, ?_⟩
      simp only [Stage.queue, observed, Option.map_some, Option.getD_some, same]

/-! ### Whatever happens -/

/-- A client that was started under a cancelled token, or whose token was cancelled since, is cancelled. -/
def Obeys (client : Client) (stage : Stage) : Prop :=
  stage.tokenCancelled = true → client.started = true → client.cancelled = true

theorem Obeys.acts (obeys : client.Obeys stage) (acts : client.Acts stage client' stage') :
    client'.Obeys stage' := by
  intro token started
  cases acts with
  | start starts =>
      cases starts with
      | report barred => exact obeys token started
      | first enabled unstarted => exact token
  | cancel =>
      change (client.cancelled || client.started) = true
      rw [show client.started = true from started, Bool.or_true]
  | stop =>
      rw [stop_eq] at started ⊢
      change (client.cancelled || client.started) = true
      rw [show client.started = true from started, Bool.or_true]
  | move moves =>
      obtain ⟨next, around, moved, rfl, rfl⟩ := moves_of_move moves
      have token : stage.tokenCancelled = true := moved.token.symm.trans token
      exact moved.keeps.cancelled (obeys token (moved.keeps.started.symm.trans started))

theorem start_windsDown (client : Client) (stage : Stage) :
    client.WindsDown (client.start stage) ∧ (client.start stage).slot = client.slot := by
  unfold Client.start
  split
  · exact ⟨.log _ _ rfl, rfl⟩
  · split
    · exact ⟨.log _ _ rfl, rfl⟩
    · exact ⟨.aside (.of_eq rfl) rfl rfl rfl nofun, rfl⟩

theorem stop_windsDown (client : Client) (stage : Stage) :
    client.WindsDown (client.stop stage).1 := by
  have failures (held : Option Nat) : (client.metrics.released held).dialFailures = client.metrics.dialFailures ∧
      (client.metrics.released held).readErrors = client.metrics.readErrors := by
    cases held <;> exact ⟨rfl, rfl⟩
  rw [Client.stop_eq]
  exact .aside ((OnlyAdds.of_eq rfl).cons _ ⟨rfl, rfl, rfl⟩) rfl (failures _).1 (failures _).2 fun _ => rfl

end Client

namespace ClientRun

variable {run middle later : ClientRun}

theorem Reachable.obeys (reachable : run.Reachable) : run.client.Obeys run.stage :=
  reachable.invariant Client.Obeys (fun _ _ _ _ => nofun) (fun _ obeys acts => obeys.acts acts)
    (fun obeys changes => by rw [Client.Obeys, changes.grows.token]; exact obeys)

/-- From a state in which the token is cancelled to a later one. Until a stop the slot stays as it is and no
connection is closed. -/
structure CallsOff (run later : ClientRun) : Prop where
  token : later.stage.tokenCancelled = true
  windsDown : run.client.WindsDown later.client
  queue : later.stage.queue <:+ run.stage.queue
  frozen : later.client.isShuttingDown = false → later.client.slot = run.client.slot ∧
    ∀ link, later.stage.closesOf link = run.stage.closesOf link

theorem Step.callsOff (reachable : run.Reachable) (token : run.stage.tokenCancelled = true)
    (step : run.Step later) : run.CallsOff later := by
  cases step with
  | start =>
      obtain ⟨windsDown, slot⟩ := run.client.start_windsDown run.stage
      exact ⟨token, windsDown, List.suffix_rfl, fun _ => ⟨slot, fun _ => rfl⟩⟩
  | cancel =>
      have same : run.client.WindsDown run.client.cancel := .aside (.of_eq rfl) rfl rfl rfl fun _ => rfl
      exact ⟨rfl, same, List.suffix_rfl, fun _ => ⟨rfl, fun _ => rfl⟩⟩
  | stop =>
      obtain ⟨links, same⟩ := Client.stop_links run.client run.stage
      refine ⟨?_, run.client.stop_windsDown run.stage, ?_, fun unstopped => ?_⟩
      · rw [same]
        exact token
      · rw [same]
        exact List.suffix_rfl
      · rw [Client.stop_eq] at unstopped
        cases unstopped
  | move moves =>
      obtain ⟨next, around, moved, rfl, rfl⟩ := Client.moves_of_move moves
      have cancelled := reachable.obeys token (reachable.consistent.phase.started moved.task)
      obtain ⟨windsDown, slot, closes, queue⟩ := moved.windsDown cancelled
      have numbered : next.WindsDown { next with lastMove := around.moves } :=
        .aside (.of_eq rfl) rfl rfl rfl fun _ => rfl
      have suffix : around.queue <:+ run.stage.queue := queue ▸ List.suffix_rfl
      exact ⟨moved.token.trans token, windsDown.trans numbered, suffix, fun _ => ⟨slot, closes⟩⟩
  | around changes =>
      exact ⟨changes.grows.token.trans token, .refl _, changes.queue_suffix,
        fun _ => ⟨rfl, changes.grows.closes⟩⟩
  | collect =>
      unfold ClientRun.collect
      split <;> exact ⟨token, .refl _, List.suffix_rfl, fun _ => ⟨rfl, fun _ => rfl⟩⟩

theorem Step.stopped (step : run.Step later) (stopped : run.client.isShuttingDown = true) :
    later.client.isShuttingDown = true := by
  rcases step.acts with acts | ⟨same, -⟩
  · exact acts.stopped stopped
  · rw [same]
    exact stopped

theorem Reaches.callsOff (reachable : run.Reachable) (token : run.stage.tokenCancelled = true)
    (reaches : run.Reaches later) : run.CallsOff later := by
  -- by induction on the steps; a state without a stop comes after states without one
  have here : run.CallsOff run := ⟨token, .refl _, List.suffix_rfl, fun _ => ⟨rfl, fun _ => rfl⟩⟩
  refine reaches.keeps run.CallsOff reachable here ?_
  intro before after reachable so step
  have next := step.callsOff reachable so.token
  refine ⟨next.token, so.windsDown.trans next.windsDown, next.queue.trans so.queue, fun unstopped => ?_⟩
  have unstopped' : before.client.isShuttingDown = false :=
    Bool.eq_false_iff.mpr fun stopped => ne_true_of_eq_false unstopped (step.stopped stopped)
  obtain ⟨slot, closes⟩ := so.frozen unstopped'
  obtain ⟨slot', closes'⟩ := next.frozen unstopped
  exact ⟨slot'.trans slot, fun link => (closes' link).trans (closes link)⟩

/-- Once the token is cancelled, before or after the start, and until a stop, a client begins no dial, its
slot stays as it is, no connection is closed, no mark is delivered, and no failed dial or read is reported or
counted. At most one more read ends, and at most the sink call that it leads to begins. When the client is
out of the sink and at rest after that read, its task has ended. -/
theorem Reachable.winds_down_once_cancelled (reachable : run.Reachable)
    (cancelled : run.stage.tokenCancelled = true) (reaches : run.Reaches later)
    (unstopped : later.client.isShuttingDown = false) :
    (later.client.dials = run.client.dials ∧ later.client.installs = run.client.installs) ∧
    (later.client.slot = run.client.slot ∧
      ∀ link, later.stage.closesOf link = run.stage.closesOf link) ∧
    (later.client.deliveries = run.client.deliveries ∧ later.stage.queue <:+ run.stage.queue) ∧
    (later.client.failureReports = run.client.failureReports ∧
      later.client.retryCount = run.client.retryCount ∧
      later.client.metrics.dialFailures = run.client.metrics.dialFailures ∧
      later.client.metrics.readErrors = run.client.metrics.readErrors) ∧
    ∃ results calls, later.client.reads = run.client.reads ++ results ∧ results.length ≤ 1 ∧
      later.client.sinkCalls = run.client.sinkCalls ++ calls ∧
      calls.map Prod.snd = results.filterMap (fun entry => SinkCall.ofRead? entry.2) ∧
      (results ≠ [] → later.client.atRest later.stage → later.client.phase.isSinking = false →
        later.client.phase = .idle) := by
  obtain ⟨token, winds, queue, frozen⟩ := reaches.callsOff reachable cancelled
  obtain ⟨dials, installs, deliveries, reports⟩ := winds.unchanged
  obtain ⟨results, calls, reads, sinkCalls, led, bound, -⟩ := winds.sinkCalls
  -- the read that was in progress at the cancellation is counted, and there is no other
  have most : run.client.phase.isReading.toNat ≤ 1 := Bool.toNat_le _
  refine ⟨⟨dials, installs⟩, frozen unstopped, ⟨deliveries, queue⟩,
    ⟨reports, winds.retryCount, winds.dialFailures, winds.readErrors⟩,
    results, calls, reads, by omega, sinkCalls, led, fun ended rest unsinking => ?_⟩
  have unread : later.client.phase.isReading = false := by
    have some : 0 < results.length := List.length_pos_iff.mpr ended
    exact Bool.toNat_eq_zero.mp (by omega)
  have reachable' := reachable.later reaches
  by_cases task : later.client.phase = .idle
  · exact task
  · have cancelled' := reachable'.obeys token (reachable'.consistent.phase.started task)
    exact (Client.idle_or_reading rest cancelled' unsinking).resolve_right (ne_true_of_eq_false unread)

/-- The client is parked in a read when its token is cancelled. It applies the batch that comes then and ends,
and a second batch stays where it is. -/
theorem Reachable.winds_down_once_cancelled_in_read :
    let run := (make (Stage.planned [("ws://feed", [⟨.connect "first", 0, false⟩])] (some 1))
      (ClientOptions.standard "ws://feed") ⟨false, 5⟩).play [.start, .cancel]
    let later := run.play [.push "first" (.ok (batchFrame 7 [.null])) 2, .sleep 5]
    run.client.phase.isReading = true ∧ run.stage.tokenCancelled = true ∧
      later.client.isShuttingDown = false ∧ later.client.phase = .idle ∧
        later.client.slot.held = some 0 ∧ later.client.sinkCalls.length = 1 := by
  intro run later
  obtain ⟨reading, token, held⟩ : run.client.phase.isReading = true ∧ run.stage.tokenCancelled = true ∧
      run.client.slot.held = some 0 := by decide
  obtain ⟨unstopped, unsinking, rest, read, called⟩ : later.client.isShuttingDown = false ∧
      later.client.phase.isSinking = false ∧ (later.client.move? later.stage).isNone = true ∧
      later.client.reads.length = run.client.reads.length + 1 ∧ later.client.sinkCalls.length = 1 := by
    decide +kernel
  have reachable : run.Reachable := reachable_play (.planned ..) _ _ _
  have reaches : run.Reaches later := reaches_play run _
  clear_value later run
  obtain ⟨-, ⟨slot, -⟩, -, -, results, calls, reads, -, -, -, ended⟩ :=
    reachable.winds_down_once_cancelled token reaches unstopped
  have some : results ≠ [] := by
    rintro rfl
    rw [reads, List.append_nil] at read
    omega
  refine ⟨reading, token, unstopped, ?_, ?_, called⟩
  · exact ended some (Option.isNone_iff_eq_none.mp rest) unsinking
  · rw [slot, held]

end ClientRun

end SequencedFeed
