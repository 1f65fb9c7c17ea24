import SequencedFeed.Proofs.Cancelling
set_option autoImplicit false

/-!
# Failures after a stop

A read that fails looks for a stop before it is reported. A dial that fails does not: what keeps it quiet
is that its cancelled task leaves the dial before it can fail. So a stop silences every failure but one, that
of a dial which fails right after it has itself called for the stop.
-/

namespace SequencedFeed

namespace Client

variable {client client' : Client} {stage stage' : Stage}

theorem failureReports_of_quiet
    (adds : OnlyAdds (fun occurrence => occurrence.failureReport? = none) client.history client'.history) :
    client'.failureReports = client.failureReports :=
  adds.seen_eq fun _ fits => fits

def reportsAfter (client : Client) (episode : Episode) : DialEnd → List LogEvent
  | .connect _ => client.failureReports
  | .fail error => client.failureReports ++ [client.dialReport error episode]

private theorem EndsDial.failureReports {episode : Episode} {ends : DialEnd}
    (ended : EndsDial client stage episode ends client' stage') :
    client'.failureReports = client.reportsAfter episode ends := by
  have begun : OnlyAdds (fun occurrence => occurrence.failureReport? = none) client.history
      (client.note stage.now (.dialEnded ends)).history := (OnlyAdds.of_eq rfl).cons _ rfl
  cases ended with
  | install isOpen changed =>
      obtain ⟨metrics, rfl⟩ := changeSlot_kept changed
      exact failureReports_of_quiet ((begun.cons _ rfl).cons _ rfl)
  | refuse stopped => exact failureReports_of_quiet (begun.cons _ rfl)
  | @fail error =>
      have reported : Occurrence.failureReport? (.log (client.dialReport error episode)) =
          some (client.dialReport error episode) := by
        cases episode <;> rfl
      exact (seen_cons ..).trans (by rw [reported]; rfl)

/-- A dial reports its failure even if the client has been stopped right before. -/
private theorem EndsDial.failureReports_of_stop {episode : Episode} {ends : DialEnd}
    (ended : EndsDial (client.beforeOutcome stage true).1 (client.beforeOutcome stage true).2 episode ends
      client' stage') : client'.failureReports = client.reportsAfter episode ends := by
  have quiet : (client.beforeOutcome stage true).1.failureReports = client.failureReports := by
    rw [beforeOutcome, if_pos rfl]
    exact (stop_windsDown client _).unchanged.2.2.2
  rw [ended.failureReports]
  cases ends with
  | connect link => exact quiet
  | fail error =>
      rw [reportsAfter, quiet, beforeOutcome, if_pos rfl, stop_eq]
      cases episode <;> rfl

/-- The one report that a stop does not silence: a dial has called for the stop and fails right then. -/
def FailsInStop (client client' : Client) : Prop :=
  ∃ episode error due, client.phase = .dialling episode (.fail error) true due ∧
    client.cancelled = false ∧
    client'.failureReports = client.failureReports ++ [client.dialReport error episode]

/-- A move of a client that is shutting down after it reports no other failure. -/
theorem Moves.failureReports (consistent : client.Consistent stage)
    (moves : client.Moves stage client' stage') (stopped : client'.isShuttingDown = true) :
    client'.failureReports = client.failureReports ∨ client.FailsInStop client' := by
  -- what cancellation silences is known, so what is left are clients that the move itself stops
  cases cancelled : client.cancelled with
  | true => exact .inl (moves.windsDown cancelled).1.unchanged.2.2.2
  | false =>
      have past (unseeking : client.phase.isSeeking = false) (slot : client'.slot = client.slot) : False := by
        have before : client.slot.shuttingDown = true := (congrArg Slot.shuttingDown slot).symm.trans stopped
        rw [consistent.cancelled_of_unseeking moves.task unseeking before] at cancelled
        cases cancelled
      cases moves with
      | pass passes => exact .inl rfl
      | skipCancelled here enabled isOpen stopping =>
          rw [cancelled] at stopping
          cases stopping
      | dial here enabled isOpen going next => exact absurd stopped (ne_true_of_eq_false isOpen)
      | @endDial episode ends stops due _ _ here going late ended =>
          cases stops with
          | false =>
              have before : client.slot.shuttingDown = true := ended.shuttingDown.symm.trans stopped
              rw [consistent.cancelled_of_stopped here nofun nofun before] at cancelled
              cases cancelled
          | true =>
              have reports := ended.failureReports_of_stop
              cases ends with
              | connect link => exact .inl reports
              | fail error => exact .inr ⟨episode, error, due, here, cancelled, reports⟩
      | @drop link since error around next last here fails going changed =>
          obtain ⟨metrics, rfl⟩ := changeSlot_kept changed
          have isOpen := (discard_shuttingDown client.slot link).trans (going_of_shouldStop going).2
          exact absurd stopped (ne_true_of_eq_false isOpen)
      | reconnect here unconnected going =>
          exact absurd stopped (ne_true_of_eq_false (going_of_shouldStop going).2)
      | takeFrame here reads takes => exact (past (by rw [here]; rfl) takes.settled.slot).elim
      | endReading here fails stopping => exact (past (by rw [here]; rfl) rfl).elim
      | endSink here late => exact (past (by rw [here]; rfl) (endSink_slot ..)).elim
      | getInLine here observed sent => exact (past (by rw [here]; rfl) rfl).elim
      | endSend observed ends => exact (past ends.unseeking (endSend_slot ..)).elim

end Client

namespace ClientRun

variable {run later : ClientRun}

theorem Step.failureReports (reachable : run.Reachable) (step : run.Step later)
    (stopped : later.client.isShuttingDown = true) :
    later.client.failureReports = run.client.failureReports ∨ run.client.FailsInStop later.client := by
  cases step with
  | start => exact .inl (run.client.start_windsDown run.stage).1.unchanged.2.2.2
  | cancel => exact .inl rfl
  | stop => exact .inl (run.client.stop_windsDown run.stage).unchanged.2.2.2
  | move moves =>
      obtain ⟨next, around, moved, rfl, rfl⟩ := Client.moves_of_move moves
      have stopped : next.isShuttingDown = true := stopped
      have reports := moved.failureReports reachable.consistent stopped
      exact reports
  | around changes => exact .inl rfl
  | collect =>
      unfold ClientRun.collect
      split <;> exact .inl rfl

theorem Reaches.failureReports (reachable : run.Reachable) (reaches : run.Reaches later)
    (stopped : run.client.isShuttingDown = true) :
    later.client.failureReports = run.client.failureReports := by
  have quiet := reaches.keeps (fun state => state.client.isShuttingDown = true ∧
    state.client.failureReports = run.client.failureReports) reachable ⟨stopped, rfl⟩ ?_
  · exact quiet.2
  · intro before after reachable ⟨stopped, same⟩ step
    have still := step.stopped stopped
    rcases step.failureReports reachable still with quiet | ⟨episode, error, due, here, going, -⟩
    · exact ⟨still, quiet.trans same⟩
    · -- a stop before the step would have cancelled the dial
      rw [reachable.consistent.cancelled_of_stopped here nofun nofun stopped] at going
      cases going

/-- Once a client is shutting down, no failure of a dial or a read is reported, neither in the step that
contains the stop nor after it, wherever the stop finds the task. The one exception is a dial that calls for
the stop itself and fails right then: its client is shutting down when it reports this failure. -/
theorem Reachable.failures_after_stop (reachable : run.Reachable) :
    (∀ later, run.Reaches later → run.client.isShuttingDown = true →
      later.client.failureReports = run.client.failureReports) ∧
    (∀ next, run.Step next → next.client.isShuttingDown = true →
      next.client.failureReports = run.client.failureReports ∨ run.client.FailsInStop next.client) ∧
    ∀ episode error due, run.client.phase = .dialling episode (.fail error) true due →
      run.client.cancelled = false → due ≤ run.stage.now →
        ∃ client stage, run.client.move? run.stage = some (client, stage) ∧
          client.isShuttingDown = true ∧ client.failureReports =
            run.client.failureReports ++ [run.client.dialReport error episode] := by
  refine ⟨fun later reaches stopped => reaches.failureReports reachable stopped,
    fun next step stopped => step.failureReports reachable stopped,
    fun episode error due here going late => ?_⟩
  -- the dial is due, and the only rule that applies is the one that ends it
  have moves : run.client.move? run.stage ≠ none := by
    rw [Ne, ← Client.atRest, Client.atRest_iff, Client.proceed?, here]
    simp [going, late]
  obtain ⟨⟨client, stage⟩, moved⟩ := Option.ne_none_iff_exists'.mp moves
  obtain ⟨next, around, rule, rfl, rfl⟩ := Client.moves_of_move moved
  have ended := rule.endsDial here going
  have reports : next.failureReports = _ := ended.failureReports_of_stop
  have stopped : next.isShuttingDown = true :=
    ended.shuttingDown.trans (run.client.beforeOutcome_stopped run.stage)
  exact ⟨_, _, moved, stopped, reports⟩

/-- The client is stopped in a read, and the connection fails after that. Nothing is reported. -/
theorem Reachable.failures_after_stop_in_read :
    let run := (make (Stage.planned [("ws://feed", [⟨.connect "first", 0, false⟩])] none)
      (ClientOptions.standard "ws://feed") ⟨false, 0⟩).play [.start, .stop]
    run.client.handed = [0] ∧
      (run.play [.push "first" (.error scriptedFailure) 1, .sleep 10]).client.failureReports = [] := by
  intro run
  have reachable : run.Reachable := reachable_play (.planned ..) _ _ _
  obtain ⟨handed, stopped, reports⟩ : run.client.handed = [0] ∧ run.client.isShuttingDown = true ∧
      run.client.failureReports = [] := by
    decide +kernel
  clear_value run
  exact ⟨handed, (reachable.failures_after_stop.1 _ (reaches_play run _) stopped).trans reports⟩

/-- The dial at start-up calls for a stop and fails right then. The failure is reported as a warning after
the stop. -/
theorem failed_dial_reported_after_stop :
    let run := (make (Stage.planned [("ws://feed", [⟨.fail scriptedFailure, 0, true⟩])] none)
      (ClientOptions.standard "ws://feed") ⟨false, 0⟩).play [.start]
    run.Reachable ∧ run.client.records.map LogRecord.event =
      [.connecting "ws://feed", .closing "ws://feed",
        .dialFailed "ws://feed" (.connect "ws://feed" scriptedFailure) run.client.options.supervisorDelay] := by
  intro run
  refine ⟨reachable_play (.planned ..) _ _ _, ?_⟩
  decide +kernel

end ClientRun

end SequencedFeed
