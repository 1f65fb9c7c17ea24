import SequencedFeed.Proofs.Cancelling
import SequencedFeed.Proofs.Ownership
set_option autoImplicit false

/-!
# A cancellation beside a stop

Two runs part at one state: in one the token is cancelled, in the other the client is stopped, and the same
steps follow. Both begin no dial and deliver no mark. They differ by what closing the connection does: a reader
that is parked in a read notices the stop at once and the cancellation only after this read, and a connection
that was held stays open until somebody stops the client.
-/

namespace SequencedFeed

namespace ClientRun

variable {run later : ClientRun}

/-- No task is left, no connection is held, and every connection that a dial gave was closed. -/
structure Gone (run : ClientRun) : Prop where
  task : run.client.phase = .idle
  unconnected : run.client.isConnected = false
  closed : ∀ link ∈ run.client.handed, run.stage.closesOf link = 1

theorem Reachable.gone (reachable : run.Reachable) (task : run.client.phase = .idle)
    (unconnected : run.client.isConnected = false) : run.Gone := by
  refine ⟨task, unconnected, fun link handed => ?_⟩
  have unheld : run.client.slot.held ≠ some link := by
    intro held
    rw [Client.isConnected, held] at unconnected
    cases unconnected
  rw [reachable.accounts.closes, if_pos ⟨handed, unheld⟩]

theorem Reachable.gone_of_stopped (reachable : run.Reachable) (stopped : run.client.isShuttingDown = true)
    (rest : run.client.atRest run.stage) (unsinking : run.client.phase.isSinking = false) : run.Gone := by
  have consistent := reachable.consistent
  exact reachable.gone (consistent.idle_of_stopped rest stopped unsinking) (consistent.unconnected stopped)

theorem Reachable.beginsNothing_of_stop (reachable : run.Reachable) (steps : List ScenarioStep) :
    run.client.BeginsNothing (run.play (.stop :: steps)).client ∧
      (run.play (.stop :: steps)).client.isShuttingDown = true := by
  have step : run.Step (run.begin .stop).1 := .stop
  have stopped : (run.begin .stop).1.client.isShuttingDown = true := by
    simp only [begin, Client.stop_eq]
    rfl
  have begun := reachable.later step.reaches
  obtain ⟨first, -⟩ := step.beginsNothing reachable stopped
  obtain ⟨stays, -⟩ := (reaches_play_cons run .stop steps).staysStopped begun stopped
  exact ⟨first.trans stays.beginsNothing, stays.shuttingDown⟩

theorem Reachable.idle_or_parked (reachable : run.Reachable) (token : run.stage.tokenCancelled = true)
    (rest : run.client.atRest run.stage) (unsinking : run.client.phase.isSinking = false) :
    run.client.phase = .idle ∨
      run.client.isShuttingDown = false ∧ run.client.phase.isReading = true := by
  have consistent := reachable.consistent
  by_cases task : run.client.phase = .idle
  · exact .inl task
  · cases stopped : run.client.isShuttingDown with
    | true => exact .inl (consistent.idle_of_stopped rest stopped unsinking)
    | false =>
        have cancelled := reachable.obeys token (consistent.phase.started task)
        exact (Client.idle_or_reading rest cancelled unsinking).imp_right fun reading => ⟨rfl, reading⟩

theorem Reachable.connected_of_reading (reachable : run.Reachable)
    (unstopped : run.client.isShuttingDown = false) (reading : run.client.phase.isReading = true) :
    run.client.isConnected = true := by
  cases here : run.client.phase with
  | reading link since =>
      rw [Client.isConnected, reachable.consistent.held_of_reading here unstopped]
      rfl
  | _ =>
      rw [here] at reading
      cases reading

theorem CallsOff.unconnected (off : run.CallsOff later) (reachable : later.Reachable)
    (unconnected : run.client.isConnected = false) : later.client.isConnected = false := by
  cases stopping : later.client.isShuttingDown with
  | true => exact reachable.consistent.unconnected stopping
  | false =>
      rw [Client.isConnected, (off.frozen stopping).1]
      exact unconnected

theorem CallsOff.rests (off : run.CallsOff later) (reachable : later.Reachable)
    (rest : later.client.atRest later.stage) (unsinking : later.client.phase.isSinking = false) :
    (run.client.isConnected = false → later.Gone) ∧
      (later.client.phase = .idle ∨
        run.client.phase.isReading = true ∧ later.client.phase = run.client.phase) := by
  have ended := reachable.idle_or_parked off.token rest unsinking
  refine ⟨fun unconnected => ?_, ended.imp_right fun ⟨_, reading⟩ => ?_⟩
  · have nowhere := off.unconnected reachable unconnected
    rcases ended with idle | ⟨unstopped, reading⟩
    · exact reachable.gone idle nowhere
    · -- a reader that nobody has stopped holds the connection it reads from
      rw [reachable.connected_of_reading unstopped reading] at nowhere
      cases nowhere
  · have same := off.windsDown.parked reading
    rw [← same]
    exact ⟨reading, rfl⟩

/-- After a cancellation and after a stop at one state, followed by the same steps, a client begins the same
dials and delivers the same marks. The cancelled one may begin one sink call more, that of the read which the
cancellation found it parked in. Out of the sink and at rest, the stopped client is gone, and so is the
cancelled one if it held no connection. Otherwise its task has ended or is still parked in that read, and
until a stop the connection stays held and unclosed. -/
theorem Reachable.cancel_beside_stop (reachable : run.Reachable) (steps : List ScenarioStep) :
    let cancelled := run.play (.cancel :: steps)
    let stopped := run.play (.stop :: steps)
    (cancelled.client.dials = stopped.client.dials ∧
      cancelled.client.deliveries = stopped.client.deliveries) ∧
    (∃ results calls, cancelled.client.reads = run.client.reads ++ results ∧ results.length ≤ 1 ∧
      (∀ entry ∈ results, ∃ since, run.client.phase = .reading entry.1 since) ∧
      cancelled.client.sinkCalls = stopped.client.sinkCalls ++ calls ∧
      calls.map Prod.snd = results.filterMap (fun entry => SinkCall.ofRead? entry.2)) ∧
    (stopped.client.atRest stopped.stage → stopped.client.phase.isSinking = false → stopped.Gone) ∧
    (cancelled.client.atRest cancelled.stage → cancelled.client.phase.isSinking = false →
      (run.client.isConnected = false → cancelled.Gone) ∧
      (cancelled.client.phase = .idle ∨
        run.client.phase.isReading = true ∧ cancelled.client.phase = run.client.phase) ∧
      (cancelled.client.isShuttingDown = false → cancelled.client.slot.held = run.client.slot.held ∧
        ∀ link, cancelled.stage.closesOf link = run.stage.closesOf link)) := by
  intro cancelled stopped
  obtain ⟨nothing, shut⟩ := reachable.beginsNothing_of_stop steps
  have cancels : run.Reaches cancelled := reaches_play run _
  have stops : run.Reaches stopped := reaches_play run _
  have begun : (run.begin .cancel).1.Reachable := reachable.later (reaches_begin run .cancel)
  have off : (run.begin .cancel).1.CallsOff cancelled := (reaches_play_cons run .cancel steps).callsOff begun rfl
  obtain ⟨dials, -, deliveries, -⟩ := off.windsDown.unchanged
  obtain ⟨results, calls, reads, sinkCalls, led, bound, links⟩ := off.windsDown.sinkCalls
  refine ⟨⟨dials.trans nothing.dials.symm, deliveries.trans nothing.deliveries.symm⟩,
    ⟨results, calls, reads, ?_, links, ?_, led⟩,
    fun rest unsinking => (reachable.later stops).gone_of_stopped shut rest unsinking,
    fun rest unsinking => ?_⟩
  · exact Nat.le_trans (Nat.le_of_add_right_le bound) (Bool.toNat_le _)
  · rw [nothing.sinkCalls]
    exact sinkCalls
  · obtain ⟨gone, ended⟩ := off.rests (reachable.later cancels) rest unsinking
    refine ⟨gone, ended, fun unstopped => ?_⟩
    obtain ⟨slot, closes⟩ := off.frozen unstopped
    exact ⟨congrArg Slot.held slot, closes⟩

/-- A dial at start-up has failed, and nothing is held while the client waits for the next one. Both leave it
gone. -/
theorem Reachable.cancel_beside_stop_in_wait :
    let run := (make (Stage.planned [("ws://feed", [⟨.fail scriptedFailure, 0, false⟩])] none)
      (ClientOptions.standard "ws://feed") ⟨false, 0⟩).play [.start]
    run.client.phase.isSeeking = true ∧ (run.play [.cancel, .sleep 10]).Gone ∧
      (run.play [.stop, .sleep 10]).Gone := by
  intro run
  have reachable : run.Reachable := reachable_play (.planned ..) _ _ _
  obtain ⟨seeking, unconnected, rest, idle, rest', idle'⟩ : run.client.phase.isSeeking = true ∧
      run.client.isConnected = false ∧
      ((run.play [.cancel, .sleep 10]).client.move? (run.play [.cancel, .sleep 10]).stage).isNone = true ∧
      (run.play [.cancel, .sleep 10]).client.phase.isSinking = false ∧
      ((run.play [.stop, .sleep 10]).client.move? (run.play [.stop, .sleep 10]).stage).isNone = true ∧
      (run.play [.stop, .sleep 10]).client.phase.isSinking = false := by
    decide +kernel
  clear_value run
  obtain ⟨-, -, stopped, cancelled⟩ := reachable.cancel_beside_stop [.sleep 10]
  exact ⟨seeking, (cancelled (Option.isNone_iff_eq_none.mp rest) idle).1 unconnected,
    stopped (Option.isNone_iff_eq_none.mp rest') idle'⟩

/-- A reader that waits for a frame does not notice the cancellation: its task and its connection are left
over at rest, and it applies the batch that comes next. After a stop there is neither. -/
theorem cancel_leaves_reader_parked :
    let run := (make (Stage.planned [("ws://feed", [⟨.connect "first", 0, false⟩])] none)
      (ClientOptions.standard "ws://feed") ⟨false, 0⟩).play [.start]
    let push : ScenarioStep := .push "first" (.ok (batchFrame 7 [.null])) 1
    run.Reachable ∧ run.client.started = true ∧
    ((run.play [.cancel]).client.atRest (run.play [.cancel]).stage ∧
      (run.play [.cancel]).client.phase.isSinking = false ∧ ¬ (run.play [.cancel]).Gone) ∧
    (run.play [.cancel, push]).client.sinkCalls ≠ (run.play [.stop, push]).client.sinkCalls := by
  intro run push
  have reachable : run.Reachable := reachable_play (.planned ..) _ _ _
  obtain ⟨started, rest, idle, connected⟩ : run.client.started = true ∧
      ((run.play [.cancel]).client.move? (run.play [.cancel]).stage).isNone = true ∧
      (run.play [.cancel]).client.phase.isSinking = false ∧
      (run.play [.cancel]).client.isConnected = true := by
    decide +kernel
  obtain ⟨called, uncalled⟩ : (run.play [.cancel, push]).client.sinkCalls.length = 1 ∧
      (run.play [.stop, push]).client.sinkCalls.length = 0 := by
    decide +kernel
  clear_value run push
  refine ⟨reachable, started, ⟨Option.isNone_iff_eq_none.mp rest, idle, fun gone => ?_⟩, fun same => ?_⟩
  · rw [gone.unconnected] at connected
    cases connected
  · rw [same, uncalled] at called
    cases called

end ClientRun

end SequencedFeed
