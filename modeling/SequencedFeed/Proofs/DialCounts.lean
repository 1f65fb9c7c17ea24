import Mathlib
import SequencedFeed.Proofs.Endurance
import SequencedFeed.Proofs.Ownership
import SequencedFeed.Proofs.Together
set_option autoImplicit false

/-!
# What is counted about dials

A failed dial is counted where it is given to the task that dialled, and nowhere else. As long as nobody has
cancelled or stopped the client, every dial that began has failed, has given the connection that is held, has
given one that a failed read took away again, or is still in progress.
-/

namespace SequencedFeed

namespace Metrics

@[simp] theorem errorOccurred_dialFailures (metrics : Metrics) (kind : ErrorKind) :
    (metrics.errorOccurred kind).dialFailures = metrics.dialFailures := by
  cases kind <;> rfl

@[simp] theorem meter_dialFailures (metrics : Metrics) (how : SendEnd) :
    (how.meter metrics).dialFailures = metrics.dialFailures := by
  cases how <;> rfl

@[simp] theorem meter_readErrors (metrics : Metrics) (how : SendEnd) :
    (how.meter metrics).readErrors = metrics.readErrors := by
  cases how <;> rfl

@[simp] theorem released_counts (metrics : Metrics) (held : Option Nat) :
    (metrics.released held).dialFailures = metrics.dialFailures ∧
      (metrics.released held).readErrors = metrics.readErrors := by
  cases held <;> exact ⟨rfl, rfl⟩

theorem sum_dialFailures (parts : List Metrics) :
    (sum parts).dialFailures = (parts.map dialFailures).sum := by
  induction parts with
  | nil => rfl
  | cons first rest ih =>
      rw [List.map_cons, List.sum_cons, ← ih]
      rfl

end Metrics

namespace Client

variable {client client' : Client} {stage stage' : Stage}

/-! ### Failed dials -/

/-- Failed dials are counted twice, by the client and by its metrics, and both counts are right. -/
structure CountsFailures (client : Client) : Prop where
  metered : client.metrics.dialFailures = client.retryCount
  failed : client.failedDials.length = client.retryCount

theorem CountsFailures.keep (counts : client.CountsFailures)
    (retried : client'.retryCount = client.retryCount)
    (metered : client'.metrics.dialFailures = client.metrics.dialFailures)
    (failed : client'.failedDials = client.failedDials) : client'.CountsFailures where
  metered := by rw [metered, retried, counts.metered]
  failed := by rw [failed, retried, counts.failed]

theorem CountsFailures.stop (counts : client.CountsFailures) : (client.stop stage).1.CountsFailures := by
  rw [stop_eq]
  refine counts.keep rfl ?_ (seen_log _ failedDial_looksAtDials.log _ _ _)
  exact (Metrics.released_counts ..).1

private theorem CountsFailures.endsDial (counts : client.CountsFailures) {episode : Episode}
    {ends : DialEnd} (ended : EndsDial client stage episode ends client' stage') :
    client'.CountsFailures := by
  cases ended with
  | @install link next around isOpen changed =>
      obtain ⟨gauge, rfl⟩ := changeSlot_gauge changed
      refine counts.keep rfl rfl ?_
      simp [failedDials, Occurrence.failedDial?]
  | refuse stopped =>
      refine counts.keep rfl rfl ?_
      simp [failedDials, Occurrence.failedDial?]
  | @fail error =>
      have metered : client.metrics.dialFailures + 1 = client.retryCount + 1 := by rw [counts.metered]
      have failed := counts.failed
      refine ⟨metered, ?_⟩
      simpa [failedDials, Occurrence.failedDial?] using failed

theorem CountsFailures.moves (counts : client.CountsFailures)
    (moves : client.Moves stage client' stage') : client'.CountsFailures := by
  have looks := failedDial_looksAtDials
  have moved := moves
  cases moves with
  | pass passes => exact counts.keep rfl rfl rfl
  | skipCancelled here enabled isOpen cancelled => exact counts.keep rfl rfl (seen_log _ looks.log _ _ _)
  | dial here enabled isOpen going next =>
      exact counts.keep rfl rfl ((seen_skip _ rfl _ _).trans (seen_log _ looks.log _ _ _))
  | @endDial episode ends stops due _ _ here going late ended =>
      cases stops with
      | false => exact counts.endsDial ended
      | true => exact counts.stop.endsDial ended
  | takeFrame here reads takes =>
      have failed := moved.seen_dials looks (by rw [here]; rfl)
      cases takes with
      | blank | undecodable | pass | apply => exact counts.keep rfl rfl failed
  | endReading here fails stopping => exact counts.keep rfl rfl (moved.seen_dials looks (by rw [here]; rfl))
  | drop here fails going changed =>
      have failed := moved.seen_dials looks (by rw [here]; rfl)
      obtain ⟨gauge, rfl⟩ := changeSlot_gauge changed
      exact counts.keep rfl rfl failed
  | reconnect here unconnected going =>
      exact counts.keep rfl rfl (moved.seen_dials looks (by rw [here]; rfl))
  | @endSink start due mark here late =>
      obtain ⟨-, -, -, -, -, -, retried⟩ := endSink_kept client stage.now start mark
      refine counts.keep retried ?_ (moved.seen_dials looks (by rw [here]; rfl))
      rw [endSink_metrics]
      split
      · exact Metrics.errorOccurred_dialFailures ..
      · rfl
  | getInLine here observed sent => exact counts.keep rfl rfl rfl
  | @endSend mark how channel channel' observed ends =>
      obtain ⟨-, -, -, -, -, -, retried, metrics⟩ := endSend_kept client stage.now mark how
      refine counts.keep retried ?_ (moved.seen_dials looks ends.unseeking)
      rw [metrics]
      exact Metrics.meter_dialFailures ..

theorem CountsFailures.acts (counts : client.CountsFailures) (acts : client.Acts stage client' stage') :
    client'.CountsFailures := by
  cases acts with
  | start starts =>
      cases starts with
      | report barred => exact counts.keep rfl rfl (seen_log _ failedDial_looksAtDials.log _ _ _)
      | first enabled unstarted => exact counts.keep rfl rfl rfl
  | cancel => exact counts.keep rfl rfl rfl
  | stop => exact counts.stop
  | move moves =>
      obtain ⟨next, around, moved, rfl, rfl⟩ := moves_of_move moves
      exact (counts.moves moved).keep rfl rfl rfl

theorem countsFailures_make (number : Nat) (options : ClientOptions) (sink : SinkScript) :
    (Client.make number options sink).CountsFailures :=
  ⟨rfl, rfl⟩

theorem CountsFailures.le (counts : client.CountsFailures) (counts' : client'.CountsFailures)
    (grows : client.history <:+ client'.history) : client.retryCount ≤ client'.retryCount := by
  rw [← counts.failed, ← counts'.failed]
  exact (seen_prefix_of_suffix Occurrence.failedDial? grows).length_le

/-- What can become of the count: it stays, or an uncancelled task is given the failure of its dial. -/
def Retries (client client' : Client) : Prop :=
  client'.retryCount = client.retryCount ∨
    client'.retryCount = client.retryCount + 1 ∧ client.cancelled = false ∧
      ∃ episode error stops due, client.phase = .dialling episode (.fail error) stops due

theorem Moves.retries (moves : client.Moves stage client' stage') : client.Retries client' := by
  cases moves with
  | pass | skipCancelled | dial | endReading | reconnect | getInLine => exact .inl rfl
  | @endDial episode ends stops due _ _ here going late ended =>
      have before : (client.beforeOutcome stage stops).1.retryCount = client.retryCount := by
        cases stops with
        | false => rfl
        | true => rw [beforeOutcome, if_pos rfl, stop_eq]
      cases ended with
      | install isOpen changed =>
          obtain ⟨gauge, rfl⟩ := changeSlot_gauge changed
          exact .inl before
      | refuse stopped => exact .inl before
      | @fail error => exact .inr ⟨congrArg Nat.succ before, going, episode, error, stops, due, here⟩
  | takeFrame here reads takes =>
      cases takes with
      | blank | undecodable | pass | apply => exact .inl rfl
  | drop here fails going changed =>
      obtain ⟨gauge, rfl⟩ := changeSlot_gauge changed
      exact .inl rfl
  | @endSink start due mark here late =>
      obtain ⟨-, -, -, -, -, -, retried⟩ := endSink_kept client stage.now start mark
      exact .inl retried
  | @endSend mark how channel channel' observed ends =>
      obtain ⟨-, -, -, -, -, -, retried, -⟩ := endSend_kept client stage.now mark how
      exact .inl retried

theorem Acts.retries (acts : client.Acts stage client' stage') : client.Retries client' := by
  cases acts with
  | start starts =>
      cases starts with
      | report | first => exact .inl rfl
  | cancel => exact .inl rfl
  | stop =>
      rw [stop_eq]
      exact .inl rfl
  | move moves =>
      obtain ⟨next, around, moved, rfl, rfl⟩ := moves_of_move moves
      exact moved.retries

/-! ### The balance of a client that goes on -/

/-- Every dial that began has failed, has given a connection that was lost, has given the one that is held,
or is in progress. -/
def Balanced (client : Client) : Prop :=
  client.dialsBegun = client.retryCount + client.metrics.readErrors + client.isConnected.toNat +
    client.phase.dial?.isSome.toNat

/-- What neither begins nor ends a dial keeps the balance if it neither wins nor loses a connection. -/
theorem Balanced.keep (balanced : client.Balanced) (begun : client'.dialsBegun = client.dialsBegun)
    (retried : client'.retryCount = client.retryCount)
    (lost : client'.metrics.readErrors = client.metrics.readErrors) (slot : client'.slot = client.slot)
    (undialled : client.phase.dial? = none) (undialled' : client'.phase.dial? = none) :
    client'.Balanced := by
  unfold Balanced at balanced ⊢
  rw [begun, retried, lost, isConnected, slot, undialled', balanced, undialled, isConnected]

private theorem Balanced.endsDial (balanced : client.Balanced) (consistent : client.Consistent stage)
    {episode : Episode} {ends : DialEnd} {stops : Bool} {due : Nat}
    (here : client.phase = .dialling episode ends stops due)
    (ended : EndsDial client stage episode ends client' stage') (going : client'.shouldStop = false) :
    client'.Balanced := by
  have empty := consistent.phase.empty (by rw [here]; rfl)
  have begun : client'.dialsBegun = client.dialsBegun := by
    cases ended with
    | @install link next around isOpen changed =>
        obtain ⟨gauge, rfl⟩ := changeSlot_gauge changed
        simp [dialsBegun, Occurrence.dial?]
    | refuse => simp [dialsBegun, Occurrence.dial?]
    | fail => simp [dialsBegun, Occurrence.dial?]
  unfold Balanced at balanced ⊢
  rw [isConnected, empty, here] at balanced
  rw [begun, balanced]
  cases ended with
  | @install link next around isOpen changed =>
      have undialled := next.phaseAfterDial_undialled episode
      obtain ⟨rfl, rfl⟩ := changeSlot_install changed isOpen empty
      rw [enter_phase, undialled]
      rfl
  | refuse stopped => exact absurd stopped (ne_true_of_eq_false (going_of_shouldStop going).2)
  | @fail error =>
      rw [enter_phase, (phaseAfterFailure_plain ..).1]
      show _ = client.retryCount + 1 + client.metrics.readErrors + client.slot.held.isSome.toNat + 0
      rw [empty]
      simp only [Option.isSome_none, Bool.toNat_false, Phase.dial?, Option.isSome_some, Bool.toNat_true]
      omega

theorem Balanced.moves (balanced : client.Balanced) (consistent : client.Consistent stage)
    (lives : client.Lives) (moves : client.Moves stage client' stage') (going : client'.shouldStop = false) :
    client'.Balanced := by
  have aside (unseeking : client.phase.isSeeking = false) :
      client'.dialsBegun = client.dialsBegun ∧ client.phase.dial? = none ∧ client'.phase.dial? = none :=
    ⟨congrArg List.length (moves.seen_dials dial_looksAtDials unseeking),
      Phase.undialled_of_unseeking unseeking, moves.undialled unseeking⟩
  cases moves with
  | pass passes =>
      cases inside : client.phase.dial? with
      | none => exact balanced.keep rfl rfl rfl rfl inside passes.undialled
      | some episode =>
          -- only a cancelled task leaves a dial that has not ended
          have cancelled := passes.cancelled_of_dial inside
          exact absurd cancelled (ne_true_of_eq_false (going_of_shouldStop going).1)
  | skipCancelled here enabled isOpen cancelled =>
      exact absurd cancelled (ne_true_of_eq_false (going_of_shouldStop going).1)
  | @dial episode outcome _ here enabled isOpen uncancelled next =>
      have inside := dial_phase outcome episode stage.now
      have begun : (((client.log stage.now (.connecting client.url)).note stage.now
          (.dialBegun client.url)).enter (outcome.phase episode stage.now)).dialsBegun =
            client.dialsBegun + 1 := by
        simp [dialsBegun, Occurrence.dial?]
      unfold Balanced at balanced ⊢
      rw [here] at balanced
      rw [begun, balanced, enter_phase, inside]
      rfl
  | @endDial episode ends stops due _ _ here uncancelled late ended =>
      cases stops with
      | false => exact balanced.endsDial consistent here ended going
      | true =>
          have stopped := ended.keeps.stopped (beforeOutcome_stopped client stage)
          exact absurd stopped (ne_true_of_eq_false (going_of_shouldStop going).2)
  | takeFrame here reads takes =>
      obtain ⟨begun, undialled, undialled'⟩ := aside (by rw [here]; rfl)
      have slot := takes.settled.slot
      cases takes with
      | blank | undecodable | pass | apply =>
          exact balanced.keep begun rfl rfl slot undialled undialled'
  | endReading here fails stopping =>
      exact absurd stopping (ne_true_of_eq_false going)
  | @drop link since error around next last here fails uncancelled changed =>
      obtain ⟨begun, undialled, undialled'⟩ := aside (by rw [here]; rfl)
      have held := consistent.held_of_reading here (going_of_shouldStop uncancelled).2
      obtain ⟨rfl, rfl⟩ := changeSlot_discard changed held
      unfold Balanced at balanced ⊢
      rw [isConnected, held, undialled] at balanced
      rw [begun, balanced, undialled']
      rfl
  | reconnect here unconnected uncancelled =>
      -- a task that looks for no connection has one
      have connected := lives.connected (by rw [here]; rfl)
      rw [isConnected, unconnected] at connected
      cases connected
  | @endSink start due mark here late =>
      obtain ⟨begun, undialled, undialled'⟩ := aside (by rw [here]; rfl)
      obtain ⟨-, -, -, -, -, slot, retried⟩ := endSink_kept client stage.now start mark
      refine balanced.keep begun retried ?_ slot undialled undialled'
      rw [endSink_metrics]
      split <;> rfl
  | getInLine here observed sent =>
      obtain ⟨begun, undialled, undialled'⟩ := aside (by rw [here]; rfl)
      exact balanced.keep begun rfl rfl rfl undialled undialled'
  | @endSend mark how channel channel' observed ends =>
      obtain ⟨begun, undialled, undialled'⟩ := aside ends.unseeking
      obtain ⟨-, -, -, -, -, slot, retried, metrics⟩ := endSend_kept client stage.now mark how
      refine balanced.keep begun retried ?_ slot undialled undialled'
      rw [metrics]
      exact Metrics.meter_readErrors ..

theorem Balanced.acts (balanced : client.shouldStop = false → client.Balanced)
    (consistent : client.Consistent stage) (endures : client.Endures stage)
    (acts : client.Acts stage client' stage') (going : client'.shouldStop = false) : client'.Balanced := by
  cases acts with
  | start starts =>
      cases starts with
      | @report event barred =>
          have before : client.Balanced := balanced going
          have begun : (client.log stage.now event).dialsBegun = client.dialsBegun :=
            congrArg List.length (seen_log _ dial_looksAtDials.log _ _ _)
          unfold Balanced at before ⊢
          rw [begun]
          exact before
      | first enabled unstarted =>
          have idle : client.phase = .idle := by
            by_contra task
            exact absurd (consistent.phase.started task) (ne_true_of_eq_false unstarted)
          have isOpen := (going_of_shouldStop going).2
          have uncancelled : client.cancelled = false := by
            refine Bool.eq_false_iff.mpr fun cancelled => ?_
            rcases endures.bidden cancelled with token | stopped
            · exact absurd token (ne_true_of_eq_false (going_of_shouldStop going).1)
            · exact absurd stopped (ne_true_of_eq_false isOpen)
          have before := balanced (Bool.or_eq_false_iff.mpr ⟨uncancelled, isOpen⟩)
          exact before.keep rfl rfl rfl rfl (by rw [idle]; rfl) rfl
  | cancel =>
      have uncancelled := (Bool.or_eq_false_iff.mp (going_of_shouldStop going).1).1
      have isOpen := (going_of_shouldStop going).2
      exact balanced (Bool.or_eq_false_iff.mpr ⟨uncancelled, isOpen⟩)
  | stop =>
      rw [stop_eq] at going
      exact absurd (going_of_shouldStop going).2 nofun
  | move moves =>
      obtain ⟨next, around, moved, rfl, rfl⟩ := moves_of_move moves
      have before : client.shouldStop = false := moved.keeps.going going
      have lives := endures.lives (consistent.phase.started moved.task) before
      have after : next.Balanced := (balanced before).moves consistent lives moved going
      exact after

end Client

namespace ClientRun.Reachable

variable {run : ClientRun}

theorem countsFailures (reachable : run.Reachable) : run.client.CountsFailures :=
  reachable.invariant (fun client _ => client.CountsFailures) (fun _ options sink _ =>
    Client.countsFailures_make 0 options sink) (fun _ counts acts => counts.acts acts) fun counts _ => counts

theorem balanced (reachable : run.Reachable) (going : run.client.shouldStop = false) :
    run.client.Balanced := by
  revert going
  exact reachable.invariant (fun client _ => client.shouldStop = false → client.Balanced)
    (fun _ _ _ _ _ => rfl)
    (fun before balanced acts => Client.Balanced.acts balanced before.consistent before.endures acts)
    (fun balanced _ => balanced)

end ClientRun.Reachable

theorem Fleet.Reachable.countsFailures {fleet : Fleet} (reachable : fleet.Reachable) {client : Client}
    (member : client ∈ fleet.clients) : client.CountsFailures := by
  obtain ⟨number, found⟩ := List.mem_iff_getElem?.mp member
  exact reachable.each Client.CountsFailures Client.countsFailures_make
    (fun counts acts => counts.acts acts) found

/-- The retry count of a client is its metric of failed dials and the number of dials whose failure was given
to its task. It never falls, and nothing raises it but the failure of a dial that was not abandoned; the other
dials that ended gave a connection, whether or not the slot took it. Until the token is cancelled or a stop has
begun, the dials that began are the failed ones, one for every read that failed, one if the client is connected
and one if a dial is in progress. The retry count of several clients is the sum of theirs and the metric that
they share. -/
theorem dials_are_accounted_for :
    (∀ run : ClientRun, run.Reachable →
      run.client.retryCount = run.client.metrics.dialFailures ∧
      run.client.retryCount = run.client.failedDials.length ∧
      (∀ later, run.Reaches later → run.client.retryCount ≤ later.client.retryCount) ∧
      (∀ next, run.Step next → run.client.Retries next.client) ∧
      run.client.dialsEnded = run.client.retryCount + run.client.handed.length ∧
      (run.stage.tokenCancelled = false → run.client.isShuttingDown = false →
        run.client.dialsBegun =
          run.client.retryCount + run.client.metrics.errors .read +
            (if run.client.isConnected then 1 else 0) +
            (if run.client.phase.dial?.isSome then 1 else 0))) ∧
    ∀ fleet : Fleet, fleet.Reachable →
      fleet.retryCount = (fleet.clients.map Client.retryCount).sum ∧
      fleet.retryCount = fleet.metrics.dialFailures ∧
      ∀ client ∈ fleet.clients,
        client.retryCount = client.metrics.dialFailures ∧ client.retryCount = client.failedDials.length := by
  refine ⟨fun run reachable => ?_, fun fleet reachable => ?_⟩
  · have counts := reachable.countsFailures
    refine ⟨counts.metered.symm, counts.failed.symm, fun later reaches => ?_, fun next step => ?_, ?_,
      fun uncancelled unstopped => ?_⟩
    · exact counts.le (reachable.later reaches).countsFailures (ClientRun.Reaches.history reaches)
    · rcases step.acts with acts | ⟨same, -⟩
      · exact acts.retries
      · exact .inl (congrArg Client.retryCount same)
    · rw [Client.dialsEnded_eq, counts.failed]
    · have spared : run.client.cancelled = false := by
        refine Bool.eq_false_iff.mpr fun cancelled => ?_
        rcases reachable.endures.bidden cancelled with token | stopped
        · exact absurd token (ne_true_of_eq_false uncancelled)
        · exact absurd stopped (ne_true_of_eq_false unstopped)
      have balanced := reachable.balanced (Bool.or_eq_false_iff.mpr ⟨spared, unstopped⟩)
      unfold Client.Balanced at balanced
      rw [balanced, Bool.toNat, Bool.toNat]
      cases run.client.isConnected <;> cases run.client.phase.dial?.isSome <;> rfl
  · have metered (client : Client) (member : client ∈ fleet.clients) :
        client.metrics.dialFailures = client.retryCount := (reachable.countsFailures member).metered
    refine ⟨rfl, ?_, fun client member => ⟨(metered client member).symm, ?_⟩⟩
    · rw [Fleet.metrics, Metrics.sum_dialFailures, List.map_map]
      exact congrArg List.sum (List.map_congr_left fun client member => (metered client member).symm)
    · exact (reachable.countsFailures member).failed.symm

/-- A dial at start-up and one of a reconnect have failed, and the client reads from its second connection. Of
two others the first one has failed to dial twice. -/
theorem dials_are_accounted_for_after_failures :
    let run := (ClientRun.make (Stage.planned
      [("ws://feed", [⟨.failNext 1, 0, false⟩, ⟨.connect "first", 0, false⟩, ⟨.failNext 1, 5, false⟩,
        ⟨.connect "second", 5, false⟩])] none) (ClientOptions.standard "ws://feed") ⟨false, 0⟩).play
          [.start, .sleep 20000, .push "first" (.error scriptedFailure) 1, .sleep 20000]
    let fleet := (Fleet.make
      (Stage.planned [("ws://down", [⟨.failNext 2, 0, false⟩]), ("ws://up", [⟨.connect "first", 0, false⟩])]
        none) ⟨["ws://down", "ws://up"], .ofSeconds 20⟩ 0 ⟨false, 0⟩).play [.start, .sleep 6000]
    run.client.retryCount = 2 ∧ run.client.dialsBegun = 4 ∧ run.client.dialsEnded = 4 ∧
      fleet.metrics.dialFailures = 2 := by
  intro run fleet
  have reachable : run.Reachable := ClientRun.reachable_play (.planned ..) _ _ _
  have reachable' : fleet.Reachable := Fleet.reachable_play (.planned ..) _ _ _ _
  obtain ⟨metered, -, -, -, ended, balance⟩ := dials_are_accounted_for.1 run reachable
  obtain ⟨sum, shared, -⟩ := dials_are_accounted_for.2 fleet reachable'
  obtain ⟨failures, handed, reads, uncancelled, unstopped, connected, undialled⟩ :
      run.client.metrics.dialFailures = 2 ∧ run.client.handed = [0, 1] ∧ run.client.metrics.errors .read = 1 ∧
        run.stage.tokenCancelled = false ∧ run.client.isShuttingDown = false ∧
          run.client.isConnected = true ∧ run.client.phase.dial?.isSome = false := by
    decide
  have counts : fleet.clients.map Client.retryCount = [2, 0] := by
    subst fleet
    cbv
  have retried : run.client.retryCount = 2 := metered.trans failures
  refine ⟨retried, ?_, ?_, ?_⟩
  · rw [balance uncancelled unstopped, retried, reads, connected, undialled]
    rfl
  · rw [ended, retried, handed]
    rfl
  · rw [← shared, sum, counts]
    rfl

end SequencedFeed
