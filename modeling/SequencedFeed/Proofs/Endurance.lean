import SequencedFeed.Proofs.Consistency
set_option autoImplicit false

/-!
# Only a stop ends a client

A client that was started keeps its task until its token is cancelled or it is asked to stop, whatever
fails. The invariant says whose task it is and when it holds a connection; that a reader always has one
rests on the client having no reason to give up a dial. It says nothing of cancelled and stopped clients.
-/

namespace SequencedFeed

/-- Whose task it is: the supervisor dials until there is a first connection, and then the reader takes
over. -/
inductive TaskOwner
  | supervisor
  | reader
deriving DecidableEq

/-- What a task at rest waits for. -/
inductive Wait
  | dial
  | retry
  | backOff
  | frame
  | sink
  | room
deriving DecidableEq

def Wait.isConnected : Wait → Bool
  | .dial => false
  | .retry => false
  | .backOff => false
  | .frame => true
  | .sink => true
  | .room => true

def Episode.owner : Episode → TaskOwner
  | .startUp => .supervisor
  | .reconnect _ => .reader

namespace Phase

def owner? : Phase → Option TaskOwner
  | .idle => none
  | .connecting episode => some episode.owner
  | .hanging episode => some episode.owner
  | .dialling episode _ _ _ => some episode.owner
  | .retrying _ => some .supervisor
  | .backingOff .. => some .reader
  | .ready => some .reader
  | .looping => some .reader
  | .reading .. => some .reader
  | .sinking .. => some .reader
  | .confirming _ => some .reader
  | .sending .. => some .reader

/-- What a task waits for in a phase, if it can wait there. -/
def wait? : Phase → Option Wait
  | .hanging _ => some .dial
  | .dialling .. => some .dial
  | .retrying _ => some .retry
  | .backingOff .. => some .backOff
  | .reading .. => some .frame
  | .sinking .. => some .sink
  | .sending .. => some .room
  | _ => none

theorem owner_of_task {phase : Phase} (task : phase ≠ .idle) : ∃ owner, phase.owner? = some owner := by
  cases phase <;> first | exact absurd rfl task | exact ⟨_, rfl⟩

theorem task_of_owner {phase : Phase} {owner : TaskOwner} (owned : phase.owner? = some owner) :
    phase ≠ .idle := by
  rintro rfl
  cases owned

theorem owner_of_unseeking {phase : Phase} (task : phase ≠ .idle) (unseeking : phase.isSeeking = false) :
    phase.owner? = some .reader := by
  cases phase <;> first | exact absurd rfl task | rfl | cases unseeking

theorem task_of_seeking {phase : Phase} (seeking : phase.isSeeking = true) : phase ≠ .idle := by
  rintro rfl
  cases seeking

theorem isConnected_of_wait {phase : Phase} {wait : Wait} (waits : phase.wait? = some wait) :
    wait.isConnected = !phase.isSeeking := by
  cases phase <;> first | (obtain rfl := Option.some.inj waits; rfl) | cases waits

end Phase

namespace Client

variable {client client' : Client} {stage stage' : Stage}

theorem wait_of_atRest (atRest : client.atRest stage) (task : client.phase ≠ .idle) :
    ∃ wait, client.phase.wait? = some wait := by
  simp only [Client.atRest, move?, Option.map_eq_none_iff, proceed?] at atRest
  cases here : client.phase with
  | idle => exact absurd here task
  | connecting | ready | looping | confirming =>
      rw [here] at atRest
      cases atRest
  | hanging | dialling | retrying | backingOff | reading | sinking | sending => exact ⟨_, rfl⟩

/-- There is a task. It looks for a connection or holds one, and it is the supervisor's as long as there
was no connection. -/
structure Lives (client : Client) : Prop where
  task : client.phase ≠ .idle
  connected : client.phase.isSeeking = false → client.isConnected = true
  owner : client.phase.owner? = some .supervisor ↔ client.installs = []

theorem Lives.goOn (lives : client.Lives) (task : client'.phase ≠ .idle)
    (owner : client'.phase.owner? = client.phase.owner?)
    (connected : client'.phase.isSeeking = false → client'.isConnected = true)
    (installs : client'.installs = client.installs) : client'.Lives where
  task := task
  connected := connected
  owner := by rw [owner, installs]; exact lives.owner

theorem Lives.keepOn (lives : client.Lives) (unseeking : client.phase.isSeeking = false)
    (task : client'.phase ≠ .idle) (unseeking' : client'.phase.isSeeking = false)
    (slot : client'.slot = client.slot) (installs : client'.installs = client.installs) : client'.Lives := by
  refine lives.goOn task ?_ (fun _ => ?_) installs
  · rw [Phase.owner_of_unseeking task unseeking', Phase.owner_of_unseeking lives.task unseeking]
  · rw [isConnected, slot]
    exact lives.connected unseeking

theorem outcome_owner (outcome : Outcome) (episode : Episode) (now : Nat) :
    (outcome.phase episode now).owner? = some episode.owner := by
  obtain ⟨ends, after, stops⟩ := outcome
  cases ends <;> rfl

theorem phaseAfterDial_going (going : client.shouldStop = false) (episode : Episode) :
    (client.phaseAfterDial episode).owner? = some .reader := by
  cases episode with
  | startUp =>
      rw [phaseAfterDial, going]
      rfl
  | reconnect waited => rfl

theorem phaseAfterFailure_going (going : client.shouldStop = false) (now : Nat) (episode : Episode) :
    (client.phaseAfterFailure now episode).isSeeking = true ∧
      (client.phaseAfterFailure now episode).owner? = some episode.owner := by
  cases episode with
  | startUp => exact ⟨rfl, rfl⟩
  | reconnect waited =>
      rw [phaseAfterFailure, going]
      exact ⟨rfl, rfl⟩

private theorem Lives.endsDial (lives : client.Lives) {episode : Episode} {ends : DialEnd} {stops : Bool}
    {due : Nat} (here : client.phase = .dialling episode ends stops due)
    (ended : EndsDial client stage episode ends client' stage') (going : client'.shouldStop = false) :
    client'.Lives := by
  cases ended with
  | @install link next around isOpen changed =>
      have connects : next.shouldStop = false := going
      have after := phaseAfterDial_going connects episode
      obtain ⟨metrics, rfl⟩ := changeSlot_kept changed
      refine ⟨Phase.task_of_owner after, fun _ => ?_, ?_⟩
      · rw [isConnected, Slot.install, isOpen]
        rfl
      · refine iff_of_false (fun supervised => ?_) fun none => ?_
        · cases after.symm.trans supervised
        · have added := ((seen_log _ installed_looksAtDials.log _ _ _).trans (seen_cons ..)).symm.trans none
          exact List.cons_ne_nil _ _ (List.append_eq_nil_iff.mp added).2
  | refuse stopped => exact absurd stopped (ne_true_of_eq_false (going_of_shouldStop going).2)
  | @fail error =>
      have waits : client.shouldStop = false := going
      obtain ⟨seeking, owner⟩ := phaseAfterFailure_going waits stage.now episode
      refine lives.goOn ?_ ?_ ?_ ?_
      · exact Phase.task_of_seeking seeking
      · rw [enter_phase, owner, here]
        rfl
      · intro unseeking
        exact absurd seeking (ne_true_of_eq_false unseeking)
      · exact (seen_log _ installed_looksAtDials.log _ _ _).trans (seen_skip _ rfl _ _)

theorem Lives.moves (consistent : client.Consistent stage) (lives : client.Lives)
    (moves : client.Moves stage client' stage') (going : client'.shouldStop = false) : client'.Lives := by
  have before := moves.keeps.going going
  obtain ⟨uncancelled, isOpen⟩ := going_of_shouldStop before
  have enabled := consistent.enabled (consistent.phase.started lives.task)
  have installs (unseeking : client.phase.isSeeking = false) : client'.installs = client.installs :=
    moves.seen_dials installed_looksAtDials unseeking
  cases moves with
  | pass passes =>
      -- a dial is skipped or abandoned, and the search ends without a connection, only by a client that is
      -- disabled, shutting down or cancelled
      cases passes with
      | skip here barred =>
          rcases barred with disabled | stopped
          · exact absurd disabled (ne_true_of_eq_false enabled)
          · exact absurd stopped (ne_true_of_eq_false isOpen)
      | abandon here cancelled | giveUp here cancelled | leave here cancelled =>
          exact absurd cancelled (ne_true_of_eq_false uncancelled)
      | endBackOff here stopping | leaveUnconnected here unconnected stopping =>
          exact absurd stopping (ne_true_of_eq_false before)
      | retry here | redial here => exact lives.goOn nofun (by rw [here]; rfl) nofun rfl
      | handOver here | beginRead here | letGo here | letGoInLine here =>
          exact lives.keepOn (by rw [here]; rfl) nofun rfl rfl rfl
  | skipCancelled here enabled isOpen cancelled =>
      exact absurd cancelled (ne_true_of_eq_false uncancelled)
  | @dial episode outcome _ here enabled isOpen going next =>
      have seeking := Phase.isSeeking_of_dial (dial_phase outcome episode stage.now)
      refine lives.goOn (Phase.task_of_seeking seeking) ?_ ?_ ?_
      · rw [here]
        exact outcome_owner ..
      · intro unseeking
        exact absurd seeking (ne_true_of_eq_false unseeking)
      · exact (seen_skip _ rfl _ _).trans (seen_log _ installed_looksAtDials.log _ _ _)
  | @endDial episode ends stops due _ _ here uncancelled late ended =>
      cases stops with
      | false => exact lives.endsDial here ended going
      | true =>
          have stopped := ended.keeps.stopped (beforeOutcome_stopped client stage)
          exact absurd stopped (ne_true_of_eq_false (going_of_shouldStop going).2)
  | takeFrame here reads takes =>
      have unseeking : client.phase.isSeeking = false := by rw [here]; rfl
      obtain ⟨unseeking', -, task, -, -, -, slot⟩ := takes.settled
      exact lives.keepOn unseeking task unseeking' slot (installs unseeking)
  | endReading here fails stopping => exact absurd stopping (ne_true_of_eq_false before)
  | drop here fails going changed =>
      exact lives.goOn nofun (by rw [here]; rfl) nofun (installs (by rw [here]; rfl))
  | reconnect here unconnected going =>
      -- a task that looks for no connection has one
      have connected := lives.connected (by rw [here]; rfl)
      rw [isConnected, unconnected] at connected
      cases connected
  | @endSink start due mark here late =>
      have unseeking : client.phase.isSeeking = false := by rw [here]; rfl
      refine lives.keepOn unseeking ?_ ?_ (endSink_slot ..) (installs unseeking)
      · rw [endSink_phase]
        cases mark <;> nofun
      · rw [endSink_phase]
        cases mark <;> rfl
  | getInLine here observed sent => exact lives.keepOn (by rw [here]; rfl) nofun rfl rfl rfl
  | @endSend mark how channel channel' observed ends =>
      have unseeking := ends.unseeking
      refine lives.keepOn unseeking ?_ ?_ (endSend_slot ..) (installs unseeking)
      · rw [endSend_phase]
        nofun
      · rw [endSend_phase]
        rfl

/-! ### Whatever happens -/

theorem Moves.token (moves : client.Moves stage client' stage') :
    stage'.tokenCancelled = stage.tokenCancelled := by
  obtain ⟨scripts, links, channel, stopAsked, rfl⟩ := moves.surroundings
  rfl

theorem Acts.started (acts : client.Acts stage client' stage') (started : client.started = true) :
    client'.started = true := by
  cases acts with
  | start starts =>
      cases starts with
      | report barred => exact started
      | first enabled unstarted => rfl
  | cancel => exact started
  | stop => exact (stop_keeps client stage).started.trans started
  | move moves =>
      obtain ⟨next, around, moved, rfl, rfl⟩ := moves_of_move moves
      exact moved.keeps.started.trans started

theorem started_of_start (enabled : client.options.endpoint.isDisabled = false) :
    (client.start stage).started = true := by
  have starts := client.start_starts stage
  revert starts
  generalize client.start stage = started'
  intro starts
  cases starts with
  | report barred =>
      rcases barred with disabled | started
      · exact absurd disabled (ne_true_of_eq_false enabled)
      · exact started
  | first enabled unstarted => rfl

/-- Only its token or a stop cancels the client, and a client that was started and goes on has a task. -/
structure Endures (client : Client) (stage : Stage) : Prop where
  bidden : client.cancelled = true → stage.tokenCancelled = true ∨ client.slot.shuttingDown = true
  unstarted : client.started = false → client.installs = []
  lives : client.started = true → client.shouldStop = false → client.Lives

theorem Endures.make (number : Nat) (options : ClientOptions) (sink : SinkScript) :
    (Client.make number options sink).Endures stage where
  bidden := nofun
  unstarted _ := rfl
  lives := nofun

theorem Endures.start (endures : client.Endures stage) (starts : client.Starts stage client') :
    client'.Endures stage := by
  cases starts with
  | @report event barred =>
      have installs : (client.log stage.now event).installs = client.installs :=
        seen_log _ installed_looksAtDials.log _ _ _
      exact
        { bidden := endures.bidden
          unstarted := fun unstarted => installs.trans (endures.unstarted unstarted)
          lives := fun started going =>
            have lives := endures.lives started going
            lives.goOn lives.task rfl lives.connected installs }
  | first enabled unstarted =>
      exact
        { bidden := .inl
          unstarted := nofun
          lives := fun _ _ => ⟨nofun, nofun, iff_of_true rfl (endures.unstarted unstarted)⟩ }

theorem Endures.stop (endures : client.Endures stage) :
    (client.stop stage).1.Endures (client.stop stage).2 := by
  rw [stop_eq]
  exact
    { bidden := fun _ => .inr rfl
      unstarted := fun unstarted =>
        (seen_log _ installed_looksAtDials.log _ _ _).trans (endures.unstarted unstarted)
      lives := fun _ going => absurd (going_of_shouldStop going).2 nofun }

theorem Endures.moves (endures : client.Endures stage) (consistent : client.Consistent stage)
    (moves : client.Moves stage client' stage') : client'.Endures stage' where
  bidden cancelled := by
    rw [moves.token]
    rcases moves.keeps.uncancelled cancelled with before | stopped
    · exact (endures.bidden before).imp_right moves.keeps.stopped
    · exact .inr stopped
  unstarted unstarted := by
    have started := moves.keeps.started.trans (consistent.phase.started moves.task)
    exact absurd started (ne_true_of_eq_false unstarted)
  lives started going :=
    have before := endures.lives (moves.keeps.started.symm.trans started) (moves.keeps.going going)
    before.moves consistent moves going

theorem Endures.acts (endures : client.Endures stage) (consistent : client.Consistent stage)
    (acts : client.Acts stage client' stage') : client'.Endures stage' := by
  cases acts with
  | start starts => exact endures.start starts
  | cancel =>
      exact
        { bidden := fun _ => .inl rfl
          unstarted := endures.unstarted
          lives := fun started going => by
            obtain ⟨-, unstarted⟩ := Bool.or_eq_false_iff.mp (going_of_shouldStop going).1
            exact absurd started (ne_true_of_eq_false unstarted) }
  | stop => exact endures.stop
  | move moves =>
      obtain ⟨next, around, moved, rfl, rfl⟩ := moves_of_move moves
      have after : next.Endures around := endures.moves consistent moved
      exact
        { bidden := after.bidden
          unstarted := after.unstarted
          lives := fun started going =>
            have lives := after.lives started going
            lives.goOn lives.task rfl lives.connected rfl }

end Client

namespace ClientRun

variable {run later : ClientRun}

theorem Reachable.endures (reachable : run.Reachable) : run.client.Endures run.stage :=
  reachable.invariant Client.Endures (fun _ options sink _ => .make 0 options sink)
    (fun reachable endures acts => endures.acts reachable.consistent acts)
    (fun endures changes => { endures with bidden := by rw [changes.grows.token]; exact endures.bidden })

theorem Reaches.started (reachable : run.Reachable) (reaches : run.Reaches later)
    (started : run.client.started = true) : later.client.started = true := by
  refine reaches.keeps (fun state => state.client.started = true) reachable started ?_
  intro before after _ started step
  rcases step.acts with acts | ⟨same, -⟩
  · exact acts.started started
  · rw [same]
    exact started

/-- After a start, a client whose token is not cancelled and that is not asked to stop has exactly one task,
the supervisor's until there was a connection and the reader's from then on. It holds a connection whenever
it does not look for one, so no reconnect ends without one. At rest it waits for one of six things, and is
connected if the wait is that for a frame, the sink or room in the channel. The loop always finds a
connection to read from. -/
theorem Reachable.lives_until_stopped (reachable : run.Reachable)
    (enabled : run.client.options.endpoint.isDisabled = false)
    (reaches : (run.begin .start).1.Reaches later) (uncancelled : later.stage.tokenCancelled = false)
    (unstopped : later.client.isShuttingDown = false) :
    (∃ owner, later.client.phase.owner? = some owner ∧
      (owner = .supervisor ↔ later.client.installs = [])) ∧
    later.client.isConnected = !later.client.phase.isSeeking ∧
    (later.client.atRest later.stage →
      ∃ wait, later.client.phase.wait? = some wait ∧ later.client.isConnected = wait.isConnected) ∧
    (later.client.phase = .looping →
      ∃ link, later.client.slot.held = some link ∧
        later.client.beginRead later.stage =
          (later.client.enter (.reading link later.stage.now), later.stage)) := by
  have begun : (run.begin .start).1.Reachable := reachable.later (reaches_begin run .start)
  have consistent := (begun.later reaches).consistent
  have endures := (begun.later reaches).endures
  have started := reaches.started begun (Client.started_of_start enabled)
  have spared : later.client.cancelled = false := by
    refine Bool.eq_false_iff.mpr fun cancelled => ?_
    rcases endures.bidden cancelled with token | stopped
    · exact absurd token (ne_true_of_eq_false uncancelled)
    · exact absurd stopped (ne_true_of_eq_false unstopped)
  have lives := endures.lives started (Bool.or_eq_false_iff.mpr ⟨spared, unstopped⟩)
  have connected : later.client.isConnected = !later.client.phase.isSeeking := by
    cases seeking : later.client.phase.isSeeking with
    | true =>
        rw [Client.isConnected, consistent.phase.empty seeking]
        rfl
    | false => exact lives.connected seeking
  refine ⟨?_, connected, fun atRest => ?_, fun here => ?_⟩
  · obtain ⟨owner, owned⟩ := Phase.owner_of_task lives.task
    refine ⟨owner, owned, ?_⟩
    rw [← lives.owner, owned, Option.some.injEq]
  · obtain ⟨wait, waits⟩ := Client.wait_of_atRest atRest lives.task
    exact ⟨wait, waits, connected.trans (Phase.isConnected_of_wait waits).symm⟩
  · rw [here] at connected
    obtain ⟨link, held⟩ := Option.isSome_iff_exists.mp connected
    refine ⟨link, held, ?_⟩
    rw [Client.beginRead, spared, held]
    rfl

/-- A dial, a read and the next dial have failed, and the reader waits for a frame of the connection after
them. -/
theorem Reachable.lives_until_stopped_through_failures :
    let run := make (Stage.planned
      [("ws://feed", [⟨.failNext 1, 0, false⟩, ⟨.connect "first", 0, false⟩, ⟨.failNext 1, 5, false⟩,
        ⟨.connect "second", 5, false⟩])] none) (ClientOptions.standard "ws://feed") ⟨false, 0⟩
    let later := run.play [.start, .sleep 20000, .push "first" (.error scriptedFailure) 1, .sleep 20000]
    later.client.installs = [0, 1] ∧ later.client.phase.owner? = some .reader ∧
      later.client.phase.wait? = some .frame ∧ later.client.isConnected = true := by
  intro run later
  have reachable : run.Reachable := reachable_play (.planned ..) _ _ []
  have reaches : (run.begin .start).1.Reaches later := reaches_play_cons run .start _
  have installs : later.client.installs = [0, 1] := by decide
  have frame : later.client.phase.wait? = some .frame := by decide
  have still : (later.client.move? later.stage).isNone = true := by decide
  obtain ⟨⟨owner, owned, first⟩, -, rests, -⟩ :=
    reachable.lives_until_stopped (by decide) reaches (by decide) (by decide)
  refine ⟨installs, ?_, frame, ?_⟩
  · cases owner with
    | supervisor => exact absurd (installs.symm.trans (first.mp rfl)) (List.cons_ne_nil _ _)
    | reader => exact owned
  · obtain ⟨wait, waits, connected⟩ := rests (Option.isNone_iff_eq_none.mp still)
    obtain rfl := Option.some.inj (waits.symm.trans frame)
    exact connected

end ClientRun

end SequencedFeed
