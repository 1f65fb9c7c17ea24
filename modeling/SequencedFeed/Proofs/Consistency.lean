import SequencedFeed.Proofs.Reachable
set_option autoImplicit false

/-!
# The phase of a client fits its slot

The basic invariant of a client on its stage, which later theories build on: whoever looks for a connection
holds none, a read is inside the connection that is held or was closed by a stop, and a stopped client
holds nothing and is cancelled as soon as it is past the check that its start-up begins with. The invariant
only asks of a stage that closed connections stay closed, so it also holds of a client among others.
-/

namespace SequencedFeed

namespace Stage

/-- What a client may count on while others act: connections stay closed, none appears or goes, and no
dial is added to those that are to come. -/
structure Later (earlier later : Stage) : Prop where
  names : later.names = earlier.names
  closes : ∀ link, earlier.closesOf link ≤ later.closesOf link
  pending : ∀ link ∈ later.pending, link ∈ earlier.pending

variable {stage middle after : Stage}

theorem Later.length (later : Later stage after) : after.links.length = stage.links.length :=
  length_of_names later.names

theorem Later.rfl : Later stage stage :=
  ⟨Eq.refl _, fun _ => Nat.le_refl _, fun _ member => member⟩

theorem Later.trans (first : Later stage middle) (second : Later middle after) : Later stage after :=
  ⟨second.names.trans first.names, fun link => Nat.le_trans (first.closes link) (second.closes link),
    fun link member => first.pending link (second.pending link member)⟩

theorem Later.of_eq (links : after.links = stage.links) (scripts : after.scripts = stage.scripts) :
    Later stage after where
  names := congrArg (List.map Link.name) links
  closes link := by simp only [closesOf, links, Nat.le_refl]
  pending link member := by
    rw [Stage.pending, scripts] at member
    exact member

theorem Grows.later (grows : Grows stage after) : Later stage after where
  names := grows.names
  closes link := Nat.le_of_eq (grows.closes link).symm
  pending link member := by
    rw [Stage.pending, grows.scripts] at member
    exact member

theorem closesOf_closeHeld {held : Option Nat} {link : Nat}
    (inside : ∀ link, held = some link → link < stage.links.length) :
    (stage.closeHeld held).closesOf link =
      stage.closesOf link + if held = some link then 1 else 0 := by
  cases held with
  | none => simp [closeHeld]
  | some other =>
      simp only [closeHeld, closesOf_close (inside other rfl), Option.some.injEq, eq_comm]

@[simp] theorem sentOn_closeHeld {held : Option Nat} {link : Nat} :
    (stage.closeHeld held).sentOn link = stage.sentOn link := by
  cases held with
  | none => rfl
  | some other => exact sentOn_close

@[simp] theorem takenFrom_closeHeld {held : Option Nat} {link : Nat} :
    (stage.closeHeld held).takenFrom link = stage.takenFrom link := by
  cases held with
  | none => rfl
  | some other => exact takenFrom_close

theorem later_closeHeld (held : Option Nat) : Later stage (stage.closeHeld held) := by
  cases held with
  | none => exact .rfl
  | some other =>
      refine ⟨names_changeLink fun _ => Eq.refl _, fun link => ?_, fun _ member => member⟩
      by_cases inside : other < stage.links.length
      · rw [closeHeld, closesOf_close inside]
        exact Nat.le_add_right ..
      · have same : stage.links.modify other Link.close = stage.links :=
          List.modify_eq_self (Nat.le_of_not_lt inside)
        simp only [closeHeld, changeLink, same, closesOf, Nat.le_refl]

theorem Reads.later {link : Nat} {result : ReadResult} (reads : stage.Reads link result after) :
    Later stage after := by
  cases reads with
  | closed => exact .rfl
  | item =>
      exact ⟨names_changeLink fun _ => Eq.refl _, fun _ => Nat.le_of_eq closesOf_take.symm, fun _ member => member⟩
  | ended => exact .rfl

theorem later_nextOutcome {url : String} {outcome : Outcome}
    (next : stage.nextOutcome url = (outcome, after)) : Later stage after := by
  have links : after.links = stage.links := (congrArg (fun found => found.2.links) next).symm
  refine ⟨congrArg (List.map Link.name) links, fun link => ?_, fun link member => ?_⟩
  · simp only [closesOf, links, Nat.le_refl]
  · exact (nextOutcome_pending next).subset (List.mem_append_right _ member)

end Stage

namespace Phase

def isSeeking : Phase → Bool
  | .connecting _ => true
  | .hanging _ => true
  | .dialling .. => true
  | .retrying _ => true
  | .backingOff .. => true
  | _ => false

def isReading : Phase → Bool
  | .reading .. => true
  | _ => false

def isSinking : Phase → Bool
  | .sinking .. => true
  | _ => false

/-- The connection that a dial in progress will give. -/
def brings? : Phase → Option Nat
  | .dialling _ (.connect link) _ _ => some link
  | _ => none

theorem undialled_of_unseeking {phase : Phase} (unseeking : phase.isSeeking = false) :
    phase.dial? = none := by
  cases phase <;> first | rfl | cases unseeking

theorem isSeeking_of_dial {phase : Phase} {episode : Episode} (inside : phase.dial? = some episode) :
    phase.isSeeking = true := by
  cases phase <;> first | rfl | cases inside

theorem brings_of_undialled {phase : Phase} (undialled : phase.dial? = none) : phase.brings? = none := by
  cases phase <;> first | rfl | cases undialled

end Phase

namespace Client

/-- What a phase asks of the client and the stage. -/
structure Admits (client : Client) (stage : Stage) (phase : Phase) : Prop where
  started : phase ≠ .idle → client.started = true
  empty : phase.isSeeking = true → client.slot.held = none
  stopped : client.slot.shuttingDown = true →
    client.cancelled = true ∨ phase = .idle ∨ phase = .connecting .startUp
  reading : ∀ link since, phase = .reading link since →
    client.slot.held = some link ∨ client.slot.shuttingDown = true ∧ 0 < stage.closesOf link
  brings : ∀ link, phase.brings? = some link → link < stage.links.length

/-- The phase fits the slot, and every connection that the client knows or may get exists. -/
structure Consistent (client : Client) (stage : Stage) : Prop where
  phase : client.Admits stage client.phase
  enabled : client.started = true → client.options.endpoint.isDisabled = false
  unstarted : client.started = false → client.slot.held = none
  stopped : client.slot.shuttingDown = true → client.slot.held = none
  held : ∀ link, client.slot.held = some link → link < stage.links.length
  pending : ∀ link ∈ stage.pending, link < stage.links.length

variable {client client' : Client} {stage stage' : Stage}

theorem Consistent.later (consistent : client.Consistent stage) (later : stage.Later stage') :
    client.Consistent stage' where
  phase :=
    { consistent.phase with
      reading := fun link since here =>
        (consistent.phase.reading link since here).imp_right fun ⟨stopped, closed⟩ =>
          ⟨stopped, Nat.lt_of_lt_of_le closed (later.closes link)⟩
      brings := fun link brings => later.length ▸ consistent.phase.brings link brings }
  enabled := consistent.enabled
  unstarted := consistent.unstarted
  stopped := consistent.stopped
  held link held := later.length ▸ consistent.held link held
  pending link member := later.length ▸ consistent.pending link (later.pending link member)

theorem Consistent.goTo (consistent : client.Consistent stage) (admits : client.Admits stage client'.phase)
    (options : client'.options = client.options) (started : client'.started = client.started)
    (cancelled : client'.cancelled = client.cancelled) (slot : client'.slot = client.slot) :
    client'.Consistent stage where
  phase :=
    { started := fun task => started.trans (admits.started task)
      empty := fun seeking => by rw [slot]; exact admits.empty seeking
      stopped := fun stopped => by rw [slot] at stopped; rw [cancelled]; exact admits.stopped stopped
      reading := fun link since here => by rw [slot]; exact admits.reading link since here
      brings := admits.brings }
  enabled := by rw [started, options]; exact consistent.enabled
  unstarted := by rw [started, slot]; exact consistent.unstarted
  stopped := by rw [slot]; exact consistent.stopped
  held := by rw [slot]; exact consistent.held
  pending := consistent.pending

theorem Admits.plain {phase : Phase} (started : client.started = true) (unseeking : phase.isSeeking = false)
    (unread : phase.isReading = false)
    (stopped : client.slot.shuttingDown = true → client.cancelled = true ∨ phase = .idle) :
    client.Admits stage phase where
  started _ := started
  empty seeking := by rw [unseeking] at seeking; cases seeking
  stopped stop := (stopped stop).imp_right .inl
  reading link since here := by rw [here] at unread; cases unread
  brings link brings := by
    rw [Phase.brings_of_undialled (Phase.undialled_of_unseeking unseeking)] at brings
    cases brings

theorem Admits.seeking {phase : Phase} (started : client.started = true) (empty : client.slot.held = none)
    (unread : phase.isReading = false)
    (going : client.slot.shuttingDown = true → client.cancelled = true)
    (brings : ∀ link, phase.brings? = some link → link < stage.links.length) :
    client.Admits stage phase where
  started _ := started
  empty _ := empty
  stopped stop := .inl (going stop)
  reading link since here := by rw [here] at unread; cases unread
  brings := brings

/-- A stopped client is cancelled as soon as its task is past the check that its start-up begins with. -/
theorem Consistent.cancelled_of_stopped (consistent : client.Consistent stage) {phase : Phase}
    (here : client.phase = phase) (task : phase ≠ .idle) (past : phase ≠ .connecting .startUp)
    (stopped : client.slot.shuttingDown = true) : client.cancelled = true := by
  rcases consistent.phase.stopped stopped with cancelled | idle | first
  · exact cancelled
  · exact absurd (here.symm.trans idle) task
  · exact absurd (here.symm.trans first) past

theorem Consistent.cancelled_of_unseeking (consistent : client.Consistent stage)
    (task : client.phase ≠ .idle) (unseeking : client.phase.isSeeking = false)
    (stopped : client.slot.shuttingDown = true) : client.cancelled = true := by
  rcases consistent.phase.stopped stopped with cancelled | idle | first
  · exact cancelled
  · exact absurd idle task
  · rw [first] at unseeking
    cases unseeking

/-! ### What happens to the client keeps it consistent -/

theorem Consistent.make (opening : stage.Opening) (number : Nat) (options : ClientOptions)
    (sink : SinkScript) : (Client.make number options sink).Consistent stage where
  phase :=
    { started := fun task => absurd rfl task
      empty := fun _ => rfl
      stopped := fun _ => .inr (.inl rfl)
      reading := fun link since here => by cases here
      brings := fun link brings => by cases brings }
  enabled started := by cases started
  unstarted _ := rfl
  stopped _ := rfl
  held link held := by cases held
  pending := opening.pending_inside

theorem Consistent.stop (consistent : client.Consistent stage) :
    (client.stop stage).1.Consistent (client.stop stage).2 := by
  have later : stage.Later (stage.closeHeld client.slot.held) := Stage.later_closeHeld _
  rw [stop_eq]
  exact
    { phase :=
        { started := consistent.phase.started
          empty := fun _ => rfl
          stopped := fun _ => by
            by_cases task : client.phase = .idle
            · exact .inr (.inl task)
            · exact .inl (by rw [consistent.phase.started task, Bool.or_true])
          reading := fun link since here => by
            refine .inr ⟨rfl, ?_⟩
            rw [Stage.closesOf_closeHeld consistent.held]
            rcases consistent.phase.reading link since here with held | ⟨_, closed⟩
            · rw [if_pos held]
              exact Nat.succ_pos _
            · exact Nat.add_pos_left closed _
          brings := fun link brings => later.length ▸ consistent.phase.brings link brings }
      enabled := consistent.enabled
      unstarted := fun _ => rfl
      stopped := fun _ => rfl
      held := fun link held => by cases held
      pending := fun link member =>
        later.length ▸ consistent.pending link (later.pending link member) }

theorem Consistent.start (consistent : client.Consistent stage) (starts : client.Starts stage client') :
    client'.Consistent stage := by
  cases starts with
  | report barred => exact consistent.goTo consistent.phase rfl rfl rfl rfl
  | first enabled unstarted =>
      exact
        { phase :=
            { started := fun _ => rfl
              empty := fun _ => consistent.unstarted unstarted
              stopped := fun _ => .inr (.inr rfl)
              reading := nofun
              brings := nofun }
          enabled := fun _ => enabled
          unstarted := nofun
          stopped := consistent.stopped
          held := consistent.held
          pending := consistent.pending }

theorem Consistent.cancel (consistent : client.Consistent stage) : client.cancel.Consistent stage where
  phase :=
    { consistent.phase with
      stopped := fun stopped =>
        (consistent.phase.stopped stopped).imp_left fun cancelled => by
          rw [Client.cancel, cancelled, Bool.true_or] }
  enabled := consistent.enabled
  unstarted := consistent.unstarted
  stopped := consistent.stopped
  held := consistent.held
  pending := consistent.pending

theorem going_of_shouldStop (going : client.shouldStop = false) :
    client.cancelled = false ∧ client.slot.shuttingDown = false :=
  Bool.or_eq_false_iff.mp going

theorem phaseAfterDial_cases (client : Client) (episode : Episode) :
    client.phaseAfterDial episode = .idle ∨ client.phaseAfterDial episode = .ready ∨
      client.phaseAfterDial episode = .looping := by
  cases episode with
  | startUp => cases stopping : client.shouldStop <;> simp [phaseAfterDial, stopping]
  | reconnect waited => exact .inr (.inr rfl)

theorem phaseAfterFailure_cases (client : Client) (now : Nat) (episode : Episode) :
    (∃ due, client.phaseAfterFailure now episode = .retrying due) ∨
      (∃ wait due, client.phaseAfterFailure now episode = .backingOff wait due) ∨
        client.phaseAfterFailure now episode = .looping := by
  cases episode with
  | startUp => exact .inl ⟨_, rfl⟩
  | reconnect waited => cases stopping : client.shouldStop <;> simp [phaseAfterFailure, stopping]

theorem phaseAfterDial_plain (client : Client) (episode : Episode) :
    (client.phaseAfterDial episode).isSeeking = false ∧
      (client.phaseAfterDial episode).isReading = false ∧
        (client.phaseAfterDial episode).isSinking = false := by
  rcases client.phaseAfterDial_cases episode with after | after | after <;> rw [after] <;>
    exact ⟨rfl, rfl, rfl⟩

theorem phaseAfterDial_undialled (client : Client) (episode : Episode) :
    (client.phaseAfterDial episode).dial? = none :=
  Phase.undialled_of_unseeking (client.phaseAfterDial_plain episode).1

theorem phaseAfterFailure_plain (client : Client) (now : Nat) (episode : Episode) :
    (client.phaseAfterFailure now episode).dial? = none ∧
      (client.phaseAfterFailure now episode).isReading = false ∧
        (client.phaseAfterFailure now episode).isSinking = false := by
  rcases client.phaseAfterFailure_cases now episode with ⟨due, after⟩ | ⟨wait, due, after⟩ | after <;>
    rw [after] <;> exact ⟨rfl, rfl, rfl⟩

theorem Passes.undialled {phase : Phase} (passes : client.Passes stage phase) : phase.dial? = none := by
  cases passes with
  | skip here barred => exact phaseAfterDial_undialled ..
  | abandon here cancelled => exact phaseAfterDial_undialled ..
  | _ => rfl

/-- A dial in progress is only left without an end by a client that is cancelled. -/
theorem Passes.cancelled_of_dial {phase : Phase} {episode : Episode}
    (passes : client.Passes stage phase) (inside : client.phase.dial? = some episode) :
    client.cancelled = true := by
  cases passes with
  | abandon here cancelled => exact cancelled
  | giveUp here cancelled => exact cancelled
  | leave here cancelled => exact cancelled
  | handOver here | skip here | retry here | endBackOff here | redial here | leaveUnconnected here
  | beginRead here | letGo here | letGoInLine here =>
      rw [here] at inside
      cases inside

private theorem admits_afterDial {episode : Episode} (started : client.started = true)
    (past : client.slot.shuttingDown = true → client.cancelled = true ∨ episode = .startUp) :
    client.Admits stage (client.phaseAfterDial episode) := by
  cases episode with
  | startUp =>
      unfold phaseAfterDial
      cases stopping : client.shouldStop with
      | true => exact .plain started rfl rfl fun _ => .inr rfl
      | false =>
          refine .plain started rfl rfl fun stopped => ?_
          rw [(going_of_shouldStop stopping).2] at stopped
          cases stopped
  | reconnect waited =>
      refine .plain started rfl rfl fun stopped => .inl ?_
      rcases past stopped with cancelled | startUp
      · exact cancelled
      · cases startUp

theorem Passes.task {phase : Phase} (passes : client.Passes stage phase) : client.phase ≠ .idle := by
  intro idle
  cases passes with
  | skip here | abandon here | giveUp here | retry here | endBackOff here | redial here | handOver here
  | leave here | leaveUnconnected here | beginRead here | letGo here | letGoInLine here =>
      rw [idle] at here
      cases here

private theorem Passes.admits (consistent : client.Consistent stage) {phase : Phase}
    (passes : client.Passes stage phase) : client.Admits stage phase := by
  have started := consistent.phase.started passes.task
  have past := consistent.cancelled_of_unseeking passes.task
  cases passes with
  | skip here barred =>
      refine admits_afterDial started fun stopped => ?_
      rcases consistent.phase.stopped stopped with cancelled | idle | first
      · exact .inl cancelled
      · rw [here] at idle
        cases idle
      · -- a start after a stop comes this far, and gives up at its first dial
        rw [here] at first
        exact .inr (Phase.connecting.inj first)
  | abandon here cancelled => exact admits_afterDial started fun _ => .inl cancelled
  | giveUp here cancelled => exact .plain started rfl rfl fun _ => .inr rfl
  | retry here going late =>
      have empty := consistent.phase.empty (by rw [here]; rfl)
      have past := consistent.cancelled_of_stopped here nofun nofun
      exact .seeking started empty rfl past nofun
  | endBackOff here stopping =>
      have past := consistent.cancelled_of_stopped here nofun nofun
      exact .plain started rfl rfl fun stopped => .inl (past stopped)
  | redial here going late =>
      have empty := consistent.phase.empty (by rw [here]; rfl)
      have past := consistent.cancelled_of_stopped here nofun nofun
      exact .seeking started empty rfl past nofun
  | leave here cancelled => exact .plain started rfl rfl fun _ => .inr rfl
  | leaveUnconnected here unconnected stopping => exact .plain started rfl rfl fun _ => .inr rfl
  | @beginRead link here going held =>
      exact
        { started := fun _ => started
          empty := nofun
          stopped := fun stopped => .inl (past (by rw [here]; rfl) stopped)
          reading := fun other since same => by
            obtain ⟨rfl, -⟩ := Phase.reading.inj same
            exact .inl held
          brings := nofun }
  | handOver here | letGo here unobserved | letGoInLine here unobserved =>
      have past := past (by rw [here]; rfl)
      exact .plain started rfl rfl fun stopped => .inl (past stopped)

theorem EndsSend.unseeking {mark : Nat} {how : SendEnd} {channel channel' : Channel}
    (ends : client.EndsSend stage mark how channel channel') : client.phase.isSeeking = false := by
  cases ends with
  | atOnce here sent => rw [here]; rfl
  | inLine here sent => rw [here]; rfl

/-- Only whoever looks for a connection leaves something about dials in the history. -/
theorem Moves.seen_dials {α : Type} {view : Occurrence → Option α} (looks : LooksAtDials view)
    (moves : client.Moves stage client' stage') (unseeking : client.phase.isSeeking = false) :
    seen view client'.history = seen view client.history := by
  cases moves with
  | pass passes => rfl
  | skipCancelled here enabled isOpen cancelled => exact seen_log view looks.log _ _ _
  | dial here enabled isOpen going next =>
      rw [here] at unseeking
      cases unseeking
  | endDial here going late ended =>
      rw [here] at unseeking
      cases unseeking
  | @takeFrame link since frame _ _ here reads takes =>
      rw [takes.seen looks.log, note_history, seen_cons, looks.read]
      cases SinkCall.ofFrame? frame <;> simp [looks.applied]
  | endReading here fails stopping =>
      exact (seen_cons ..).trans (by rw [looks.read]; exact List.append_nil _)
  | drop here fails going changed =>
      obtain ⟨metrics, rfl⟩ := changeSlot_kept changed
      have unlogged := seen_log view looks.log
      simp only [enter_kept, count_kept, log_eq_note, note_history, unlogged, seen_cons, looks.read,
        Option.toList_none, List.append_nil]
  | reconnect here unconnected going => exact seen_log view looks.log _ _ _
  | endSink here late => rw [seen_endSink looks.log, looks.returned, Option.toList_none, List.append_nil]
  | getInLine here observed sent => rfl
  | endSend observed ends =>
      rw [seen_endSend looks.log, looks.delivered, Option.toList_none, ite_self, List.append_nil]

/-- A frame leaves the slot alone, and the task goes on to no read and no dial. -/
structure Settles (client client' : Client) : Prop where
  unseeking : client'.phase.isSeeking = false
  unread : client'.phase.isReading = false
  task : client'.phase ≠ .idle
  options : client'.options = client.options
  started : client'.started = client.started
  cancelled : client'.cancelled = client.cancelled
  slot : client'.slot = client.slot

theorem TakesFrame.settled {now : Nat} {frame : List UInt8}
    (takes : client.TakesFrame now frame client') : client.Settles client' := by
  cases takes with
  | blank empty => exact ⟨rfl, rfl, nofun, rfl, rfl, rfl, rfl⟩
  | undecodable filled refused => exact ⟨rfl, rfl, nofun, rfl, rfl, rfl, rfl⟩
  | @pass envelope phase filled decoded uncalled next =>
      subst next
      cases envelope.mark? with
      | none => exact ⟨rfl, rfl, nofun, rfl, rfl, rfl, rfl⟩
      | some mark => exact ⟨rfl, rfl, nofun, rfl, rfl, rfl, rfl⟩
  | apply filled decoded called => exact ⟨rfl, rfl, nofun, rfl, rfl, rfl, rfl⟩

theorem Moves.undialled (moves : client.Moves stage client' stage')
    (unseeking : client.phase.isSeeking = false) : client'.phase.dial? = none := by
  cases moves with
  | pass passes => exact passes.undialled
  | skipCancelled here enabled isOpen cancelled => exact phaseAfterDial_undialled ..
  | dial here enabled isOpen going next =>
      rw [here] at unseeking
      cases unseeking
  | endDial here going late ended =>
      rw [here] at unseeking
      cases unseeking
  | takeFrame here reads takes => exact Phase.undialled_of_unseeking takes.settled.unseeking
  | endReading here fails stopping => rfl
  | drop here fails going changed => rfl
  | reconnect here unconnected going => rfl
  | @endSink start due mark here late =>
      rw [endSink_phase]
      cases mark <;> rfl
  | getInLine here observed sent => rfl
  | endSend observed ends =>
      rw [endSend_phase]
      rfl

theorem Moves.task (moves : client.Moves stage client' stage') : client.phase ≠ .idle := by
  intro idle
  cases moves with
  | pass passes => exact passes.task idle
  | endSend observed ends =>
      cases ends with
      | atOnce here | inLine here =>
          rw [idle] at here
          cases here
  | skipCancelled here | dial here | endDial here | takeFrame here | endReading here | drop here
  | reconnect here | endSink here | getInLine here =>
      rw [idle] at here
      cases here

theorem Passes.unsinking {phase : Phase} (passes : client.Passes stage phase) :
    phase.isSinking = client.phase.isSinking := by
  cases passes with
  | skip here =>
      rw [(phaseAfterDial_plain ..).2.2, here]
      rfl
  | @abandon episode here =>
      rw [(phaseAfterDial_plain ..).2.2]
      cases phase : client.phase <;> first | rfl | (rw [phase] at here; cases here)
  | giveUp here | retry here | endBackOff here | redial here | handOver here | leave here
  | leaveUnconnected here | beginRead here | letGo here | letGoInLine here =>
      rw [here]
      rfl

theorem Moves.begins_read (moves : client.Moves stage client' stage') {link since : Nat}
    (there : client'.phase = .reading link since) : client.slot.held = some link ∧ since = stage.now := by
  have reads : client'.phase.isReading = true := by rw [there]; rfl
  cases moves with
  | pass passes =>
      cases passes with
      | beginRead here going held =>
          obtain ⟨rfl, rfl⟩ := Phase.reading.inj there
          exact ⟨held, rfl⟩
      | skip | abandon =>
          rw [enter_phase, (phaseAfterDial_plain ..).2.1] at reads
          cases reads
      | giveUp | retry | endBackOff | redial | handOver | leave | leaveUnconnected | letGo | letGoInLine =>
          cases reads
  | skipCancelled here enabled isOpen cancelled =>
      rw [enter_phase, (phaseAfterDial_plain ..).2.1] at reads
      cases reads
  | @dial episode outcome _ here enabled isOpen going next =>
      have unread : (outcome.phase episode stage.now).isReading = false := by
        cases ends : outcome.ends <;> simp [Outcome.phase, ends, Phase.isReading]
      rw [enter_phase, unread] at reads
      cases reads
  | endDial here going late ended =>
      cases ended with
      | install | refuse =>
          rw [enter_phase, (phaseAfterDial_plain ..).2.1] at reads
          cases reads
      | fail =>
          rw [enter_phase, (phaseAfterFailure_plain ..).2.1] at reads
          cases reads
  | takeFrame here reads' takes =>
      rw [takes.settled.unread] at reads
      cases reads
  | endReading | drop | reconnect | getInLine => cases reads
  | @endSink start due mark here late =>
      rw [endSink_phase] at reads
      cases mark <;> cases reads
  | endSend observed ends =>
      rw [endSend_phase] at reads
      cases reads

theorem Moves.held_of_reading (moves : client.Moves stage client' stage') {link since : Nat}
    (there : client'.phase = .reading link since) : client.slot.held = some link :=
  (moves.begins_read there).1

theorem Moves.stays_empty (moves : client.Moves stage client' stage') (cancelled : client.cancelled = true)
    (empty : client.slot.held = none) : client'.slot.held = none := by
  cases moves with
  | pass passes => exact empty
  | skipCancelled here enabled isOpen cancelled => exact empty
  | dial here enabled isOpen going next => exact empty
  | endDial here going late ended =>
      rw [going] at cancelled
      cases cancelled
  | takeFrame here reads takes => exact (congrArg Slot.held takes.settled.slot).trans empty
  | endReading here fails stopping => exact empty
  | drop here fails going changed =>
      obtain ⟨metrics, rfl⟩ := changeSlot_kept changed
      change (client.slot.discard _).1.held = none
      unfold Slot.discard
      split
      · rfl
      · exact empty
  | reconnect here unconnected going => exact empty
  | @endSink start due mark here late =>
      have slot := endSink_slot client stage.now start mark
      exact (congrArg Slot.held slot).trans empty
  | getInLine here observed sent => exact empty
  | @endSend mark how channel channel' observed ends =>
      have slot := endSend_slot client stage.now mark how
      exact (congrArg Slot.held slot).trans empty

theorem FailsRead.later {link since : Nat} {error : TransportError}
    (fails : client.FailsRead stage link since error stage') : stage.Later stage' := by
  cases fails with
  | found reads => exact reads.later
  | silent waits limit late => exact .rfl

theorem FailsRead.closes {link since : Nat} {error : TransportError}
    (fails : client.FailsRead stage link since error stage') (other : Nat) :
    stage'.closesOf other = stage.closesOf other := by
  cases fails with
  | found reads => exact reads.closes other
  | silent waits limit late => rfl

theorem Consistent.held_of_reading (consistent : client.Consistent stage) {link since : Nat}
    (here : client.phase = .reading link since) (isOpen : client.slot.shuttingDown = false) :
    client.slot.held = some link := by
  rcases consistent.phase.reading link since here with held | ⟨stopped, -⟩
  · exact held
  · rw [isOpen] at stopped
    cases stopped

theorem Consistent.held_of_frame (consistent : client.Consistent stage) {link since : Nat}
    {frame : List UInt8} (here : client.phase = .reading link since)
    (reads : stage.Reads link (.ok frame) stage') : client.slot.held = some link := by
  cases reads with
  | item inside isOpen next =>
      rcases consistent.phase.reading link since here with held | ⟨-, closed⟩
      · exact held
      · omega

/-- After a stop no frame is read, for the connection that it came from would be held. -/
theorem Consistent.isOpen_of_frame (consistent : client.Consistent stage) {link since : Nat}
    {frame : List UInt8} (here : client.phase = .reading link since)
    (reads : stage.Reads link (.ok frame) stage') : client.isShuttingDown = false := by
  have held := consistent.held_of_frame here reads
  refine Bool.eq_false_iff.mpr fun stopped => ?_
  rw [consistent.stopped stopped] at held
  cases held

theorem Consistent.beforeOutcome (consistent : client.Consistent stage) (stops : Bool) :
    (client.beforeOutcome stage stops).1.Consistent (client.beforeOutcome stage stops).2 := by
  cases stops with
  | false => exact consistent
  | true =>
      have asked : client.Consistent { stage with stopAsked := true } :=
        consistent.later (.of_eq rfl rfl)
      exact asked.stop

theorem beforeOutcome_phase (stops : Bool) :
    (client.beforeOutcome stage stops).1.phase = client.phase := by
  cases stops with
  | false => rfl
  | true => rw [beforeOutcome, if_pos rfl, stop_eq]

theorem beforeOutcome_stopped (client : Client) (stage : Stage) :
    (client.beforeOutcome stage true).1.slot.shuttingDown = true := by
  rw [beforeOutcome, if_pos rfl, stop_eq]

private theorem Consistent.endsDial (consistent : client.Consistent stage) {episode : Episode}
    {ends : DialEnd} {stops : Bool} {due : Nat} (here : client.phase = .dialling episode ends stops due)
    (ended : EndsDial client stage episode ends client' stage') : client'.Consistent stage' := by
  have started := consistent.phase.started (by rw [here]; nofun)
  have empty := consistent.phase.empty (by rw [here]; rfl)
  have past := consistent.cancelled_of_stopped here nofun nofun
  cases ended with
  | @install link next around isOpen changed =>
      obtain ⟨rfl, rfl⟩ := changeSlot_install changed isOpen empty
      have inside := consistent.phase.brings link (by rw [here]; rfl)
      exact
        { phase := admits_afterDial started nofun
          enabled := consistent.enabled
          unstarted := fun unstarted => by
            change client.started = false at unstarted
            rw [started] at unstarted
            cases unstarted
          stopped := nofun
          held := fun other held => by
            obtain rfl := Option.some.inj held
            exact inside
          pending := consistent.pending }
  | @refuse link stopped =>
      have after := consistent.later (Stage.later_closeHeld (some link))
      exact after.goTo (admits_afterDial started fun stopped => .inl (past stopped)) rfl rfl rfl rfl
  | fail =>
      refine consistent.goTo ?_ rfl rfl rfl rfl
      cases episode with
      | startUp => exact .seeking started empty rfl past nofun
      | reconnect waited =>
          unfold phaseAfterFailure
          cases stopping : client.shouldStop with
          | true => exact .plain started rfl rfl fun stopped => .inl (past stopped)
          | false => exact .seeking started empty rfl past nofun

theorem brings_phase (outcome : Outcome) (episode : Episode) (now : Nat) :
    (outcome.phase episode now).brings? = outcome.link? := by
  obtain ⟨ends, after, stops⟩ := outcome
  rcases ends with _ | (link | error) <;> rfl

theorem dial_phase (outcome : Outcome) (episode : Episode) (now : Nat) :
    (outcome.phase episode now).dial? = some episode := by
  obtain ⟨ends, after, stops⟩ := outcome
  cases ends <;> rfl

theorem Consistent.moves (consistent : client.Consistent stage)
    (moves : client.Moves stage client' stage') : client'.Consistent stage' := by
  have started := consistent.phase.started moves.task
  have past := consistent.cancelled_of_unseeking moves.task
  cases moves with
  | pass passes => exact consistent.goTo (passes.admits consistent) rfl rfl rfl rfl
  | skipCancelled here enabled isOpen cancelled =>
      exact consistent.goTo (admits_afterDial started fun _ => .inl cancelled) rfl rfl rfl rfl
  | @dial episode outcome _ here enabled isOpen going next =>
      have empty := consistent.phase.empty (by rw [here]; rfl)
      have later := Stage.later_nextOutcome next
      have inside (link : Nat) (given : outcome.link? = some link) : link < stage'.links.length := by
        rw [later.length]
        refine consistent.pending link ((Stage.nextOutcome_pending next).subset ?_)
        rw [given]
        exact List.mem_cons_self ..
      refine (consistent.later later).goTo (.seeking started empty ?_ ?_ ?_) rfl rfl rfl rfl
      · cases ends : outcome.ends <;> simp [Outcome.phase, ends, Phase.isReading]
      · intro stopped
        rw [isOpen] at stopped
        cases stopped
      · intro link brings
        exact inside link ((brings_phase ..).symm.trans brings)
  | endDial here going late ended =>
      exact (consistent.beforeOutcome _).endsDial ((beforeOutcome_phase _).trans here) ended
  | takeFrame here reads takes =>
      have past := past (by rw [here]; rfl)
      obtain ⟨unseeking, unread, -, options, started', cancelled, slot⟩ := takes.settled
      exact (consistent.later reads.later).goTo
        (.plain started unseeking unread fun stopped => .inl (past stopped)) options started' cancelled slot
  | endReading here fails stopping =>
      exact (consistent.later fails.later).goTo (.plain started rfl rfl fun _ => .inr rfl) rfl rfl rfl rfl
  | @drop link since error around next last here fails going changed =>
      have isOpen := (going_of_shouldStop going).2
      have held := consistent.held_of_reading here isOpen
      obtain ⟨rfl, rfl⟩ := changeSlot_discard changed held
      have after := (consistent.later fails.later).later (Stage.later_closeHeld (some link))
      exact
        { phase := .seeking started rfl rfl (fun stopped => by
            change client.slot.shuttingDown = true at stopped
            rw [isOpen] at stopped
            cases stopped) fun other brings => by cases brings
          enabled := consistent.enabled
          unstarted := fun _ => rfl
          stopped := fun _ => rfl
          held := fun other held => by cases held
          pending := after.pending }
  | reconnect here unconnected going =>
      have past := past (by rw [here]; rfl)
      have admits : client.Admits stage (client.firstBackingOff stage.now) :=
        .seeking started unconnected rfl past fun link brings => by cases brings
      exact consistent.goTo admits rfl rfl rfl rfl
  | @endSink start due mark here late =>
      have past := past (by rw [here]; rfl)
      obtain ⟨-, options, -, started', cancelled, slot, -⟩ := endSink_kept client stage.now start mark
      have admits : client.Admits stage (phaseAfterSink mark) := by
        cases mark <;> exact .plain started rfl rfl fun stopped => .inl (past stopped)
      rw [← endSink_phase client stage.now start mark] at admits
      exact consistent.goTo admits options started' cancelled slot
  | @getInLine mark deadline channel channel' here observed sent =>
      have past := past (by rw [here]; rfl)
      have after : client.Consistent { stage with channel := some channel' } :=
        consistent.later (.of_eq rfl rfl)
      exact after.goTo (.plain started rfl rfl fun stopped => .inl (past stopped)) rfl rfl rfl rfl
  | @endSend mark how channel channel' observed ends =>
      have after : client.Consistent { stage with channel := some channel' } :=
        consistent.later (.of_eq rfl rfl)
      have past := past ends.unseeking
      obtain ⟨-, options, -, started', cancelled, slot, -⟩ := endSend_kept client stage.now mark how
      refine after.goTo ?_ options started' cancelled slot
      rw [endSend_phase]
      exact .plain started rfl rfl fun stopped => .inl (past stopped)

/-! ### What a client does to its stage -/

private theorem carryOutAll_later (effects : List (SlotEffect Nat)) (client : Client) (stage : Stage) :
    stage.Later (effects.foldl (fun (client, stage) effect => client.carryOut stage effect)
      (client, stage)).2 := by
  induction effects generalizing client stage with
  | nil => exact .rfl
  | cons effect rest ih =>
      have first : stage.Later (client.carryOut stage effect).2 := by
        cases effect with
        | enter => exact .rfl
        | refuse link => exact Stage.later_closeHeld (some link)
        | release link => exact Stage.later_closeHeld (some link)
      exact first.trans (ih (client.carryOut stage effect).1 (client.carryOut stage effect).2)

theorem changeSlot_later {change : Slot Nat × List (SlotEffect Nat)}
    (changed : client.changeSlot stage change = (client', stage')) : stage.Later stage' := by
  have after : stage.Later (client.changeSlot stage change).2 :=
    carryOutAll_later change.2 { client with slot := change.1 } stage
  rw [changed] at after
  exact after

theorem stop_later (client : Client) (stage : Stage) : stage.Later (client.stop stage).2 := by
  rw [stop_eq]
  exact Stage.later_closeHeld _

private theorem EndsDial.later {episode : Episode} {ends : DialEnd}
    (ended : EndsDial client stage episode ends client' stage') : stage.Later stage' := by
  cases ended with
  | install isOpen changed => exact changeSlot_later changed
  | refuse stopped => exact Stage.later_closeHeld _
  | fail => exact .rfl

theorem Moves.later (moves : client.Moves stage client' stage') : stage.Later stage' := by
  cases moves with
  | pass passes => exact .rfl
  | skipCancelled here enabled isOpen cancelled => exact .rfl
  | dial here enabled isOpen going next => exact Stage.later_nextOutcome next
  | @endDial episode ends stops due _ _ here going late ended =>
      cases stops with
      | false => exact ended.later
      | true =>
          have asked : stage.Later { stage with stopAsked := true } := .of_eq rfl rfl
          exact (asked.trans (stop_later ..)).trans ended.later
  | takeFrame here reads takes => exact reads.later
  | endReading here fails stopping => exact fails.later
  | drop here fails going changed => exact fails.later.trans (changeSlot_later changed)
  | reconnect here unconnected going => exact .rfl
  | endSink here late => exact .rfl
  | getInLine here observed sent => exact .of_eq rfl rfl
  | endSend observed ends => exact .of_eq rfl rfl

theorem Acts.later (acts : client.Acts stage client' stage') : stage.Later stage' := by
  cases acts with
  | start starts => exact .rfl
  | cancel => exact .of_eq rfl rfl
  | stop => exact stop_later client stage
  | move moves =>
      obtain ⟨next, around, moved, rfl, rfl⟩ := moves_of_move moves
      exact moved.later.trans (.of_eq rfl rfl)

theorem Consistent.acts (consistent : client.Consistent stage)
    (acts : client.Acts stage client' stage') : client'.Consistent stage' := by
  cases acts with
  | start starts => exact consistent.start starts
  | cancel => exact consistent.cancel.later (.of_eq rfl rfl)
  | stop => exact consistent.stop
  | move moves =>
      obtain ⟨next, around, moved, rfl, rfl⟩ := moves_of_move moves
      have after : next.Consistent { around with moves := around.moves + 1 } :=
        (consistent.moves moved).later (.of_eq rfl rfl)
      exact after.goTo after.phase rfl rfl rfl rfl

end Client

theorem ClientRun.Reachable.consistent {run : ClientRun} (reachable : run.Reachable) :
    run.client.Consistent run.stage :=
  reachable.invariant Client.Consistent (fun _ options sink opening => .make opening 0 options sink)
    (fun _ consistent acts => consistent.acts acts)
    (fun consistent changes => consistent.later changes.grows.later)

end SequencedFeed
