import SequencedFeed.Client.Rest
import SequencedFeed.Proofs.History
import SequencedFeed.Proofs.Surroundings
set_option autoImplicit false

/-!
# The moves of a client, rule by rule

The rules of a client's task, each with its guards and its whole effect: passages only change the phase,
the other moves also leave something in the history. The main statement, `moves_of_proceed`, says that a
task does nothing else. Later proofs go through the rules and never open a move.
-/

namespace SequencedFeed

/-! ### What the small operations leave alone -/

namespace Metrics

@[simp] theorem errorOccurred_active (metrics : Metrics) (kind : ErrorKind) :
    (metrics.errorOccurred kind).active = metrics.active := by
  cases kind <;> rfl

@[simp] theorem meter_active (metrics : Metrics) (how : SendEnd) :
    (how.meter metrics).active = metrics.active := by
  cases how <;> rfl

end Metrics

namespace Client

@[simp] theorem enter_phase (client : Client) (phase : Phase) : (client.enter phase).phase = phase :=
  rfl

@[simp] theorem enter_kept (client : Client) (phase : Phase) :
    (client.enter phase).number = client.number ∧ (client.enter phase).options = client.options ∧
      (client.enter phase).sink = client.sink ∧ (client.enter phase).started = client.started ∧
      (client.enter phase).cancelled = client.cancelled ∧ (client.enter phase).slot = client.slot ∧
      (client.enter phase).retryCount = client.retryCount ∧
      (client.enter phase).metrics = client.metrics ∧ (client.enter phase).history = client.history :=
  ⟨rfl, rfl, rfl, rfl, rfl, rfl, rfl, rfl, rfl⟩

@[simp] theorem note_history (client : Client) (now : Nat) (occurrence : Occurrence) :
    (client.note now occurrence).history = (now, occurrence) :: client.history :=
  rfl

@[simp] theorem note_kept (client : Client) (now : Nat) (occurrence : Occurrence) :
    (client.note now occurrence).number = client.number ∧
      (client.note now occurrence).options = client.options ∧
      (client.note now occurrence).sink = client.sink ∧
      (client.note now occurrence).started = client.started ∧
      (client.note now occurrence).cancelled = client.cancelled ∧
      (client.note now occurrence).slot = client.slot ∧
      (client.note now occurrence).phase = client.phase ∧
      (client.note now occurrence).retryCount = client.retryCount ∧
      (client.note now occurrence).metrics = client.metrics :=
  ⟨rfl, rfl, rfl, rfl, rfl, rfl, rfl, rfl, rfl⟩

@[simp] theorem log_eq_note (client : Client) (now : Nat) (event : LogEvent) :
    client.log now event = client.note now (.log event) :=
  rfl

@[simp] theorem note_url (client : Client) (now : Nat) (occurrence : Occurrence) :
    (client.note now occurrence).url = client.url :=
  rfl

@[simp] theorem count_metrics (client : Client) (kind : ErrorKind) :
    (client.count kind).metrics = client.metrics.errorOccurred kind :=
  rfl

@[simp] theorem count_kept (client : Client) (kind : ErrorKind) :
    (client.count kind).number = client.number ∧ (client.count kind).options = client.options ∧
      (client.count kind).sink = client.sink ∧ (client.count kind).started = client.started ∧
      (client.count kind).cancelled = client.cancelled ∧ (client.count kind).slot = client.slot ∧
      (client.count kind).phase = client.phase ∧
      (client.count kind).retryCount = client.retryCount ∧
      (client.count kind).history = client.history :=
  ⟨rfl, rfl, rfl, rfl, rfl, rfl, rfl, rfl, rfl⟩

def phaseAfterSink : Option Nat → Phase
  | none => .looping
  | some mark => .confirming mark

@[simp] theorem endSink_phase (client : Client) (now start : Nat) (mark : Option Nat) :
    (client.endSink now start mark).phase = phaseAfterSink mark := by
  cases mark <;> rfl

@[simp] theorem endSink_history (client : Client) (now start : Nat) (mark : Option Nat) :
    (client.endSink now start mark).history =
      (if client.sink.fails then [(now, .log (.sinkFailed start sinkRejection))] else []) ++
        (now, .sinkReturned client.sink.fails) :: client.history := by
  cases mark <;> cases fails : client.sink.fails <;>
    simp [endSink, afterSink, fails]

@[simp] theorem endSink_metrics (client : Client) (now start : Nat) (mark : Option Nat) :
    (client.endSink now start mark).metrics =
      if client.sink.fails then client.metrics.errorOccurred .sink else client.metrics := by
  cases mark <;> cases fails : client.sink.fails <;>
    simp [endSink, afterSink, fails]

@[simp] theorem endSink_kept (client : Client) (now start : Nat) (mark : Option Nat) :
    (client.endSink now start mark).number = client.number ∧
      (client.endSink now start mark).options = client.options ∧
      (client.endSink now start mark).sink = client.sink ∧
      (client.endSink now start mark).started = client.started ∧
      (client.endSink now start mark).cancelled = client.cancelled ∧
      (client.endSink now start mark).slot = client.slot ∧
      (client.endSink now start mark).retryCount = client.retryCount := by
  cases mark <;> cases fails : client.sink.fails <;>
    simp [endSink, afterSink, fails]

theorem endSink_slot (client : Client) (now start : Nat) (mark : Option Nat) :
    (client.endSink now start mark).slot = client.slot := by
  obtain ⟨-, -, -, -, -, slot, -⟩ := endSink_kept client now start mark
  exact slot

@[simp] theorem endSend_history (client : Client) (now mark : Nat) (how : SendEnd) :
    (client.endSend now mark how).history =
      (if how = .delivered then [(now, .delivered mark)] else []) ++
        ((how.report? mark client.options.confirmationTimeout).map
          fun event => (now, Occurrence.log event)).toList ++ client.history := by
  cases how <;> rfl

@[simp] theorem endSend_phase (client : Client) (now mark : Nat) (how : SendEnd) :
    (client.endSend now mark how).phase = .looping := by
  cases how <;> rfl

@[simp] theorem endSend_kept (client : Client) (now mark : Nat) (how : SendEnd) :
    (client.endSend now mark how).number = client.number ∧
      (client.endSend now mark how).options = client.options ∧
      (client.endSend now mark how).sink = client.sink ∧
      (client.endSend now mark how).started = client.started ∧
      (client.endSend now mark how).cancelled = client.cancelled ∧
      (client.endSend now mark how).slot = client.slot ∧
      (client.endSend now mark how).retryCount = client.retryCount ∧
      (client.endSend now mark how).metrics = how.meter client.metrics := by
  cases how <;> exact ⟨rfl, rfl, rfl, rfl, rfl, rfl, rfl, rfl⟩

theorem endSend_slot (client : Client) (now mark : Nat) (how : SendEnd) :
    (client.endSend now mark how).slot = client.slot := by
  obtain ⟨-, -, -, -, -, slot, -⟩ := endSend_kept client now mark how
  exact slot

end Client

namespace Client

variable {α : Type} {view : Occurrence → Option α} (skips : SkipsLog view)
include skips

theorem seen_endSink (client : Client) (now start : Nat) (mark : Option Nat) :
    seen view (client.endSink now start mark).history =
      seen view client.history ++ (view (.sinkReturned client.sink.fails)).toList := by
  rw [endSink_history]
  cases client.sink.fails with
  | true => exact (seen_log view skips _ _ _).trans (seen_cons ..)
  | false => exact seen_cons ..

theorem seen_endSend (client : Client) (now mark : Nat) (how : SendEnd) :
    seen view (client.endSend now mark how).history =
      seen view client.history ++ if how = .delivered then (view (.delivered mark)).toList else [] := by
  rw [endSend_history]
  cases how with
  | delivered => exact seen_cons ..
  | timedOut => exact (seen_log view skips _ _ _).trans (List.append_nil _).symm
  | closed => exact (seen_log view skips _ _ _).trans (List.append_nil _).symm
  | abandoned => exact (List.append_nil _).symm

end Client

/-! ### Changes of the slot -/

def Stage.closeHeld (stage : Stage) : Option Nat → Stage
  | none => stage
  | some link => stage.changeLink link Link.close

def Metrics.released (metrics : Metrics) : Option Nat → Metrics
  | none => metrics
  | some _ => metrics.connectionClosed

namespace Client

theorem closeHeld_links (stage : Stage) (held : Option Nat) :
    ∃ links, stage.closeHeld held = { stage with links } := by
  cases held with
  | none => exact ⟨stage.links, rfl⟩
  | some link => exact ⟨_, rfl⟩

private theorem carryOutAll_links (effects : List (SlotEffect Nat)) (client : Client) (stage : Stage) :
    ∃ links, (effects.foldl (fun (client, stage) effect => client.carryOut stage effect)
      (client, stage)).2 = { stage with links } := by
  induction effects generalizing client stage with
  | nil => exact ⟨stage.links, rfl⟩
  | cons effect rest ih =>
      have first : ∃ links, (client.carryOut stage effect).2 = { stage with links } := by
        cases effect with
        | enter => exact ⟨stage.links, rfl⟩
        | refuse link => exact ⟨_, rfl⟩
        | release link => exact ⟨_, rfl⟩
      obtain ⟨between, first⟩ := first
      obtain ⟨links, others⟩ := ih (client.carryOut stage effect).1 (client.carryOut stage effect).2
      refine ⟨links, others.trans ?_⟩
      rw [first]

theorem changeSlot_links {client client' : Client} {stage stage' : Stage}
    {change : Slot Nat × List (SlotEffect Nat)}
    (changed : client.changeSlot stage change = (client', stage')) :
    ∃ links, stage' = { stage with links } := by
  obtain ⟨links, same⟩ := carryOutAll_links change.2 { client with slot := change.1 } stage
  exact ⟨links, (congrArg Prod.snd changed).symm.trans same⟩

private theorem carryOutAll_gauge (effects : List (SlotEffect Nat)) (client : Client) (stage : Stage) :
    ∃ gauge, (effects.foldl (fun (client, stage) effect => client.carryOut stage effect)
      (client, stage)).1 = { client with metrics := { client.metrics with gauge } } := by
  induction effects generalizing client stage with
  | nil => exact ⟨client.metrics.gauge, rfl⟩
  | cons effect rest ih =>
      obtain ⟨gauge, kept⟩ := ih (client.carryOut stage effect).1 (client.carryOut stage effect).2
      refine ⟨gauge, kept.trans ?_⟩
      cases effect <;> rfl

theorem changeSlot_gauge {client client' : Client} {stage stage' : Stage}
    {change : Slot Nat × List (SlotEffect Nat)}
    (changed : client.changeSlot stage change = (client', stage')) :
    ∃ gauge, client' =
      { client with slot := change.1, metrics := { client.metrics with gauge } } := by
  obtain ⟨gauge, kept⟩ := carryOutAll_gauge change.2 { client with slot := change.1 } stage
  exact ⟨gauge, (congrArg Prod.fst changed).symm.trans kept⟩

theorem changeSlot_kept {client client' : Client} {stage stage' : Stage}
    {change : Slot Nat × List (SlotEffect Nat)}
    (changed : client.changeSlot stage change = (client', stage')) :
    ∃ metrics, client' = { client with slot := change.1, metrics } := by
  obtain ⟨gauge, kept⟩ := changeSlot_gauge changed
  exact ⟨_, kept⟩

theorem changeSlot_install {client client' : Client} {stage stage' : Stage} {link : Nat}
    (changed : client.changeSlot stage (client.slot.install link) = (client', stage'))
    (isOpen : client.slot.shuttingDown = false) (empty : client.slot.held = none) :
    client' = { client with slot := ⟨some link, false⟩, metrics := client.metrics.connectionOpened } ∧
      stage' = stage := by
  rw [← Prod.mk.injEq, ← changed]
  simp [changeSlot, carryOut, Slot.install, Slot.released, isOpen, empty, SlotEffect.closed?,
    SlotEffect.meter]

theorem changeSlot_discard {client client' : Client} {stage stage' : Stage} {link : Nat}
    (changed : client.changeSlot stage (client.slot.discard link) = (client', stage'))
    (held : client.slot.held = some link) :
    client' =
        { client with
          slot := { client.slot with held := none }
          metrics := client.metrics.connectionClosed } ∧
      stage' = stage.closeHeld (some link) := by
  rw [← Prod.mk.injEq, ← changed]
  simp [changeSlot, carryOut, Slot.discard, held, SlotEffect.closed?, SlotEffect.meter,
    Stage.closeHeld]

variable (client : Client) (stage : Stage) (link : Nat)

theorem changeSlot_refuse (stopped : client.slot.shuttingDown = true) :
    client.changeSlot stage (client.slot.install link) = (client, stage.closeHeld (some link)) := by
  simp [changeSlot, carryOut, Slot.install, stopped, SlotEffect.closed?, SlotEffect.meter,
    Stage.closeHeld]

/-- Everything that a request to stop does at once. -/
theorem stop_eq :
    client.stop stage =
      ({ client with
          cancelled := client.cancelled || client.started
          slot := ⟨none, true⟩
          metrics := client.metrics.released client.slot.held
          history := (stage.now, .log (.closing client.url)) :: client.history },
        stage.closeHeld client.slot.held) := by
  cases held : client.slot.held <;>
    simp [stop, cancel, changeSlot, carryOut, Slot.shutDown, Slot.released, held, SlotEffect.closed?,
      SlotEffect.meter, Stage.closeHeld, Metrics.released, note]

end Client

/-! ### Rules -/

namespace Phase

def dial? : Phase → Option Episode
  | .hanging episode => some episode
  | .dialling episode _ _ _ => some episode
  | _ => none

end Phase

def Outcome.phase (outcome : Outcome) (episode : Episode) (now : Nat) : Phase :=
  match outcome.ends with
  | none => .hanging episode
  | some ends => .dialling episode ends outcome.stops (expiry now outcome.after)

def Envelope.sinkCall? (envelope : Envelope Json) : Option SinkCall :=
  match envelope.messages with
  | [] => none
  | ⟨start, first⟩ :: rest =>
      if envelope.version = 1 then
        some { start, force := false, payloads := first :: rest.map Message.payload }
      else none

def Envelope.mark? (envelope : Envelope Json) : Option Nat :=
  if envelope.isSupported then envelope.confirmed else none

def SinkCall.ofFrame? (frame : List UInt8) : Option SinkCall :=
  match frame, Envelope.decode Payload.any frame with
  | _ :: _, .ok envelope => envelope.sinkCall?
  | _, _ => none

namespace Client

def phaseAfterDial (client : Client) : Episode → Phase
  | .startUp => if client.shouldStop then .idle else .ready
  | .reconnect _ => .looping

theorem afterDial_eq (client : Client) (episode : Episode) :
    client.afterDial episode = client.enter (client.phaseAfterDial episode) := by
  cases episode <;> rfl

def phaseAfterFailure (client : Client) (now : Nat) : Episode → Phase
  | .startUp => .retrying (expiry now client.options.supervisorDelay.millis)
  | .reconnect waited =>
      let wait := client.options.backoff.next waited
      if client.shouldStop then .looping else .backingOff wait (expiry now wait.millis)

def dialReport (client : Client) (error : TransportError) : Episode → LogEvent
  | .startUp =>
      .dialFailed client.url (.connect client.url error) client.options.supervisorDelay
  | .reconnect waited => .redialFailed client.url (.connect client.url error) waited

def firstBackingOff (client : Client) (now : Nat) : Phase :=
  .backingOff client.options.backoff.first
    (expiry now client.options.backoff.first.millis)

/-- What a start does: it is only reported, or it is the first one. -/
inductive Starts (client : Client) (stage : Stage) : Client → Prop
  | report {event : LogEvent} (barred : client.options.endpoint.isDisabled = true ∨ client.started = true)
      (known : event = .disabled ∨ event = .alreadyStarted client.url) :
      Starts client stage (client.log stage.now event)
  | first (enabled : client.options.endpoint.isDisabled = false) (unstarted : client.started = false) :
      Starts client stage
        { client with
          started := true
          cancelled := stage.tokenCancelled
          phase := .connecting .startUp }

theorem start_starts (client : Client) (stage : Stage) : client.Starts stage (client.start stage) := by
  unfold start
  cases disabled : client.options.endpoint.isDisabled with
  | true => exact .report (.inl disabled) (.inl rfl)
  | false =>
      cases started : client.started with
      | true => exact .report (.inr started) (.inr rfl)
      | false => exact .first disabled started

/-- Moves that change nothing but the phase. -/
inductive Passes (client : Client) (stage : Stage) : Phase → Prop
  | skip {episode : Episode} (here : client.phase = .connecting episode)
      (barred : client.options.endpoint.isDisabled = true ∨ client.slot.shuttingDown = true) :
      Passes client stage (client.phaseAfterDial episode)
  | abandon {episode : Episode} (here : client.phase.dial? = some episode)
      (cancelled : client.cancelled = true) : Passes client stage (client.phaseAfterDial episode)
  | giveUp {due : Nat} (here : client.phase = .retrying due) (cancelled : client.cancelled = true) :
      Passes client stage .idle
  | retry {due : Nat} (here : client.phase = .retrying due) (going : client.cancelled = false)
      (late : due ≤ stage.now) : Passes client stage (.connecting .startUp)
  | endBackOff {wait : Duration} {due : Nat} (here : client.phase = .backingOff wait due)
      (stopping : client.shouldStop = true) : Passes client stage .looping
  | redial {wait : Duration} {due : Nat} (here : client.phase = .backingOff wait due)
      (going : client.shouldStop = false) (late : due ≤ stage.now) :
      Passes client stage (.connecting (.reconnect wait))
  | handOver (here : client.phase = .ready) : Passes client stage .looping
  | leave (here : client.phase = .looping) (cancelled : client.cancelled = true) :
      Passes client stage .idle
  | leaveUnconnected (here : client.phase = .looping) (unconnected : client.slot.held = none)
      (stopping : client.shouldStop = true) : Passes client stage .idle
  | beginRead {link : Nat} (here : client.phase = .looping) (going : client.cancelled = false)
      (held : client.slot.held = some link) : Passes client stage (.reading link stage.now)
  | letGo {mark : Nat} (here : client.phase = .confirming mark) (unobserved : stage.channel = none) :
      Passes client stage .looping
  | letGoInLine {mark deadline : Nat} (here : client.phase = .sending mark deadline)
      (unobserved : stage.channel = none) : Passes client stage .looping

/-- How a dial ends, for a client that has already been stopped if the dial asked for it. -/
inductive EndsDial (client : Client) (stage : Stage) (episode : Episode) : DialEnd → Client → Stage → Prop
  | install {link : Nat} {client' : Client} {stage' : Stage}
      (isOpen : client.slot.shuttingDown = false)
      (changed : (client.note stage.now (.dialEnded (.connect link))).changeSlot stage
        (client.slot.install link) = (client', stage')) :
      EndsDial client stage episode (.connect link)
        (((client'.note stage'.now (.installed link)).log stage'.now (.connected client'.url)).enter
          (client'.phaseAfterDial episode)) stage'
  | refuse {link : Nat} (stopped : client.slot.shuttingDown = true) :
      EndsDial client stage episode (.connect link)
        (((client.note stage.now (.dialEnded (.connect link))).log stage.now
          (.discarding client.url)).enter (client.phaseAfterDial episode)) (stage.closeHeld (some link))
  | fail {error : TransportError} :
      EndsDial client stage episode (.fail error)
        (({ client.note stage.now (.dialEnded (.fail error)) with
              retryCount := client.retryCount + 1
              metrics := client.metrics.dialFailed }.log stage.now
            (client.dialReport error episode)).enter (client.phaseAfterFailure stage.now episode)) stage

/-- What a frame leads to. -/
inductive TakesFrame (client : Client) (now : Nat) (frame : List UInt8) : Client → Prop
  | blank (empty : frame = []) : TakesFrame client now frame (client.enter .looping)
  | undecodable {error : DecodeError} (filled : frame ≠ [])
      (refused : Envelope.decode Payload.any frame = .error error) :
      TakesFrame client now frame
        ((({ client with metrics := client.metrics.frameReceived }.log now
          (.undecodable client.url frame (.decode error))).count .decode).enter .looping)
  | pass {envelope : Envelope Json} {phase : Phase} (filled : frame ≠ [])
      (decoded : Envelope.decode Payload.any frame = .ok envelope)
      (uncalled : envelope.sinkCall? = none) (next : phase = phaseAfterSink envelope.mark?) :
      TakesFrame client now frame
        (({ client with metrics := client.metrics.frameReceived }.log now
          (LogEvent.summary envelope)).enter phase)
  | apply {envelope : Envelope Json} {call : SinkCall} (filled : frame ≠ [])
      (decoded : Envelope.decode Payload.any frame = .ok envelope)
      (called : envelope.sinkCall? = some call) :
      TakesFrame client now frame
        ((({ client with metrics := client.metrics.frameReceived }.log now
          (LogEvent.summary envelope)).note now (.applied call)).enter
            (.sinking call.start envelope.confirmed (expiry now client.sink.delay)))

theorem ofFrame?_of_refused {frame : List UInt8} {error : DecodeError}
    (refused : Envelope.decode Payload.any frame = .error error) : SinkCall.ofFrame? frame = none := by
  cases frame with
  | nil => rfl
  | cons byte rest => simp only [SinkCall.ofFrame?, refused]

theorem ofFrame?_of_decoded {frame : List UInt8} {envelope : Envelope Json} (filled : frame ≠ [])
    (decoded : Envelope.decode Payload.any frame = .ok envelope) :
    SinkCall.ofFrame? frame = envelope.sinkCall? := by
  cases frame with
  | nil => exact absurd rfl filled
  | cons byte rest => simp only [SinkCall.ofFrame?, decoded]

/-- What taking a frame leaves in a history, apart from log records: the sink call that it leads to. -/
theorem TakesFrame.seen {α : Type} {view : Occurrence → Option α} (skips : SkipsLog view)
    {client client' : Client} {now : Nat} {frame : List UInt8}
    (takes : client.TakesFrame now frame client') :
    SequencedFeed.seen view client'.history =
      SequencedFeed.seen view client.history ++
        ((SinkCall.ofFrame? frame).bind fun call => view (.applied call)).toList := by
  cases takes with
  | blank empty =>
      subst empty
      exact (List.append_nil _).symm
  | undecodable filled refused =>
      rw [ofFrame?_of_refused refused, Option.bind_none, Option.toList_none, List.append_nil]
      exact seen_log view skips _ _ _
  | pass filled decoded uncalled next =>
      rw [ofFrame?_of_decoded filled decoded, uncalled, Option.bind_none, Option.toList_none,
        List.append_nil]
      exact seen_log view skips _ _ _
  | apply filled decoded called =>
      rw [ofFrame?_of_decoded filled decoded, called, Option.bind_some]
      refine (seen_cons ..).trans ?_
      rw [log_eq_note, note_history, seen_log view skips]

/-- How a read fails: by what it finds at once, or by silence until its deadline. -/
inductive FailsRead (client : Client) (stage : Stage) (link since : Nat) : TransportError → Stage → Prop
  | found {error : TransportError} {stage' : Stage} (reads : stage.Reads link (.error error) stage') :
      FailsRead client stage link since error stage'
  | silent {deadline : Nat} (waits : stage.readLink? link = none)
      (limit : client.idleDeadline? since = some deadline) (late : deadline ≤ stage.now) :
      FailsRead client stage link since (.idleTimeout client.options.endpoint.idleTimeout) stage

/-- How an attempt to send a mark ends: at once, or after a time in line. -/
inductive EndsSend (client : Client) (stage : Stage) (mark : Nat) (how : SendEnd)
    (channel channel' : Channel) : Prop
  | atOnce (here : client.phase = .confirming mark)
      (sent : channel.beginSend client.number mark client.options.confirmationTimeout client.cancelled
        stage.now = (.ended how, channel'))
  | inLine {deadline : Nat} (here : client.phase = .sending mark deadline)
      (sent : channel.resumeSend client.number mark deadline client.cancelled stage.now =
        (.ended how, channel'))

/-- The client and the stage at the end of a dial, right before its outcome. -/
def beforeOutcome (client : Client) (stage : Stage) (stops : Bool) : Client × Stage :=
  if stops then client.stop { stage with stopAsked := true } else (client, stage)

/-- The moves of a task. -/
inductive Moves (client : Client) (stage : Stage) : Client → Stage → Prop
  | pass {phase : Phase} (passes : client.Passes stage phase) :
      Moves client stage (client.enter phase) stage
  | skipCancelled {episode : Episode} (here : client.phase = .connecting episode)
      (enabled : client.options.endpoint.isDisabled = false)
      (isOpen : client.slot.shuttingDown = false) (cancelled : client.cancelled = true) :
      Moves client stage
        ((client.log stage.now (.connecting client.url)).enter (client.phaseAfterDial episode)) stage
  | dial {episode : Episode} {outcome : Outcome} {stage' : Stage}
      (here : client.phase = .connecting episode)
      (enabled : client.options.endpoint.isDisabled = false)
      (isOpen : client.slot.shuttingDown = false) (going : client.cancelled = false)
      (next : stage.nextOutcome client.url = (outcome, stage')) :
      Moves client stage
        (((client.log stage.now (.connecting client.url)).note stage.now
          (.dialBegun client.url)).enter (outcome.phase episode stage.now)) stage'
  | endDial {episode : Episode} {ends : DialEnd} {stops : Bool} {due : Nat} {client' : Client}
      {stage' : Stage} (here : client.phase = .dialling episode ends stops due)
      (going : client.cancelled = false) (late : due ≤ stage.now)
      (ended : EndsDial (client.beforeOutcome stage stops).1 (client.beforeOutcome stage stops).2 episode
        ends client' stage') : Moves client stage client' stage'
  | takeFrame {link since : Nat} {frame : List UInt8} {client' : Client} {stage' : Stage}
      (here : client.phase = .reading link since) (reads : stage.Reads link (.ok frame) stage')
      (takes : TakesFrame (client.note stage.now (.read link (.ok frame))) stage.now frame client') :
      Moves client stage client' stage'
  | endReading {link since : Nat} {error : TransportError} {stage' : Stage}
      (here : client.phase = .reading link since) (fails : FailsRead client stage link since error stage')
      (stopping : client.shouldStop = true) :
      Moves client stage ((client.note stage.now (.read link (.error error))).enter .idle) stage'
  | drop {link since : Nat} {error : TransportError} {stage' : Stage} {client'' : Client}
      {stage'' : Stage} (here : client.phase = .reading link since)
      (fails : FailsRead client stage link since error stage') (going : client.shouldStop = false)
      (changed : ((((client.note stage.now (.read link (.error error))).log stage.now
          (client.readReport error)).count .read).changeSlot stage' (client.slot.discard link)) =
        (client'', stage'')) :
      Moves client stage (client''.enter (client''.firstBackingOff stage''.now)) stage''
  | reconnect (here : client.phase = .looping) (unconnected : client.slot.held = none)
      (going : client.shouldStop = false) :
      Moves client stage
        (((client.log stage.now (client.readReport .notConnected)).count .read).enter
          (client.firstBackingOff stage.now)) stage
  | endSink {start due : Nat} {mark : Option Nat} (here : client.phase = .sinking start mark due)
      (late : due ≤ stage.now) :
      Moves client stage (client.endSink stage.now start mark) stage
  | getInLine {mark deadline : Nat} {channel channel' : Channel}
      (here : client.phase = .confirming mark) (observed : stage.channel = some channel)
      (sent : channel.beginSend client.number mark client.options.confirmationTimeout client.cancelled
        stage.now = (.inLine deadline, channel')) :
      Moves client stage (client.enter (.sending mark deadline)) { stage with channel := some channel' }
  | endSend {mark : Nat} {how : SendEnd} {channel channel' : Channel}
      (observed : stage.channel = some channel)
      (ends : EndsSend client stage mark how channel channel') :
      Moves client stage (client.endSend stage.now mark how) { stage with channel := some channel' }

/-! ### What no move changes -/

/-- What a task never changes: who the client is and that it was started. It only cancels what it stops,
neither of which is ever taken back, and it only adds to the history. -/
structure Keeps (client client' : Client) : Prop where
  number : client'.number = client.number
  options : client'.options = client.options
  sink : client'.sink = client.sink
  started : client'.started = client.started
  cancelled : client.cancelled = true → client'.cancelled = true
  uncancelled : client'.cancelled = true → client.cancelled = true ∨ client'.slot.shuttingDown = true
  stopped : client.slot.shuttingDown = true → client'.slot.shuttingDown = true
  history : client.history <:+ client'.history

namespace Keeps

variable {client middle client' : Client}

theorem of_eq (number : client'.number = client.number) (options : client'.options = client.options)
    (sink : client'.sink = client.sink) (started : client'.started = client.started)
    (cancelled : client'.cancelled = client.cancelled)
    (stopped : client.slot.shuttingDown = true → client'.slot.shuttingDown = true)
    (history : client.history <:+ client'.history) : Keeps client client' where
  number := number
  options := options
  sink := sink
  started := started
  cancelled := cancelled.trans
  uncancelled after := .inl (cancelled.symm.trans after)
  stopped := stopped
  history := history

theorem trans (first : Keeps client middle) (second : Keeps middle client') : Keeps client client' where
  number := second.number.trans first.number
  options := second.options.trans first.options
  sink := second.sink.trans first.sink
  started := second.started.trans first.started
  cancelled := second.cancelled ∘ first.cancelled
  uncancelled after :=
    (second.uncancelled after).elim (fun before => (first.uncancelled before).imp_right second.stopped) .inr
  stopped := second.stopped ∘ first.stopped
  history := first.history.trans second.history

theorem going (keeps : Keeps client client') (going : client'.shouldStop = false) :
    client.shouldStop = false := by
  obtain ⟨uncancelled, isOpen⟩ := Bool.or_eq_false_iff.mp going
  refine Bool.or_eq_false_iff.mpr ⟨?_, ?_⟩
  · exact Bool.eq_false_iff.mpr fun cancelled =>
      ne_true_of_eq_false uncancelled (keeps.cancelled cancelled)
  · exact Bool.eq_false_iff.mpr fun stopped => ne_true_of_eq_false isOpen (keeps.stopped stopped)

theorem enter (client : Client) (phase : Phase) : Keeps client (client.enter phase) :=
  .of_eq rfl rfl rfl rfl rfl id List.suffix_rfl

theorem note (client : Client) (now : Nat) (occurrence : Occurrence) :
    Keeps client (client.note now occurrence) :=
  .of_eq rfl rfl rfl rfl rfl id (List.suffix_cons ..)

theorem count (client : Client) (kind : ErrorKind) : Keeps client (client.count kind) :=
  .of_eq rfl rfl rfl rfl rfl id List.suffix_rfl

end Keeps

section

variable {client client' : Client} {stage stage' : Stage}

theorem stop_keeps (client : Client) (stage : Stage) : Keeps client (client.stop stage).1 := by
  rw [stop_eq]
  exact
    { number := rfl
      options := rfl
      sink := rfl
      started := rfl
      cancelled := fun before => by rw [before]; rfl
      uncancelled := fun _ => .inr rfl
      stopped := fun _ => rfl
      history := List.suffix_cons .. }

theorem TakesFrame.keeps {now : Nat} {frame : List UInt8} (takes : client.TakesFrame now frame client') :
    Keeps client client' := by
  have received : Keeps client { client with metrics := client.metrics.frameReceived } :=
    .of_eq rfl rfl rfl rfl rfl id List.suffix_rfl
  cases takes with
  | blank empty => exact .enter ..
  | undecodable filled refused =>
      exact received.trans ((Keeps.note ..).trans ((Keeps.count ..).trans (.enter ..)))
  | pass filled decoded uncalled next => exact received.trans ((Keeps.note ..).trans (.enter ..))
  | apply filled decoded called =>
      exact received.trans ((Keeps.note ..).trans ((Keeps.note ..).trans (.enter ..)))

theorem EndsDial.keeps {episode : Episode} {ends : DialEnd}
    (ended : EndsDial client stage episode ends client' stage') : Keeps client client' := by
  cases ended with
  | @install link next around isOpen changed =>
      obtain ⟨metrics, rfl⟩ := changeSlot_kept changed
      have installed : Keeps (client.note stage.now (.dialEnded (.connect link)))
          { client.note stage.now (.dialEnded (.connect link)) with
            slot := (client.slot.install link).1, metrics } := by
        refine .of_eq rfl rfl rfl rfl rfl (fun stopped => ?_) List.suffix_rfl
        simp only [note_kept, isOpen] at stopped
        cases stopped
      exact (Keeps.note ..).trans
        (installed.trans ((Keeps.note ..).trans ((Keeps.note ..).trans (.enter ..))))
  | refuse stopped => exact (Keeps.note ..).trans ((Keeps.note ..).trans (.enter ..))
  | @fail error =>
      have counted : Keeps (client.note stage.now (.dialEnded (.fail error)))
          { client.note stage.now (.dialEnded (.fail error)) with
            retryCount := client.retryCount + 1
            metrics := client.metrics.dialFailed } :=
        .of_eq rfl rfl rfl rfl rfl id List.suffix_rfl
      exact (Keeps.note ..).trans (counted.trans ((Keeps.note ..).trans (.enter ..)))

theorem stop_links (client : Client) (stage : Stage) :
    ∃ links, (client.stop stage).2 = { stage with links } := by
  rw [stop_eq]
  exact closeHeld_links ..

theorem FailsRead.links {link since : Nat} {error : TransportError}
    (fails : client.FailsRead stage link since error stage') : ∃ links, stage' = { stage with links } := by
  cases fails with
  | found reads => exact reads.links
  | silent waits limit late => exact ⟨stage.links, rfl⟩

theorem EndsDial.links {episode : Episode} {ends : DialEnd}
    (ended : EndsDial client stage episode ends client' stage') :
    ∃ links, stage' = { stage with links } := by
  cases ended with
  | install isOpen changed => exact changeSlot_links changed
  | refuse stopped => exact closeHeld_links ..
  | fail => exact ⟨stage.links, rfl⟩

theorem discard_shuttingDown (slot : Slot Nat) (link : Nat) :
    (slot.discard link).1.shuttingDown = slot.shuttingDown := by
  unfold Slot.discard
  split <;> rfl

theorem Moves.keeps (moves : client.Moves stage client' stage') : Keeps client client' := by
  cases moves with
  | pass passes => exact .enter ..
  | skipCancelled here enabled isOpen cancelled => exact (Keeps.note ..).trans (.enter ..)
  | dial here enabled isOpen going next =>
      exact (Keeps.note ..).trans ((Keeps.note ..).trans (.enter ..))
  | @endDial episode ends stops due _ _ here going late ended =>
      cases stops with
      | false => exact ended.keeps
      | true => exact (stop_keeps client { stage with stopAsked := true }).trans ended.keeps
  | takeFrame here reads takes => exact (Keeps.note ..).trans takes.keeps
  | endReading here fails stopping => exact (Keeps.note ..).trans (.enter ..)
  | @drop link since error around next last here fails going changed =>
      have read : Keeps client (((client.note stage.now (.read link (.error error))).log stage.now
          (client.readReport error)).count .read) :=
        (Keeps.note ..).trans ((Keeps.note ..).trans (.count ..))
      obtain ⟨metrics, rfl⟩ := changeSlot_kept changed
      exact read.trans (.of_eq rfl rfl rfl rfl rfl (discard_shuttingDown ..).trans List.suffix_rfl)
  | reconnect here unconnected going => exact (Keeps.note ..).trans ((Keeps.count ..).trans (.enter ..))
  | @endSink start due mark here late =>
      obtain ⟨number, options, sink, started, cancelled, slot, -⟩ :=
        endSink_kept client stage.now start mark
      refine .of_eq number options sink started cancelled (congrArg Slot.shuttingDown slot).trans ?_
      rw [endSink_history]
      exact (List.suffix_cons ..).trans (List.suffix_append ..)
  | getInLine here observed sent => exact .enter ..
  | @endSend mark how channel channel' observed ends =>
      obtain ⟨number, options, sink, started, cancelled, slot, -⟩ := endSend_kept client stage.now mark how
      refine .of_eq number options sink started cancelled (congrArg Slot.shuttingDown slot).trans ?_
      rw [endSend_history]
      exact List.suffix_append ..

theorem Moves.surroundings (moves : client.Moves stage client' stage') :
    ∃ scripts links channel stopAsked, stage' = { stage with scripts, links, channel, stopAsked } := by
  cases moves with
  | pass | skipCancelled | reconnect | endSink | getInLine | endSend => exact ⟨_, _, _, _, rfl⟩
  | dial here enabled isOpen going next =>
      exact ⟨_, stage.links, stage.channel, stage.stopAsked, (congrArg Prod.snd next).symm⟩
  | @endDial episode ends stops due _ _ here going late ended =>
      obtain ⟨links, rfl⟩ := ended.links
      cases stops with
      | false => exact ⟨_, _, _, _, rfl⟩
      | true =>
          obtain ⟨links, same⟩ := stop_links client { stage with stopAsked := true }
          rw [beforeOutcome, if_pos rfl, same]
          exact ⟨_, _, _, _, rfl⟩
  | takeFrame here reads takes =>
      obtain ⟨links, rfl⟩ := reads.links
      exact ⟨_, _, _, _, rfl⟩
  | endReading here fails stopping =>
      obtain ⟨links, rfl⟩ := fails.links
      exact ⟨_, _, _, _, rfl⟩
  | drop here fails going changed =>
      obtain ⟨links, rfl⟩ := fails.links
      obtain ⟨links', rfl⟩ := changeSlot_links changed
      exact ⟨_, _, _, _, rfl⟩

end

/-! ### A task does nothing else -/

variable {client : Client} {stage : Stage}

private theorem dial_moves (stage : Stage) {episode : Episode} (here : client.phase = .connecting episode) :
    Moves client stage (client.dial stage episode).1 (client.dial stage episode).2 := by
  unfold dial
  by_cases barred : (client.options.endpoint.isDisabled || client.slot.shuttingDown) = true
  · rw [if_pos barred, afterDial_eq]
    exact .pass (.skip here (Bool.or_eq_true_iff.mp barred))
  · rw [if_neg barred]
    rw [Bool.not_eq_true, Bool.or_eq_false_iff] at barred
    obtain ⟨enabled, isOpen⟩ := barred
    cases cancelled : client.cancelled with
    | true =>
        simp only [log_eq_note, note_kept, cancelled, if_true, afterDial_eq]
        exact .skipCancelled here enabled isOpen cancelled
    | false =>
        obtain ⟨⟨outcome, stage'⟩, next⟩ : ∃ found, stage.nextOutcome client.url = found := ⟨_, rfl⟩
        have now : stage'.now = stage.now := (congrArg (fun found => found.2.now) next).symm
        have begun := Moves.dial here enabled isOpen cancelled next
        simp only [log_eq_note, note_kept, note_url, cancelled, Bool.false_eq_true, if_false, next, now]
        cases ends : outcome.ends with
        | none => simpa only [log_eq_note, Outcome.phase, ends] using begun
        | some dialEnd => simpa only [log_eq_note, Outcome.phase, ends] using begun

private theorem endDial_ends (client : Client) (stage : Stage) (episode : Episode) (ends : DialEnd) :
    EndsDial client stage episode ends (client.endDial stage episode ends false).1
      (client.endDial stage episode ends false).2 := by
  cases ends with
  | connect link =>
      simp only [endDial, takeConnection, Bool.false_eq_true, if_false, note_kept]
      cases stopped : client.slot.shuttingDown with
      | true =>
          have refused := changeSlot_refuse (client.note stage.now (.dialEnded (.connect link))) stage link
            stopped
          simp only [note_kept] at refused
          simp only [refused, if_true, afterDial_eq]
          exact .refuse stopped
      | false =>
          simp only [Bool.false_eq_true, if_false, afterDial_eq]
          obtain ⟨⟨client', stage'⟩, changed⟩ : ∃ found,
              (client.note stage.now (.dialEnded (.connect link))).changeSlot stage
                (client.slot.install link) = found := ⟨_, rfl⟩
          rw [changed]
          exact .install stopped changed
  | fail error => cases episode <;> exact .fail

theorem endDial_stops (episode : Episode) (ends : DialEnd) (stops : Bool) :
    client.endDial stage episode ends stops =
      (client.beforeOutcome stage stops).1.endDial (client.beforeOutcome stage stops).2 episode ends
        false := by
  cases stops <;> rfl

private theorem sinkCall_of_unsupported {envelope : Envelope Json}
    (unsupported : envelope.isSupported = false) : envelope.sinkCall? = none := by
  have other : envelope.version ≠ 1 := of_decide_eq_false unsupported
  unfold Envelope.sinkCall?
  split
  · rfl
  · rw [if_neg other]

private theorem sinkCall_of_supported {envelope : Envelope Json}
    (supported : envelope.isSupported = true) :
    envelope.sinkCall? =
      envelope.firstSequence.map fun start => { start, force := false, payloads := envelope.payloads } := by
  have same : envelope.version = 1 := of_decide_eq_true supported
  unfold Envelope.sinkCall? Envelope.firstSequence Envelope.payloads
  cases envelope.messages with
  | nil => rfl
  | cons first rest => simp only [same, if_true, List.head?_cons, Option.map_some, List.map_cons]

theorem takeFrame_takes (now : Nat) (frame : List UInt8) :
    TakesFrame client now frame (client.takeFrame now frame) := by
  unfold takeFrame
  by_cases empty : frame = []
  · subst empty
    exact .blank rfl
  · have filled : frame.isEmpty = false := by simpa using empty
    rw [filled]
    simp only [Bool.false_eq_true, if_false]
    cases decoded : Envelope.decode Payload.any frame with
    | error error => exact .undecodable empty decoded
    | ok envelope =>
        cases supported : envelope.isSupported with
        | false =>
            have unmarked : envelope.mark? = none := if_neg (ne_true_of_eq_false supported)
            simp only [route, supported, Bool.not_false, if_true]
            exact .pass empty decoded (sinkCall_of_unsupported supported) (by rw [unmarked]; rfl)
        | true =>
            have calls := sinkCall_of_supported supported
            have marked : envelope.mark? = envelope.confirmed := if_pos supported
            simp only [route, supported, Bool.not_true, Bool.false_eq_true, if_false]
            cases first : envelope.firstSequence with
            | none =>
                rw [first, Option.map_none] at calls
                cases confirmed : envelope.confirmed with
                | none => exact .pass empty decoded calls (by rw [marked, confirmed]; rfl)
                | some mark => exact .pass empty decoded calls (by rw [marked, confirmed]; rfl)
            | some start =>
                rw [first, Option.map_some] at calls
                exact .apply empty decoded calls

private theorem sufferRead_none_moves (here : client.phase = .looping)
    (unconnected : client.slot.held = none) :
    Moves client stage (client.sufferRead stage none .notConnected).1
      (client.sufferRead stage none .notConnected).2 := by
  unfold sufferRead
  cases stopping : client.shouldStop with
  | true => exact .pass (.leaveUnconnected here unconnected stopping)
  | false => exact .reconnect here unconnected stopping

private theorem sufferRead_moves {link since : Nat} {error : TransportError} {stage' : Stage}
    (here : client.phase = .reading link since) (now : stage'.now = stage.now)
    (fails : FailsRead client stage link since error stage') :
    Moves client stage (client.endRead stage' link (.error error)).1
      (client.endRead stage' link (.error error)).2 := by
  simp only [endRead, sufferRead, now]
  have kept : (client.note stage.now (.read link (.error error))).shouldStop = client.shouldStop := rfl
  cases stopping : client.shouldStop with
  | true =>
      simp only [kept, stopping, if_true]
      exact .endReading here fails stopping
  | false =>
      simp only [kept, stopping, Bool.false_eq_true, if_false]
      exact .drop here fails stopping rfl

private theorem readLink_now {link : Nat} {result : ReadResult} {stage' : Stage}
    (read : stage.readLink? link = some (result, stage')) : stage'.now = stage.now := by
  unfold Stage.readLink? at read
  split at read
  · cases read
  · cases read
    rfl

private theorem endRead_ok (client : Client) (stage : Stage) (link : Nat) (frame : List UInt8) :
    client.endRead stage link (.ok frame) =
      ((client.note stage.now (.read link (.ok frame))).takeFrame stage.now frame, stage) :=
  rfl

private theorem takeFrame_moves {link since : Nat} {frame : List UInt8} {stage' : Stage}
    (here : client.phase = .reading link since) (now : stage'.now = stage.now)
    (reads : stage.Reads link (.ok frame) stage') :
    Moves client stage (client.endRead stage' link (.ok frame)).1
      (client.endRead stage' link (.ok frame)).2 := by
  rw [endRead_ok, now]
  exact .takeFrame here reads (takeFrame_takes stage.now frame)

private theorem read_moves {link since : Nat} {client' : Client} {stage' : Stage}
    (here : client.phase = .reading link since)
    (read : client.read? stage link since = some (client', stage')) :
    Moves client stage client' stage' := by
  unfold read? at read
  cases found : stage.readLink? link with
  | some result =>
      obtain ⟨result, after⟩ := result
      simp only [found, Option.some.injEq] at read
      have now := readLink_now found
      have reads := Stage.reads_of_readLink found
      cases result with
      | ok frame =>
          have moved := takeFrame_moves here now reads
          rw [read] at moved
          exact moved
      | error error =>
          have moved := sufferRead_moves here now (.found reads)
          rw [read] at moved
          exact moved
  | none =>
      cases limit : client.idleDeadline? since with
      | none => simp [found, limit] at read
      | some deadline =>
          by_cases late : deadline ≤ stage.now
          · simp only [found, limit, late, if_true, Option.some.injEq] at read
            have moved := sufferRead_moves here rfl (.silent found limit late)
            rw [read] at moved
            exact moved
          · simp [found, limit, late] at read

private theorem beginRead_moves (stage : Stage) (here : client.phase = .looping) :
    Moves client stage (client.beginRead stage).1 (client.beginRead stage).2 := by
  unfold beginRead
  cases cancelled : client.cancelled with
  | true => exact .pass (.leave here cancelled)
  | false =>
      simp only [Bool.false_eq_true, if_false]
      cases held : client.slot.held with
      | some link => exact .pass (.beginRead here cancelled held)
      | none => exact sufferRead_none_moves here held

private theorem beginSend_moves (stage : Stage) {mark : Nat} (here : client.phase = .confirming mark) :
    Moves client stage (client.beginSend stage mark).1 (client.beginSend stage mark).2 := by
  unfold beginSend
  cases observed : stage.channel with
  | none => exact .pass (.letGo here observed)
  | some channel =>
      obtain ⟨⟨sending, channel'⟩, sent⟩ : ∃ found, channel.beginSend client.number mark
        client.options.confirmationTimeout client.cancelled stage.now = found := ⟨_, rfl⟩
      simp only [sent]
      cases sending with
      | ended how => exact .endSend observed (.atOnce here sent)
      | inLine deadline => exact .getInLine here observed sent

private theorem send_moves {mark deadline : Nat} {client' : Client} {stage' : Stage}
    (here : client.phase = .sending mark deadline)
    (send : client.send? stage mark deadline = some (client', stage')) :
    Moves client stage client' stage' := by
  unfold send? at send
  cases observed : stage.channel with
  | none =>
      simp only [observed, Option.some.injEq, Prod.mk.injEq] at send
      obtain ⟨rfl, rfl⟩ := send
      exact .pass (.letGoInLine here observed)
  | some channel =>
      obtain ⟨⟨sending, channel'⟩, sent⟩ : ∃ found, channel.resumeSend client.number mark deadline
        client.cancelled stage.now = found := ⟨_, rfl⟩
      simp only [observed, sent] at send
      cases sending with
      | ended how =>
          simp only [Option.some.injEq, Prod.mk.injEq] at send
          obtain ⟨rfl, rfl⟩ := send
          exact .endSend observed (.inLine here sent)
      | inLine deadline => cases send

/-- Whatever a task does, it does by one of the rules. -/
theorem moves_of_proceed {client' : Client} {stage' : Stage}
    (proceeds : client.proceed? stage = some (client', stage')) : Moves client stage client' stage' := by
  unfold proceed? at proceeds
  cases here : client.phase with
  | idle => simp [here] at proceeds
  | connecting episode =>
      simp only [here, Option.some.injEq] at proceeds
      have moved := dial_moves stage here
      rw [proceeds] at moved
      exact moved
  | hanging episode =>
      cases cancelled : client.cancelled with
      | false => simp [here, cancelled] at proceeds
      | true =>
          simp only [here, cancelled, if_true, Option.some.injEq, Prod.mk.injEq, afterDial_eq] at proceeds
          obtain ⟨rfl, rfl⟩ := proceeds
          exact .pass (.abandon (congrArg Phase.dial? here) cancelled)
  | dialling episode ends stops due =>
      cases cancelled : client.cancelled with
      | true =>
          simp only [here, cancelled, if_true, Option.some.injEq, Prod.mk.injEq, afterDial_eq] at proceeds
          obtain ⟨rfl, rfl⟩ := proceeds
          exact .pass (.abandon (congrArg Phase.dial? here) cancelled)
      | false =>
          by_cases late : due ≤ stage.now
          · simp only [here, cancelled, late, Bool.false_eq_true, if_false, if_true, Option.some.injEq]
              at proceeds
            have ended := endDial_ends (client.beforeOutcome stage stops).1
              (client.beforeOutcome stage stops).2 episode ends
            rw [← endDial_stops, proceeds] at ended
            exact .endDial here cancelled late ended
          · simp [here, cancelled, late] at proceeds
  | retrying due =>
      cases cancelled : client.cancelled with
      | true =>
          simp only [here, cancelled, if_true, Option.some.injEq, Prod.mk.injEq] at proceeds
          obtain ⟨rfl, rfl⟩ := proceeds
          exact .pass (.giveUp here cancelled)
      | false =>
          by_cases late : due ≤ stage.now
          · simp only [here, cancelled, late, Bool.false_eq_true, if_false, if_true, Option.some.injEq,
              Prod.mk.injEq] at proceeds
            obtain ⟨rfl, rfl⟩ := proceeds
            exact .pass (.retry here cancelled late)
          · simp [here, cancelled, late] at proceeds
  | backingOff wait due =>
      cases cancelled : client.cancelled with
      | true =>
          simp only [here, cancelled, if_true, Option.some.injEq, Prod.mk.injEq] at proceeds
          obtain ⟨rfl, rfl⟩ := proceeds
          exact .pass (.endBackOff here (by rw [shouldStop, cancelled, Bool.true_or]))
      | false =>
          by_cases late : due ≤ stage.now
          · simp only [here, cancelled, late, Bool.false_eq_true, if_false, if_true, Option.some.injEq,
              Prod.mk.injEq] at proceeds
            obtain ⟨rfl, rfl⟩ := proceeds
            cases stopping : client.shouldStop with
            | true => exact .pass (.endBackOff here stopping)
            | false => exact .pass (.redial here stopping late)
          · simp [here, cancelled, late] at proceeds
  | ready =>
      simp only [here, Option.some.injEq, Prod.mk.injEq] at proceeds
      obtain ⟨rfl, rfl⟩ := proceeds
      exact .pass (.handOver here)
  | looping =>
      simp only [here, Option.some.injEq] at proceeds
      have moved := beginRead_moves stage here
      rw [proceeds] at moved
      exact moved
  | reading link since =>
      simp only [here] at proceeds
      exact read_moves here proceeds
  | sinking start mark due =>
      by_cases late : due ≤ stage.now
      · simp only [here, late, if_true, Option.some.injEq, Prod.mk.injEq] at proceeds
        obtain ⟨rfl, rfl⟩ := proceeds
        exact .endSink here late
      · simp [here, late] at proceeds
  | confirming mark =>
      simp only [here, Option.some.injEq] at proceeds
      have moved := beginSend_moves stage here
      rw [proceeds] at moved
      exact moved
  | sending mark deadline =>
      simp only [here] at proceeds
      exact send_moves here proceeds

end Client

end SequencedFeed
