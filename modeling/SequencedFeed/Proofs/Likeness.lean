import SequencedFeed.Proofs.Settling
set_option autoImplicit false

/-!
# Clients that do the same

Two clients, each on a stage of its own, do the same in every move if they are alike: their connections may have
other numbers, and what they have recorded may differ in a way that stays the same when the same happens to both.
The only thing that two clients that are alike can disagree on is what a read gives, so `Alike.proceed` asks for
that. What lies around the first client on its stage is left alone, whatever the client does.
-/

namespace SequencedFeed

/-! ### Connections by other numbers -/

def DialEnd.rename (rename : Nat → Nat) : DialEnd → DialEnd
  | .connect link => .connect (rename link)
  | .fail error => .fail error

def Outcome.rename (rename : Nat → Nat) (outcome : Outcome) : Outcome :=
  { outcome with ends := outcome.ends.map (DialEnd.rename rename) }

def DialScript.rename (rename : Nat → Nat) (script : DialScript) : DialScript :=
  { script with outcomes := script.outcomes.map (Outcome.rename rename) }

def SlotEffect.rename (rename : Nat → Nat) : SlotEffect Nat → SlotEffect Nat
  | .enter => .enter
  | .refuse link => .refuse (rename link)
  | .release link => .release (rename link)

def Slot.rename (rename : Nat → Nat) (slot : Slot Nat) : Slot Nat :=
  { slot with held := slot.held.map rename }

def Phase.rename (rename : Nat → Nat) : Phase → Phase
  | .dialling episode ends stops due => .dialling episode (ends.rename rename) stops due
  | .reading link since => .reading (rename link) since
  | phase => phase

def Occurrence.rename (rename : Nat → Nat) : Occurrence → Occurrence
  | .dialEnded ends => .dialEnded (ends.rename rename)
  | .installed link => .installed (rename link)
  | .read link result => .read (rename link) result
  | occurrence => occurrence

theorem Outcome.phase_rename (rename : Nat → Nat) (outcome : Outcome) (episode : Episode) (now : Nat) :
    (outcome.rename rename).phase episode now = (outcome.phase episode now).rename rename := by
  obtain ⟨ends, after, stops⟩ := outcome
  cases ends <;> rfl

theorem DialScript.next_rename (rename : Nat → Nat) (script : DialScript) :
    (script.rename rename).next = (script.next.1.rename rename, script.next.2.rename rename) := by
  obtain ⟨outcomes, beyond⟩ := script
  cases outcomes with
  | nil => cases beyond <;> rfl
  | cons outcome rest => cases beyond <;> rfl

namespace Slot

variable (rename : Nat → Nat) (slot : Slot Nat)

theorem released_rename (held : Option Nat) :
    released (held.map rename) = (released held).map (SlotEffect.rename rename) := by
  cases held <;> rfl

theorem install_rename (link : Nat) :
    (slot.rename rename).install (rename link) =
      ((slot.install link).1.rename rename, (slot.install link).2.map (SlotEffect.rename rename)) := by
  obtain ⟨held, shuttingDown⟩ := slot
  cases shuttingDown with
  | true => rfl
  | false =>
      have freed := released_rename rename held
      exact Prod.ext rfl (congrArg (SlotEffect.enter :: ·) freed)

theorem discard_rename {rename : Nat → Nat} (injective : ∀ {left right : Nat}, rename left = rename right → left = right)
    (link : Nat) :
    (slot.rename rename).discard (rename link) =
      ((slot.discard link).1.rename rename, (slot.discard link).2.map (SlotEffect.rename rename)) := by
  have same : (slot.rename rename).held = some (rename link) ↔ slot.held = some link := by
    constructor
    · intro holds
      obtain ⟨held, found, renamed⟩ := Option.map_eq_some_iff.mp holds
      rw [found, injective renamed]
    · intro holds
      exact congrArg (Option.map rename) holds
  unfold discard
  by_cases holds : slot.held = some link
  · rw [if_pos (same.mpr holds), if_pos holds]
    rfl
  · rw [if_neg fun renamed => holds (same.mp renamed), if_neg holds]
    rfl

theorem shutDown_rename :
    (slot.rename rename).shutDown =
      (slot.shutDown.1.rename rename, slot.shutDown.2.map (SlotEffect.rename rename)) :=
  Prod.ext rfl (released_rename rename slot.held)

end Slot

/-! ### Ways to be alike -/

/-- How two clients may differ that are alike: connections of the second stage are known on the first one by
other numbers, and `links`, `counts` and `pasts` say what connections, metrics and histories may look like.
All of this is kept when the same happens to both. Where a likeness is `loose`, reads may have begun at different
instants. -/
structure Likeness where
  rename : Nat → Nat
  links : Nat → Link → Link → Prop
  counts : Metrics → Metrics → Prop
  pasts : List (Nat × Occurrence) → List (Nat × Occurrence) → Prop
  loose : Bool
  injective : ∀ {left right : Nat}, rename left = rename right → left = right
  close : ∀ {number : Nat} {link other : Link}, links number link other → links number link.close other.close
  opened : ∀ {metrics other : Metrics}, counts metrics other → counts metrics.connectionOpened other.connectionOpened
  closed : ∀ {metrics other : Metrics}, counts metrics other → counts metrics.connectionClosed other.connectionClosed
  dialFailed : ∀ {metrics other : Metrics}, counts metrics other → counts metrics.dialFailed other.dialFailed
  framed : ∀ {metrics other : Metrics}, counts metrics other → counts metrics.frameReceived other.frameReceived
  failed : ∀ {metrics other : Metrics} (kind : ErrorKind), counts metrics other →
    counts (metrics.errorOccurred kind) (other.errorOccurred kind)
  noted : ∀ {past other : List (Nat × Occurrence)} (time : Nat) (occurrence : Occurrence), pasts past other →
    pasts ((time, occurrence.rename rename) :: past) ((time, occurrence) :: other)

inductive Phase.Like (like : Likeness) : Phase → Phase → Prop
  | same (phase : Phase) : Like like (phase.rename like.rename) phase
  | reading {link since since' : Nat} (loose : like.loose = true) :
      Like like (.reading (like.rename link) since) (.reading link since')

/-- Clients that do the same. Only clients that never give up a read may have begun theirs at different
instants. -/
structure Client.Like (like : Likeness) (client other : Client) : Prop where
  options : client.options = other.options
  sink : client.sink = other.sink
  started : client.started = other.started
  cancelled : client.cancelled = other.cancelled
  slot : client.slot = other.slot.rename like.rename
  phase : client.phase.Like like other.phase
  retryCount : client.retryCount = other.retryCount
  metrics : like.counts client.metrics other.metrics
  history : like.pasts client.history other.history
  endless : like.loose = true → other.options.endpoint.idleTimeout.millis = 0

/-- Stages on which clients for an address find the same. The first one is as it was, in `around`, but for what
concerns the client: the script for its address and its connections. -/
structure Stage.Like (like : Likeness) (url : String) (stage around other : Stage) : Prop where
  now : stage.now = other.now
  token : stage.tokenCancelled = other.tokenCancelled
  asked : stage.stopAsked = other.stopAsked
  channel : stage.channel = other.channel
  script : stage.script url = (other.script url).rename like.rename
  links : ∀ number, Option.Rel (like.links number) stage.links[like.rename number]? other.links[number]?
  size : stage.links.length = around.links.length
  apart : ∀ number, (∀ own, like.rename own ≠ number) → stage.links[number]? = around.links[number]?
  others : ∀ address, address ≠ url → stage.script address = around.script address

/-- Clients that do the same on their stages. They need a common number only where there is a channel. -/
structure Alike (like : Likeness) (around : Stage) (here there : Client × Stage) : Prop where
  client : here.1.Like like there.1
  stage : here.2.Like like there.1.url around there.2
  heard : there.2.channel = none ∨ here.1.number = there.1.number

variable {like : Likeness} {around stage other : Stage} {client mate : Client} {url : String}

namespace Client.Like

theorem url_eq (alike : client.Like like mate) : client.url = mate.url := by
  rw [url, url, alike.options]

theorem shouldStop (alike : client.Like like mate) : client.shouldStop = mate.shouldStop := by
  rw [Client.shouldStop, Client.shouldStop, alike.cancelled, alike.slot]
  rfl

theorem shuttingDown (alike : client.Like like mate) : client.slot.shuttingDown = mate.slot.shuttingDown := by
  rw [alike.slot]
  rfl

theorem isConnected (alike : client.Like like mate) : client.isConnected = mate.isConnected := by
  rw [Client.isConnected, Client.isConnected, alike.slot]
  exact Option.isSome_map ..

theorem isIdle (alike : client.Like like mate) : client.isIdle = mate.isIdle := by
  have phases : client.phase.Like like mate.phase := alike.phase
  unfold Client.isIdle
  generalize client.phase = here at phases ⊢
  generalize mate.phase = there at phases ⊢
  cases phases with
  | same => cases there <;> rfl
  | reading loose => rfl

theorem enter (alike : client.Like like mate) {here there : Phase} (phases : here.Like like there) :
    (client.enter here).Like like (mate.enter there) :=
  { alike with phase := phases }

theorem note (alike : client.Like like mate) (now : Nat) (occurrence : Occurrence) :
    (client.note now (occurrence.rename like.rename)).Like like (mate.note now occurrence) :=
  { alike with history := like.noted now occurrence alike.history }

theorem log (alike : client.Like like mate) (now : Nat) (event : LogEvent) :
    (client.log now event).Like like (mate.log now event) :=
  alike.note now (.log event)

theorem measure (alike : client.Like like mate) {metrics metrics' : Metrics} (counts : like.counts metrics metrics') :
    { client with metrics }.Like like { mate with metrics := metrics' } :=
  { alike with metrics := counts }

theorem count (alike : client.Like like mate) (kind : ErrorKind) :
    (client.count kind).Like like (mate.count kind) :=
  alike.measure (like.failed kind alike.metrics)

theorem meter (alike : client.Like like mate) (effect : SlotEffect Nat) :
    { client with metrics := (effect.rename like.rename).meter client.metrics }.Like like
      { mate with metrics := effect.meter mate.metrics } := by
  cases effect with
  | enter => exact alike.measure (like.opened alike.metrics)
  | refuse link => exact alike
  | release link => exact alike.measure (like.closed alike.metrics)

/-- A client that is like another one is the other one with a number, a phase and a record of its own. -/
theorem exists_twin (alike : client.Like like mate) :
    ∃ number phase metrics lastMove history,
      client =
        { mate with number, slot := mate.slot.rename like.rename, phase, metrics, lastMove, history } := by
  obtain ⟨number, options, sink, started, cancelled, slot, phase, retryCount, metrics, lastMove, history⟩ := client
  obtain ⟨rfl, rfl, rfl, rfl, rfl, -, rfl, -, -, -⟩ := alike
  exact ⟨number, phase, metrics, lastMove, history, rfl⟩

theorem start (alike : client.Like like mate) (now : stage.now = other.now)
    (token : stage.tokenCancelled = other.tokenCancelled) :
    (client.start stage).Like like (mate.start other) := by
  have begun : { client with started := true, cancelled := stage.tokenCancelled, phase := .connecting .startUp }.Like like
      { mate with started := true, cancelled := other.tokenCancelled, phase := .connecting .startUp } :=
    { alike with started := rfl, cancelled := token, phase := .same (.connecting .startUp) }
  unfold Client.start
  rw [alike.started, alike.url_eq, now, show client.options.endpoint = mate.options.endpoint by rw [alike.options]]
  by_cases disabled : mate.options.endpoint.isDisabled = true
  · rw [if_pos disabled, if_pos disabled]
    exact alike.log _ _
  · rw [if_neg disabled, if_neg disabled]
    by_cases started : mate.started = true
    · rw [if_pos started, if_pos started]
      exact alike.log _ _
    · rw [if_neg started, if_neg started]
      exact begun

theorem cancel (alike : client.Like like mate) : client.cancel.Like like mate.cancel := by
  unfold Client.cancel
  exact { alike with cancelled := by rw [alike.cancelled, alike.started] }

/-! ### Moves that leave the stage alone -/

theorem afterDial (alike : client.Like like mate) (episode : Episode) :
    (client.afterDial episode).Like like (mate.afterDial episode) := by
  cases episode with
  | startUp =>
      unfold Client.afterDial
      rw [alike.shouldStop]
      cases mate.shouldStop with
      | true => exact alike.enter (.same .idle)
      | false => exact alike.enter (.same .ready)
  | reconnect waited => exact alike.enter (.same .looping)

theorem phaseAfterFailure (alike : client.Like like mate) (now : Nat) (episode : Episode) :
    (client.phaseAfterFailure now episode).Like like (mate.phaseAfterFailure now episode) := by
  cases episode with
  | startUp =>
      rw [Client.phaseAfterFailure, alike.options]
      exact .same (.retrying _)
  | reconnect waited =>
      simp only [Client.phaseAfterFailure, alike.options, alike.shouldStop]
      cases mate.shouldStop with
      | true => exact .same .looping
      | false => exact .same (.backingOff ..)

theorem sufferDial (alike : client.Like like mate) (now : Nat) (episode : Episode) (error : TransportError) :
    (client.sufferDial now episode error).Like like (mate.sufferDial now episode error) := by
  have counted : { client with retryCount := client.retryCount + 1, metrics := client.metrics.dialFailed }.Like like
      { mate with retryCount := mate.retryCount + 1, metrics := mate.metrics.dialFailed } :=
    { alike with
      retryCount := congrArg (· + 1) alike.retryCount
      metrics := like.dialFailed alike.metrics }
  have phases := alike.phaseAfterFailure now episode
  obtain ⟨number, phase, metrics, lastMove, history, rfl⟩ := alike.exists_twin
  cases episode with
  | startUp | reconnect => exact (counted.log now _).enter phases

theorem afterSink (alike : client.Like like mate) (mark : Option Nat) :
    (client.afterSink mark).Like like (mate.afterSink mark) := by
  cases mark with
  | none => exact alike.enter (.same .looping)
  | some mark => exact alike.enter (.same (.confirming mark))

theorem route (alike : client.Like like mate) (now : Nat) (envelope : Envelope Json) :
    (client.route now envelope).Like like (mate.route now envelope) := by
  unfold Client.route
  cases envelope.isSupported with
  | false => exact alike.enter (.same .looping)
  | true =>
      cases envelope.firstSequence with
      | none => exact alike.afterSink _
      | some start =>
          simp only [alike.sink]
          exact (alike.note now (.applied _)).enter (.same (.sinking ..))

theorem takeFrame (alike : client.Like like mate) (now : Nat) (frame : List UInt8) :
    (client.takeFrame now frame).Like like (mate.takeFrame now frame) := by
  obtain ⟨number, phase, metrics, lastMove, history, rfl⟩ := alike.exists_twin
  have counted := alike.measure (like.framed alike.metrics)
  unfold Client.takeFrame
  cases frame.isEmpty with
  | true => exact alike.enter (.same .looping)
  | false =>
      cases Envelope.decode Payload.any frame with
      | ok envelope => exact (counted.log now _).route now envelope
      | error error => exact ((counted.log now _).count .decode).enter (.same .looping)

theorem endSink (alike : client.Like like mate) (now start : Nat) (mark : Option Nat) :
    (client.endSink now start mark).Like like (mate.endSink now start mark) := by
  obtain ⟨number, phase, metrics, lastMove, history, rfl⟩ := alike.exists_twin
  have returned := alike.note now (.sinkReturned mate.sink.fails)
  change Client.Like like (Client.afterSink (if mate.sink.fails = true then _ else _) mark)
    (Client.afterSink (if mate.sink.fails = true then _ else _) mark)
  split
  · exact ((returned.log now _).count .sink).afterSink mark
  · exact returned.afterSink mark

theorem endSend (alike : client.Like like mate) (now mark : Nat) (how : SendEnd) :
    (client.endSend now mark how).Like like (mate.endSend now mark how) := by
  obtain ⟨number, phase, metrics, lastMove, history, rfl⟩ := alike.exists_twin
  cases how with
  | delivered => exact (alike.note now (.delivered mark)).enter (.same .looping)
  | timedOut => exact ((alike.count .confirmation).log now _).enter (.same .looping)
  | closed => exact ((alike.count .confirmation).log now _).enter (.same .looping)
  | abandoned => exact alike.enter (.same .looping)

end Client.Like

/-! ### Stages -/

namespace Stage

theorem links_changeLink_self {stage : Stage} {number : Nat} {change : Link → Link} :
    (stage.changeLink number change).links[number]? = stage.links[number]?.map change :=
  List.getElem?_modify_eq ..

theorem links_changeLink_other {stage : Stage} {number place : Nat} {change : Link → Link} (elsewhere : place ≠ number) :
    (stage.changeLink number change).links[place]? = stage.links[place]? :=
  List.getElem?_modify_ne change stage.links elsewhere.symm

end Stage

namespace Stage.Like

theorem at_instant (alike : stage.Like like url around other) (now : Nat) :
    Stage.Like like url { stage with now } around { other with now } :=
  { alike with now := rfl }

theorem of_channel (alike : stage.Like like url around other) (channel : Option Channel) :
    Stage.Like like url { stage with channel } around { other with channel } :=
  { alike with channel := rfl }

theorem ask (alike : stage.Like like url around other) :
    Stage.Like like url { stage with stopAsked := true } around { other with stopAsked := true } :=
  { alike with asked := rfl }

theorem here (alike : stage.Like like url around other) : stage.Like like url stage other :=
  { alike with size := rfl, apart := fun _ _ => rfl, others := fun _ _ => rfl }

theorem change_link (alike : stage.Like like url around other) {change change' : Link → Link} (number : Nat)
    (keeps : ∀ {link link' : Link}, like.links number link link' → like.links number (change link) (change' link')) :
    (stage.changeLink (like.rename number) change).Like like url around (other.changeLink number change') :=
  { alike with
    links := fun own => by
      have held := alike.links own
      by_cases same : own = number
      · subst same
        rw [links_changeLink_self, links_changeLink_self]
        revert held
        generalize stage.links[like.rename own]? = link
        generalize other.links[own]? = link'
        intro held
        cases held with
        | none => exact .none
        | some held => exact .some (keeps held)
      · rw [links_changeLink_other fun renamed => same (like.injective renamed), links_changeLink_other same]
        exact held
    size := (changeLink_length ..).trans alike.size
    apart := fun place elsewhere => by
      rw [links_changeLink_other fun renamed => elsewhere number renamed.symm]
      exact alike.apart place elsewhere }

theorem close (alike : stage.Like like url around other) (number : Nat) :
    (stage.changeLink (like.rename number) Link.close).Like like url around (other.changeLink number Link.close) :=
  alike.change_link number like.close

theorem next_outcome (alike : stage.Like like url around other) :
    (stage.nextOutcome url).1 = (other.nextOutcome url).1.rename like.rename ∧
      (stage.nextOutcome url).2.Like like url around (other.nextOutcome url).2 := by
  have here := script_nextOutcome (Prod.eta (stage.nextOutcome url)).symm
  have there := script_nextOutcome (Prod.eta (other.nextOutcome url)).symm
  have same := DialScript.next_rename like.rename (other.script url)
  rw [← alike.script, here, there] at same
  obtain ⟨outcome, script⟩ := Prod.mk.inj same
  refine ⟨outcome, { alike with script := script, others := fun address different => ?_ }⟩
  rw [← alike.others address different]
  exact script_nextOutcome_other stage different

end Stage.Like

/-! ### Moves -/

theorem Client.dial_eq (client : Client) (stage : Stage) (episode : Episode) :
    client.dial stage episode =
      if client.options.endpoint.isDisabled || client.slot.shuttingDown then (client.afterDial episode, stage)
      else if client.cancelled then ((client.log stage.now (.connecting client.url)).afterDial episode, stage)
      else
        (((client.log stage.now (.connecting client.url)).note stage.now (.dialBegun client.url)).enter
            ((stage.nextOutcome client.url).1.phase episode stage.now),
          (stage.nextOutcome client.url).2) := by
  obtain ⟨⟨ends, after, stops⟩, later, next⟩ : ∃ outcome later, stage.nextOutcome client.url = (outcome, later) :=
    ⟨_, _, rfl⟩
  have now : later.now = stage.now := by
    obtain ⟨-, rfl⟩ := Prod.mk.inj next
    rfl
  simp only [Client.dial, log_eq_note, note_url, next, now]
  cases ends <;> rfl

/-- The outcome of a dial, after what the dial asked for. -/
def Client.finishDial (client : Client) (stage : Stage) (episode : Episode) : DialEnd → Client × Stage
  | .connect link => (client.note stage.now (.dialEnded (.connect link))).takeConnection stage episode link
  | .fail error => ((client.note stage.now (.dialEnded (.fail error))).sufferDial stage.now episode error, stage)

theorem Client.endDial_eq (client : Client) (stage : Stage) (episode : Episode) (ends : DialEnd) (stops : Bool) :
    client.endDial stage episode ends stops =
      (client.beforeOutcome stage stops).1.finishDial (client.beforeOutcome stage stops).2 episode ends := by
  cases ends <;> rfl

namespace Alike

variable {here there : Client × Stage}

theorem carryOut (alike : Alike like around here there) (effect : SlotEffect Nat) :
    Alike like around (here.1.carryOut here.2 (effect.rename like.rename)) (there.1.carryOut there.2 effect) := by
  have stages := alike.stage
  refine ⟨alike.client.meter effect, ?_, ?_⟩
  · cases effect with
    | enter => exact stages
    | refuse link => exact stages.close link
    | release link => exact stages.close link
  · cases effect <;> exact alike.heard

theorem changeSlot (alike : Alike like around here there) (change : Slot Nat × List (SlotEffect Nat)) :
    Alike like around
      (here.1.changeSlot here.2 (change.1.rename like.rename, change.2.map (SlotEffect.rename like.rename)))
      (there.1.changeSlot there.2 change) := by
  obtain ⟨slot, effects⟩ := change
  have placed : Alike like around ({ here.1 with slot := slot.rename like.rename }, here.2)
      ({ there.1 with slot }, there.2) :=
    ⟨{ alike.client with slot := rfl }, alike.stage, alike.heard⟩
  simp only [Client.changeSlot, List.foldl_map]
  generalize ({ here.1 with slot := slot.rename like.rename }, here.2) = first at placed
  generalize ({ there.1 with slot }, there.2) = second at placed
  induction effects generalizing first second with
  | nil => exact placed
  | cons effect rest ih => exact ih _ _ (placed.carryOut effect)

variable {like : Likeness} {around stage other : Stage} {client mate : Client}

theorem enter (alike : Alike like around (client, stage) (mate, other)) {phase phase' : Phase} (phases : phase.Like like phase') :
    Alike like around (client.enter phase, stage) (mate.enter phase', other) :=
  ⟨alike.client.enter phases, alike.stage, alike.heard⟩

theorem log (alike : Alike like around (client, stage) (mate, other)) (now : Nat) (event : LogEvent) :
    Alike like around (client.log now event, stage) (mate.log now event, other) :=
  ⟨alike.client.log now event, alike.stage, alike.heard⟩

theorem note (alike : Alike like around (client, stage) (mate, other)) (now : Nat) (occurrence : Occurrence) :
    Alike like around (client.note now (occurrence.rename like.rename), stage) (mate.note now occurrence, other) :=
  ⟨alike.client.note now occurrence, alike.stage, alike.heard⟩

theorem keep (alike : Alike like around (client, stage) (mate, other)) {client' mate' : Client}
    (clients : client'.Like like mate') (number : client'.number = client.number) (number' : mate'.number = mate.number)
    (options : mate'.options = mate.options) : Alike like around (client', stage) (mate', other) := by
  refine ⟨clients, ?_, ?_⟩
  · change stage.Like like mate'.url around other
    rw [show mate'.url = mate.url by rw [Client.url, Client.url, options]]
    exact alike.stage
  · change other.channel = none ∨ client'.number = mate'.number
    rw [number, number']
    exact alike.heard

theorem afterDial (alike : Alike like around (client, stage) (mate, other)) (episode : Episode) :
    Alike like around (client.afterDial episode, stage) (mate.afterDial episode, other) := by
  have clients := alike.client.afterDial episode
  simp only [Client.afterDial_eq] at clients ⊢
  exact alike.keep clients rfl rfl rfl

theorem stop (alike : Alike like around (client, stage) (mate, other)) :
    Alike like around (client.stop stage) (mate.stop other) := by
  have clients : client.Like like mate := alike.client
  have now : stage.now = other.now := alike.stage.now
  have cancelled : Alike like around ((client.log other.now (.closing mate.url)).cancel, stage)
      ((mate.log other.now (.closing mate.url)).cancel, other) :=
    alike.keep (clients.log other.now (.closing mate.url)).cancel rfl rfl rfl
  have changed := cancelled.changeSlot mate.slot.shutDown
  rw [← Slot.shutDown_rename, ← clients.slot] at changed
  unfold Client.stop
  rw [clients.url_eq, now]
  exact changed

theorem dial (alike : Alike like around (client, stage) (mate, other)) (episode : Episode) :
    Alike like around (client.dial stage episode) (mate.dial other episode) := by
  have clients : client.Like like mate := alike.client
  have now : stage.now = other.now := alike.stage.now
  have logged := alike.log other.now (.connecting mate.url)
  obtain ⟨outcomes, stages⟩ := logged.stage.next_outcome
  rw [Client.dial_eq, Client.dial_eq, clients.options, clients.shuttingDown, clients.cancelled, clients.url_eq, now]
  split
  · exact alike.afterDial episode
  split
  · exact logged.afterDial episode
  have begun : Alike like around
      ((client.log other.now (.connecting mate.url)).note other.now (.dialBegun mate.url), (stage.nextOutcome mate.url).2)
      ((mate.log other.now (.connecting mate.url)).note other.now (.dialBegun mate.url), (other.nextOutcome mate.url).2) :=
    ⟨logged.client.note other.now (.dialBegun mate.url), stages, logged.heard⟩
  refine begun.enter ?_
  rw [show (stage.nextOutcome mate.url).1 = _ from outcomes, Outcome.phase_rename]
  exact .same _

theorem takeConnection (alike : Alike like around (client, stage) (mate, other)) (episode : Episode) (link : Nat) :
    Alike like around (client.takeConnection stage episode (like.rename link)) (mate.takeConnection other episode link) := by
  have clients : client.Like like mate := alike.client
  have changed := alike.changeSlot (mate.slot.install link)
  rw [← Slot.install_rename, ← clients.slot] at changed
  unfold Client.takeConnection
  rw [clients.shuttingDown]
  change Alike like around (client.changeSlot stage (client.slot.install (like.rename link)))
    (mate.changeSlot other (mate.slot.install link)) at changed
  generalize client.changeSlot stage (client.slot.install (like.rename link)) = taken at changed
  generalize mate.changeSlot other (mate.slot.install link) = taken' at changed
  obtain ⟨client, stage⟩ := taken
  obtain ⟨mate', other⟩ := taken'
  have now : stage.now = other.now := changed.stage.now
  have url : client.url = mate'.url := changed.client.url_eq
  simp only [now, url]
  refine afterDial ?_ episode
  split
  · exact changed.log other.now _
  · exact (changed.note other.now (.installed link)).log other.now _

theorem finishDial (alike : Alike like around (client, stage) (mate, other)) (episode : Episode) (ends : DialEnd) :
    Alike like around (client.finishDial stage episode (ends.rename like.rename)) (mate.finishDial other episode ends) := by
  have now : stage.now = other.now := alike.stage.now
  have noted := alike.note other.now (.dialEnded ends)
  cases ends with
  | connect link =>
      simp only [Client.finishDial, DialEnd.rename, now]
      exact noted.takeConnection episode link
  | fail error =>
      simp only [Client.finishDial, DialEnd.rename, now]
      exact noted.keep (noted.client.sufferDial other.now episode error) (by cases episode <;> rfl)
        (by cases episode <;> rfl) (by cases episode <;> rfl)

theorem endDial (alike : Alike like around (client, stage) (mate, other)) (episode : Episode) (ends : DialEnd)
    (stops : Bool) :
    Alike like around (client.endDial stage episode (ends.rename like.rename) stops) (mate.endDial other episode ends stops) := by
  have before : Alike like around (client.beforeOutcome stage stops) (mate.beforeOutcome other stops) := by
    cases stops with
    | false => exact alike
    | true =>
        have asked : Alike like around (client, { stage with stopAsked := true }) (mate, { other with stopAsked := true }) :=
          ⟨alike.client, alike.stage.ask, alike.heard⟩
        exact asked.stop
  rw [Client.endDial_eq, Client.endDial_eq]
  exact before.finishDial episode ends

theorem sufferRead (alike : Alike like around (client, stage) (mate, other)) (link : Option Nat) (error : TransportError) :
    Alike like around (client.sufferRead stage (link.map like.rename) error) (mate.sufferRead other link error) := by
  have now : stage.now = other.now := alike.stage.now
  have clients : client.Like like mate := alike.client
  have reported : Alike like around ((client.log other.now (mate.readReport error)).count .read, stage)
      ((mate.log other.now (mate.readReport error)).count .read, other) :=
    ⟨(clients.log other.now (mate.readReport error)).count .read, alike.stage, alike.heard⟩
  have report : client.readReport error = mate.readReport error := by
    rw [Client.readReport, Client.readReport, clients.url_eq]
  unfold Client.sufferRead
  rw [clients.shouldStop, report, now]
  split
  · exact alike.enter (.same .idle)
  have waits {client mate : Client} {stage other : Stage} (alike : Alike like around (client, stage) (mate, other)) :
      Alike like around (client.enter (client.firstBackingOff stage.now), stage)
        (mate.enter (mate.firstBackingOff other.now), other) := by
    have now : stage.now = other.now := alike.stage.now
    have options : client.options = mate.options := alike.client.options
    refine alike.enter ?_
    rw [now, Client.firstBackingOff, Client.firstBackingOff, options]
    exact .same (.backingOff ..)
  cases link with
  | none => exact waits reported
  | some link =>
      have slot : ((client.log other.now (mate.readReport error)).count .read).slot = mate.slot.rename like.rename :=
        clients.slot
      have changed := reported.changeSlot (mate.slot.discard link)
      rw [← mate.slot.discard_rename like.injective, ← slot] at changed
      exact waits changed

theorem endRead (alike : Alike like around (client, stage) (mate, other)) (link : Nat) (result : ReadResult) :
    Alike like around (client.endRead stage (like.rename link) result) (mate.endRead other link result) := by
  have now : stage.now = other.now := alike.stage.now
  have noted := alike.note other.now (.read link result)
  unfold Client.endRead
  rw [now]
  cases result with
  | ok frame =>
      have keeps (client : Client) : Client.Keeps client (client.takeFrame other.now frame) :=
        (Client.takeFrame_takes other.now frame).keeps
      exact noted.keep (noted.client.takeFrame other.now frame) (keeps _).number (keeps _).number (keeps _).options
  | error error => exact noted.sufferRead (some link) error

theorem beginRead (alike : Alike like around (client, stage) (mate, other)) :
    Alike like around (client.beginRead stage) (mate.beginRead other) := by
  have now : stage.now = other.now := alike.stage.now
  have clients : client.Like like mate := alike.client
  have held : client.slot.held = mate.slot.held.map like.rename := congrArg Slot.held clients.slot
  unfold Client.beginRead
  rw [clients.cancelled, held, now]
  split
  · exact alike.enter (.same .idle)
  · cases mate.slot.held with
    | none => exact alike.sufferRead none .notConnected
    | some link => exact alike.enter (.same (.reading link other.now))

theorem endSink (alike : Alike like around (client, stage) (mate, other)) (start : Nat) (mark : Option Nat) :
    Alike like around (client.endSink stage.now start mark, stage) (mate.endSink other.now start mark, other) := by
  have now : stage.now = other.now := alike.stage.now
  have clients := alike.client.endSink other.now start mark
  have kept := Client.endSink_kept client other.now start mark
  have kept' := Client.endSink_kept mate other.now start mark
  rw [now]
  exact alike.keep clients kept.1 kept'.1 kept'.2.1

theorem endSend (alike : Alike like around (client, stage) (mate, other)) (mark : Nat) (how : SendEnd) :
    Alike like around (client.endSend stage.now mark how, stage) (mate.endSend other.now mark how, other) := by
  have now : stage.now = other.now := alike.stage.now
  have clients := alike.client.endSend other.now mark how
  have kept := Client.endSend_kept client other.now mark how
  have kept' := Client.endSend_kept mate other.now mark how
  rw [now]
  exact alike.keep clients kept.1 kept'.1 kept'.2.1

theorem of_channel (alike : Alike like around (client, stage) (mate, other)) {channel : Channel}
    (observed : other.channel = some channel) (changed : Channel) :
    Alike like around (client, { stage with channel := some changed }) (mate, { other with channel := some changed }) := by
  refine ⟨alike.client, alike.stage.of_channel (some changed), .inr ?_⟩
  rcases alike.heard with silent | same
  · rw [show other.channel = none from silent] at observed
    cases observed
  · exact same

theorem number_eq (alike : Alike like around (client, stage) (mate, other)) {channel : Channel}
    (observed : other.channel = some channel) : client.number = mate.number := by
  rcases alike.heard with silent | same
  · rw [show other.channel = none from silent] at observed
    cases observed
  · exact same

theorem beginSend (alike : Alike like around (client, stage) (mate, other)) (mark : Nat) :
    Alike like around (client.beginSend stage mark) (mate.beginSend other mark) := by
  have now : stage.now = other.now := alike.stage.now
  have clients : client.Like like mate := alike.client
  have channels : stage.channel = other.channel := alike.stage.channel
  unfold Client.beginSend
  rw [channels]
  cases observed : other.channel with
  | none => exact alike.enter (.same .looping)
  | some channel =>
      simp only [alike.number_eq observed, clients.options, clients.cancelled, now]
      obtain ⟨⟨sending, changed⟩, sent⟩ : ∃ found, channel.beginSend mate.number mark mate.options.confirmationTimeout
        mate.cancelled other.now = found := ⟨_, rfl⟩
      rw [sent]
      have there := alike.of_channel observed changed
      simp only [now] at there
      cases sending with
      | ended how => exact there.endSend mark how
      | inLine deadline => exact there.enter (.same (.sending mark deadline))

theorem send (alike : Alike like around (client, stage) (mate, other)) (mark deadline : Nat) :
    Option.Rel (Alike like around) (client.send? stage mark deadline) (mate.send? other mark deadline) := by
  have now : stage.now = other.now := alike.stage.now
  have clients : client.Like like mate := alike.client
  have channels : stage.channel = other.channel := alike.stage.channel
  unfold Client.send?
  rw [channels]
  cases observed : other.channel with
  | none => exact .some (alike.enter (.same .looping))
  | some channel =>
      simp only [alike.number_eq observed, clients.cancelled, now]
      obtain ⟨⟨sending, changed⟩, resumed⟩ : ∃ found, channel.resumeSend mate.number mark deadline mate.cancelled
        other.now = found := ⟨_, rfl⟩
      rw [resumed]
      have there := alike.of_channel observed changed
      simp only [now] at there
      cases sending with
      | ended how => exact .some (there.endSend mark how)
      | inLine later => exact .none

/-- What a read gives at once is the same on both stages. -/
def ReadsAlike (like : Likeness) (url : String) (around stage other : Stage) (link : Nat) : Prop :=
  Option.Rel (fun here there => here.1 = there.1 ∧ here.2.Like like url around there.2)
    (stage.readLink? (like.rename link)) (other.readLink? link)

theorem readsAlike_of_links (stages : stage.Like like url around other) {link : Nat}
    (reads : ∀ held held', stage.links[like.rename link]? = some held → other.links[link]? = some held' →
      Option.Rel (fun here there => here.1 = there.1 ∧ like.links link here.2 there.2) held.read? held'.read?) :
    ReadsAlike like url around stage other link := by
  have links := stages.links link
  unfold ReadsAlike Stage.readLink?
  generalize found : stage.links[like.rename link]? = here at links
  generalize found' : other.links[link]? = there at links
  cases links with
  | none => exact .none
  | @some held held' same =>
      have both := reads held held' found found'
      simp only [Option.bind_some]
      generalize held.read? = read at both
      generalize held'.read? = read' at both
      cases both with
      | none => exact .none
      | some both =>
          refine .some ⟨both.1, ?_⟩
          rw [Stage.set_eq_changeLink (fun _ => _) found rfl, Stage.set_eq_changeLink (fun _ => _) found' rfl]
          exact stages.change_link link fun _ => both.2

theorem idleDeadline (alike : Alike like around (client, stage) (mate, other)) {since since' : Nat}
    (same : since = since' ∨ like.loose = true) : client.idleDeadline? since = mate.idleDeadline? since' := by
  have clients : client.Like like mate := alike.client
  unfold Client.idleDeadline?
  rw [clients.options]
  rcases same with rfl | loose
  · rfl
  · rw [clients.endless loose]
    rfl

theorem due (alike : Alike like around (client, stage) (mate, other)) : client.due? = mate.due? := by
  have phases : client.phase.Like like mate.phase := alike.client.phase
  unfold Client.due?
  generalize client.phase = here at phases ⊢
  generalize mate.phase = there at phases ⊢
  cases phases with
  | reading loose => exact alike.idleDeadline (.inr loose)
  | same =>
      cases there with
      | reading link since => exact alike.idleDeadline (.inl rfl)
      | _ => rfl

theorem read (alike : Alike like around (client, stage) (mate, other)) {link since since' : Nat}
    (same : since = since' ∨ like.loose = true) (reads : ReadsAlike like mate.url around stage other link) :
    Option.Rel (Alike like around) (client.read? stage (like.rename link) since) (mate.read? other link since') := by
  have now : stage.now = other.now := alike.stage.now
  have options : client.options = mate.options := alike.client.options
  unfold Client.read?
  unfold ReadsAlike at reads
  rw [alike.idleDeadline same, now, options]
  generalize stage.readLink? (like.rename link) = here at reads
  generalize found : other.readLink? link = there at reads
  cases reads with
  | none =>
      cases mate.idleDeadline? since' with
      | none => exact .none
      | some deadline =>
          by_cases late : deadline ≤ other.now
          · simp only [if_pos late]
            exact .some (alike.endRead link _)
          · simp only [if_neg late]
            exact .none
  | @some here there both =>
      obtain ⟨results, stages⟩ := both
      obtain ⟨result, stage'⟩ := here
      obtain ⟨result', other'⟩ := there
      subst results
      have after : Alike like around (client, stage') (mate, other') := by
        obtain ⟨links, rfl⟩ := (Stage.reads_of_readLink found).links
        exact ⟨alike.client, stages, alike.heard⟩
      exact .some (after.endRead link result)

/-- Clients that are alike make moves that are alike, if a read gives both of them the same. -/
theorem proceed (alike : Alike like around (client, stage) (mate, other))
    (reads : ∀ link since, mate.phase = .reading link since → ReadsAlike like mate.url around stage other link) :
    Option.Rel (Alike like around) (client.proceed? stage) (mate.proceed? other) := by
  have now : stage.now = other.now := alike.stage.now
  have clients : client.Like like mate := alike.client
  have phases := clients.phase
  unfold Client.proceed?
  rw [clients.cancelled, clients.shouldStop, now]
  generalize client.phase = here at phases
  generalize mate.phase = there at phases reads
  cases phases with
  | @reading link since since' loose => exact alike.read (.inr loose) (reads link since' rfl)
  | same =>
      cases there with
      | idle => exact .none
      | connecting episode => exact .some (alike.dial episode)
      | hanging episode =>
          simp only [Phase.rename]
          split
          · exact .some (alike.afterDial episode)
          · exact .none
      | dialling episode ends stops due =>
          simp only [Phase.rename]
          split
          · exact .some (alike.afterDial episode)
          split
          · exact .some (alike.endDial episode ends stops)
          · exact .none
      | retrying due =>
          simp only [Phase.rename]
          split
          · exact .some (alike.enter (.same .idle))
          split
          · exact .some (alike.enter (.same (.connecting .startUp)))
          · exact .none
      | backingOff wait due =>
          simp only [Phase.rename]
          split
          · exact .some (alike.enter (.same .looping))
          split
          · refine .some (alike.enter ?_)
            split
            · exact .same .looping
            · exact .same (.connecting (.reconnect wait))
          · exact .none
      | ready => exact .some (alike.enter (.same .looping))
      | looping => exact .some alike.beginRead
      | reading link since => exact alike.read (.inl rfl) (reads link since rfl)
      | sinking start mark due =>
          simp only [Phase.rename]
          split
          · exact .some (now ▸ alike.endSink start mark)
          · exact .none
      | confirming mark => exact .some (alike.beginSend mark)
      | sending mark deadline => exact alike.send mark deadline

theorem move (alike : Alike like around (client, stage) (mate, other))
    (reads : ∀ link since, mate.phase = .reading link since → ReadsAlike like mate.url around stage other link) :
    Option.Rel (Alike like around) (client.move? stage) (mate.move? other) := by
  have proceeds := alike.proceed reads
  unfold Client.move?
  generalize client.proceed? stage = here at proceeds
  generalize mate.proceed? other = there at proceeds
  cases proceeds with
  | none => exact .none
  | some both =>
      have clients := both.client
      have stages := both.stage
      exact .some ⟨{ clients with }, { stages with }, both.heard⟩

end Alike

end SequencedFeed
