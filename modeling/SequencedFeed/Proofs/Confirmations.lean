import SequencedFeed.Envelope.Text
import SequencedFeed.Proofs.Confirming
set_option autoImplicit false

/-!
# The confirmations of a running client

At every instant the task of a client stands somewhere in the handling of the frame that it read last, and all
frames before it have been handled. The main statement is `confirmations_follow_frames`.
-/

namespace SequencedFeed

/-- Where a task stands with the frame it read last, if it is in some phase: in the sink call, before or in the
sending of the mark, or past all of it. A client that was cancelled may have given the sending up, and then it
reads no more. -/
inductive Reading.Stands (reading : Reading) (client : Client) (stage : Stage) : Phase → Prop
  | calling {call : SinkCall} (calls : reading.call? = some call)
      (effects : reading.effects = [(reading.time, .called call)])
      (ahead : stage.now ≤ expiry reading.time client.sink.delay) :
      Stands reading client stage (.sinking call.start reading.mark? (expiry reading.time client.sink.delay))
  | toSend {mark : Nat} (marked : reading.mark? = some mark)
      (effects : reading.effects = reading.sinkEffects client.sink)
      (now : reading.sendsAt client.sink = stage.now) : Stands reading client stage (.confirming mark)
  | inLine {mark : Nat} (marked : reading.mark? = some mark)
      (effects : reading.effects = reading.sinkEffects client.sink)
      (begun : reading.sendsAt client.sink ≤ stage.now)
      (ahead : stage.now ≤ reading.sendsAt client.sink + client.options.confirmationTimeout.millis) :
      Stands reading client stage
        (.sending mark (reading.sendsAt client.sink + client.options.confirmationTimeout.millis))
  | finished {phase : Phase} (elsewhere : phase.isHandling = false)
      (finished : reading.Finished client.options client.sink stage.receives) : Stands reading client stage phase
  | abandoned {phase : Phase} {mark : Nat} (between : phase = .looping ∨ phase = .idle)
      (marked : reading.mark? = some mark) (effects : reading.effects = reading.sinkEffects client.sink)
      (cancelled : client.cancelled = true) : Stands reading client stage phase

namespace Client

variable {client client' : Client} {stage stage' : Stage} {reading : Reading}

/-- What a later state of a client and its stage shares with an earlier one while the task stays where it is. -/
structure Stays (client : Client) (stage : Stage) (client' : Client) (stage' : Stage) : Prop where
  options : client'.options = client.options
  sink : client'.sink = client.sink
  started : client'.started = client.started
  cancelled : client.cancelled = true → client'.cancelled = true
  receives : stage'.receives = true → stage.receives = true
  history : FramesAside client.history client'.history
  counted : client'.metrics.confirmationErrors = client.metrics.confirmationErrors

theorem Stays.stands (stays : client.Stays stage client' stage') (now : stage'.now = stage.now) {phase : Phase}
    (stands : reading.Stands client stage phase) : reading.Stands client' stage' phase := by
  cases stands with
  | calling calls effects ahead =>
      rw [← stays.sink] at ahead ⊢
      exact .calling calls effects (now ▸ ahead)
  | toSend marked effects due => exact .toSend marked (stays.sink ▸ effects) (stays.sink ▸ now ▸ due)
  | inLine marked effects begun ahead =>
      rw [← stays.sink, ← stays.options] at ahead ⊢
      rw [← stays.sink] at begun effects
      exact .inLine marked effects (now ▸ begun) (now ▸ ahead)
  | finished elsewhere finished =>
      refine .finished elsewhere ?_
      rw [stays.options, stays.sink]
      exact finished.mono stays.receives
  | abandoned between marked effects cancelled =>
      exact .abandoned between marked (stays.sink ▸ effects) (stays.cancelled cancelled)

/-- The frames that a client has read: all but the last have been handled, and the task stands somewhere in the
handling of the last one. -/
inductive Standing (client : Client) (stage : Stage) : List Reading → Prop
  | none (elsewhere : client.phase.isHandling = false) : Standing client stage []
  | some {reading : Reading} {earlier : List Reading} (stands : reading.Stands client stage client.phase)
      (finished : ∀ other ∈ earlier, other.Finished client.options client.sink stage.receives) :
      Standing client stage (reading :: earlier)

theorem Stays.finished (stays : client.Stays stage client' stage')
    (finished : reading.Finished client.options client.sink stage.receives) :
    reading.Finished client'.options client'.sink stage'.receives := by
  rw [stays.options, stays.sink]
  exact finished.mono stays.receives

/-- The book of a client: its history falls into readings, and what was dropped has been reported and counted. -/
structure Handles (client : Client) (stage : Stage) : Prop where
  booked : Booked client.options.confirmationTimeout client.history
  counted : client.metrics.confirmationErrors = (seen Occurrence.drop? client.history).length
  standing : client.Standing stage (readingsOf client.history)
  unstarted : client.started = false → readingsOf client.history = []

theorem Stays.handles (stays : client.Stays stage client' stage') (handles : client.Handles stage)
    (standing : client'.Standing stage' (readingsOf client.history)) : client'.Handles stage' := by
  obtain ⟨readings, -⟩ := stays.history.readings_eq
  refine ⟨?_, ?_, ?_, fun unstarted => ?_⟩
  · rw [stays.options]
    exact handles.booked.aside stays.history
  · rw [stays.counted, stays.history.deliveries_eq.2]
    exact handles.counted
  · rw [readings]
    exact standing
  · rw [readings]
    exact handles.unstarted (stays.started.symm.trans unstarted)

theorem Handles.stay (handles : client.Handles stage) (stays : client.Stays stage client' stage')
    (now : stage'.now = stage.now) (phase : client'.phase = client.phase) : client'.Handles stage' := by
  have standing := handles.standing
  refine stays.handles handles ?_
  generalize readingsOf client.history = readings at standing
  cases standing with
  | none elsewhere => exact .none (phase ▸ elsewhere)
  | some stands finished =>
      refine .some ?_ fun other member => stays.finished (finished other member)
      rw [phase]
      exact stays.stands now stands

theorem Handles.aside (handles : client.Handles stage) (aside : client.Aside stage client' stage')
    (keeps : client.Keeps client') : client'.Handles stage' := by
  have stays : client.Stays stage client' stage' :=
    ⟨keeps.options, keeps.sink, keeps.started, keeps.cancelled, (Stage.receives_eq aside.channel).symm.trans,
      aside.history, aside.counted⟩
  have elsewhere := aside.elsewhere
  have standing := handles.standing
  refine stays.handles handles ?_
  generalize readingsOf client.history = readings at standing
  cases standing with
  | none => exact .none aside.stays
  | some stands finished =>
      refine .some ?_ fun other member => stays.finished (finished other member)
      generalize here : client.phase = phase at stands elsewhere
      cases stands with
      | calling | toSend | inLine => cases elsewhere
      | finished _ finished => exact .finished aside.stays (stays.finished finished)
      | abandoned between marked effects cancelled =>
          have looping : client.phase = .looping := by
            rcases between with looping | idle
            · exact here.trans looping
            · exact absurd (here.trans idle) aside.task
          rcases aside.leaves with idle | going | other
          · exact .abandoned (.inr idle) marked (stays.sink ▸ effects) (keeps.cancelled cancelled)
          · exact absurd cancelled (ne_true_of_eq_false going)
          · exact absurd looping other

/-! ### Handling a frame -/

private theorem supported_of_sinkCall {envelope : Envelope Json} {call : SinkCall}
    (called : envelope.sinkCall? = some call) : envelope.isSupported = true := by
  unfold Envelope.sinkCall? at called
  split at called
  · cases called
  · split at called
    · exact decide_eq_true ‹_›
    · cases called

private theorem TakesFrame.standing {link : Nat} {frame : List UInt8}
    (takes : (client.note stage.now (.read link (.ok frame))).TakesFrame stage.now frame client')
    (booked : Booked client.options.confirmationTimeout client.history) :
    ∃ reading, readingsOf client'.history = reading :: readingsOf client.history ∧
      reading.Stands client' stage client'.phase ∧
      Booked client.options.confirmationTimeout client'.history ∧
      client'.metrics.confirmationErrors = client.metrics.confirmationErrors ∧
      SequencedFeed.seen Occurrence.drop? client'.history = SequencedFeed.seen Occurrence.drop? client.history := by
  have read := booked.read stage.now link frame
  have undropped : SequencedFeed.seen Occurrence.drop? ((stage.now, .read link (.ok frame)) :: client.history) =
      SequencedFeed.seen Occurrence.drop? client.history := seen_skip _ rfl _ _
  have same : FramesAside ((stage.now, .read link (.ok frame)) :: client.history)
      ((stage.now, .read link (.ok frame)) :: client.history) := .of_eq rfl
  have plain {later : List (Nat × Occurrence)}
      (aside : FramesAside ((stage.now, .read link (.ok frame)) :: client.history) later) :
      readingsOf later = ⟨stage.now, frame, []⟩ :: readingsOf client.history ∧
        Booked client.options.confirmationTimeout later ∧
        SequencedFeed.seen Occurrence.drop? later = SequencedFeed.seen Occurrence.drop? client.history :=
    ⟨aside.readings_eq.1, read.aside aside, aside.deliveries_eq.2.trans undropped⟩
  have settled (uncalled : SinkCall.ofFrame? frame = none) (unmarked : markOf? frame = none) :
      Reading.Finished client.options client.sink stage.receives ⟨stage.now, frame, []⟩ := by
    refine .unmarked unmarked ?_
    rw [Reading.sinkEffects, Reading.call?, uncalled]
  cases takes with
  | blank empty =>
      subst empty
      obtain ⟨readings, booked, drops⟩ := plain same
      exact ⟨_, readings, .finished rfl (settled rfl rfl), booked, rfl, drops⟩
  | @undecodable error filled refused =>
      have report : (Occurrence.log (.undecodable client.url frame (.decode error))).isBeside := ⟨rfl, rfl⟩
      obtain ⟨readings, booked, drops⟩ := plain (same.cons stage.now report)
      exact ⟨_, readings, .finished rfl (settled (ofFrame?_of_refused refused) (markOf?_of_refused refused)), booked, rfl,
        drops⟩
  | @pass envelope phase filled decoded uncalled next =>
      obtain ⟨readings, booked, drops⟩ := plain (same.cons stage.now (Occurrence.isBeside_summary envelope))
      have uncalled := (ofFrame?_of_decoded filled decoded).trans uncalled
      have marks := markOf?_of_decoded filled decoded
      refine ⟨_, readings, ?_, booked, rfl, drops⟩
      rw [enter_phase, next]
      cases marked : envelope.mark? with
      | none => exact .finished rfl (settled uncalled (marks.trans marked))
      | some mark =>
          refine .toSend (marks.trans marked) ?_ ?_
          · rw [Reading.sinkEffects, Reading.call?, uncalled]
          · rw [Reading.sendsAt, Reading.call?, uncalled]
  | @apply envelope call filled decoded called =>
      obtain ⟨readings, booked, drops⟩ := plain (same.cons stage.now (Occurrence.isBeside_summary envelope))
      have called' := (ofFrame?_of_decoded filled decoded).trans called
      have marks : envelope.confirmed = markOf? frame := by
        rw [markOf?_of_decoded filled decoded, Envelope.mark?, if_pos (supported_of_sinkCall called)]
      have effects : (Occurrence.applied call).effect? = some (.called call) := rfl
      obtain ⟨now, booked⟩ := booked.effect readings effects rfl stage.now
      refine ⟨_, now, ?_, booked, rfl, (seen_skip _ rfl _ _).trans drops⟩
      rw [enter_phase, marks]
      exact .calling called' rfl (Nat.le_add_right ..)

private theorem Standing.current {readings : List Reading} (standing : client.Standing stage readings)
    (handling : client.phase.isHandling = true) :
    ∃ reading earlier, readings = reading :: earlier ∧ reading.Stands client stage client.phase ∧
      ∀ other ∈ earlier, other.Finished client.options client.sink stage.receives := by
  cases standing with
  | none elsewhere => exact absurd handling (ne_true_of_eq_false elsewhere)
  | some stands finished => exact ⟨_, _, rfl, stands, finished⟩

private theorem Standing.handled {readings : List Reading} (standing : client.Standing stage readings)
    (reads : client.phase.isReading = true) :
    ∀ other ∈ readings, other.Finished client.options client.sink stage.receives := by
  cases standing with
  | none => exact List.forall_mem_nil _
  | some stands finished =>
      refine List.forall_mem_cons.mpr ⟨?_, finished⟩
      generalize client.phase = phase at stands reads
      cases stands with
      | calling | toSend | inLine => cases reads
      | finished _ finished => exact finished
      | abandoned between =>
          rcases between with rfl | rfl
          · cases reads
          · cases reads

private theorem Handles.takeFrame (handles : client.Handles stage) (consistent : client.Consistent stage)
    {link since : Nat} {frame : List UInt8}
    (here : client.phase = .reading link since)
    (takes : TakesFrame (client.note stage.now (.read link (.ok frame))) stage.now frame client')
    (now : stage'.now = stage.now) (channel : stage'.channel = stage.channel) : client'.Handles stage' := by
  obtain ⟨reading, readings, stands, booked, counted, drops⟩ := takes.standing handles.booked
  have options : client'.options = client.options := takes.settled.options
  have sink : client'.sink = client.sink := takes.keeps.sink
  have receives := Stage.receives_eq channel
  have around : client'.Stays stage client' stage' :=
    ⟨rfl, rfl, rfl, id, receives.symm.trans, .of_eq rfl, rfl⟩
  refine ⟨options ▸ booked, ?_, ?_, fun unstarted => ?_⟩
  · rw [counted, drops]
    exact handles.counted
  · rw [readings]
    refine .some (around.stands now stands) ?_
    rw [options, sink, receives]
    exact handles.standing.handled (by rw [here]; rfl)
  · have started := consistent.phase.started (by simp [here])
    exact absurd (takes.settled.started.trans started) (ne_true_of_eq_false unstarted)

private theorem Handles.endSink (handles : client.Handles stage) (consistent : client.Consistent stage)
    {start due : Nat} {mark : Option Nat} (here : client.phase = .sinking start mark due) (late : due ≤ stage.now) :
    (client.endSink stage.now start mark).Handles stage := by
  obtain ⟨reading, earlier, readings, stands, finished⟩ := handles.standing.current (by rw [here]; rfl)
  obtain ⟨-, options, sink, started, -⟩ := endSink_kept client stage.now start mark
  have returned : (Occurrence.sinkReturned client.sink.fails).effect? = some (.returned client.sink.fails) := rfl
  obtain ⟨now, booked⟩ := handles.booked.effect readings returned rfl stage.now
  have aside : FramesAside ((stage.now, .sinkReturned client.sink.fails) :: client.history)
      (client.endSink stage.now start mark).history := by
    have same : FramesAside ((stage.now, .sinkReturned client.sink.fails) :: client.history)
      ((stage.now, .sinkReturned client.sink.fails) :: client.history) := .of_eq rfl
    rw [endSink_history]
    split
    · exact same.cons stage.now ⟨rfl, rfl⟩
    · exact same
  have counted : (client.endSink stage.now start mark).metrics.confirmationErrors =
      client.metrics.confirmationErrors := by
    rw [endSink_metrics]
    split <;> rfl
  have there := endSink_phase client stage.now start mark
  generalize client.endSink stage.now start mark = next at *
  refine ⟨?_, ?_, ?_, fun unstarted => ?_⟩
  · rw [options]
    exact booked.aside aside
  · rw [counted, aside.deliveries_eq.2, seen_skip _ rfl]
    exact handles.counted
  · rw [aside.readings_eq.1, now]
    rw [here] at stands
    refine .some ?_ (by rw [options, sink]; exact finished)
    rw [there]
    cases stands with
    | finished elsewhere => cases elsewhere
    | abandoned between => rcases between with looping | idle <;> contradiction
    | @calling call calls effects ahead =>
        have onTime : stage.now = expiry reading.time client.sink.delay := Nat.le_antisymm ahead late
        have done : (reading.add stage.now (.returned client.sink.fails)).effects =
            (reading.add stage.now (.returned client.sink.fails)).sinkEffects client.sink := by
          have calls : (reading.add stage.now (.returned client.sink.fails)).call? = some call := calls
          rw [Reading.sinkEffects, calls, Reading.add, effects, onTime]
          rfl
        cases marked : reading.mark? with
        | none => exact .finished rfl (.unmarked marked (by rw [sink]; exact done))
        | some mark =>
            refine .toSend marked (by rw [sink]; exact done) ?_
            have calls : (reading.add stage.now (.returned client.sink.fails)).call? = some call := calls
            rw [sink, Reading.sendsAt, calls]
            exact onTime.symm
  · have task := consistent.phase.started (by simp [here])
    exact absurd (started.trans task) (ne_true_of_eq_false unstarted)

private theorem Handles.getInLine (handles : client.Handles stage) {mark deadline : Nat} {channel channel' : Channel}
    (here : client.phase = .confirming mark) (observed : stage.channel = some channel)
    (sent : channel.beginSend client.number mark client.options.confirmationTimeout client.cancelled stage.now =
      (.inLine deadline, channel')) :
    (client.enter (.sending mark deadline)).Handles { stage with channel := some channel' } := by
  obtain ⟨reading, earlier, readings, stands, finished⟩ := handles.standing.current (by rw [here]; rfl)
  rw [here] at stands
  refine ⟨handles.booked, handles.counted, ?_, handles.unstarted⟩
  change Standing _ _ (readingsOf client.history)
  cases Channel.begins_of_beginSend sent with
  | wait going isOpen full patient =>
      have receives : Stage.receives { stage with channel := some (channel.enqueue client.number) } = stage.receives := by
        rw [Stage.receives, Stage.receives, observed]
        rfl
      rw [readings]
      refine .some ?_ (by rw [receives]; exact finished)
      cases stands with
      | finished elsewhere => cases elsewhere
      | abandoned between => rcases between with looping | idle <;> contradiction
      | toSend marked effects now =>
          have stands : reading.Stands (client.enter (.sending mark
              (reading.sendsAt client.sink + client.options.confirmationTimeout.millis)))
              { stage with channel := some (channel.enqueue client.number) }
              (.sending mark (reading.sendsAt client.sink + client.options.confirmationTimeout.millis)) :=
            .inLine marked effects (Nat.le_of_eq now) (now ▸ Nat.le_add_right ..)
          rw [now] at stands
          exact stands

private theorem endSend_effect (client : Client) (now mark : Nat) {how : SendEnd} (settled : how ≠ .abandoned) :
    ∃ occurrence, (client.endSend now mark how).history = (now, occurrence) :: client.history ∧
      occurrence.effect? = some (.ended mark how) ∧
      occurrence.drop? = how.report? mark client.options.confirmationTimeout ∧
      (client.endSend now mark how).metrics.confirmationErrors =
        client.metrics.confirmationErrors + occurrence.drop?.toList.length := by
  cases how with
  | delivered => exact ⟨.delivered mark, rfl, rfl, rfl, rfl⟩
  | timedOut => exact ⟨.log (.channelFull mark client.options.confirmationTimeout), rfl, rfl, rfl, rfl⟩
  | closed => exact ⟨.log (.channelClosed mark), rfl, rfl, rfl, rfl⟩
  | abandoned => exact absurd rfl settled

/-- Where a sending ends, the mark of the latest frame has been due since its sink call returned, and its time is not
over yet, unless that is what ends it. -/
private theorem EndsSend.inTime {channel channel' : Channel} {mark : Nat} {how : SendEnd}
    (ends : EndsSend client stage mark how channel channel') (stands : reading.Stands client stage client.phase) :
    reading.mark? = some mark ∧ reading.effects = reading.sinkEffects client.sink ∧
      reading.sendsAt client.sink ≤ stage.now ∧
      stage.now ≤ reading.sendsAt client.sink + client.options.confirmationTimeout.millis ∧
      (how = .timedOut →
        reading.sendsAt client.sink + client.options.confirmationTimeout.millis ≤ stage.now) := by
  cases ends with
  | atOnce here sent =>
      rw [here] at stands
      cases stands with
      | finished elsewhere => cases elsewhere
      | abandoned between => rcases between with looping | idle <;> contradiction
      | toSend marked effects now =>
          refine ⟨marked, effects, Nat.le_of_eq now, now ▸ Nat.le_add_right .., fun timedOut => ?_⟩
          subst timedOut
          cases Channel.begins_of_beginSend sent with
          | expire going isOpen full spent =>
              rw [spent]
              exact Nat.le_of_eq now
  | inLine here sent =>
      rw [here] at stands
      cases stands with
      | finished elsewhere => cases elsewhere
      | abandoned between => rcases between with looping | idle <;> contradiction
      | inLine marked effects begun ahead =>
          refine ⟨marked, effects, begun, ahead, fun timedOut => ?_⟩
          subst timedOut
          cases Channel.resumes_of_resumeSend sent with
          | expire going ungranted isOpen late => exact late

private theorem Handles.endSend (handles : client.Handles stage) (consistent : client.Consistent stage)
    {channel channel' : Channel} (shares : client.Shares channel) {mark : Nat} {how : SendEnd}
    (observed : stage.channel = some channel) (ends : EndsSend client stage mark how channel channel') :
    (client.endSend stage.now mark how).Handles { stage with channel := some channel' } := by
  obtain ⟨-, isOpen, -, -, timedOut, closed, abandoned⟩ := shares.endSend ends
  have handling : client.phase.isHandling = true := by
    cases ends with
    | atOnce here | inLine here =>
        rw [here]
        rfl
  obtain ⟨reading, earlier, readings, stands, finished⟩ := handles.standing.current handling
  obtain ⟨-, options, sink, started, cancelled, -⟩ := endSend_kept client stage.now mark how
  have receives : Stage.receives { stage with channel := some channel' } = stage.receives := by
    rw [Stage.receives, Stage.receives, observed]
    exact isOpen
  have there : channel.isOpen = stage.receives := by rw [Stage.receives, observed]
  have unstarted {claim : Prop} (unstarted : (client.endSend stage.now mark how).started = false) : claim := by
    have task : client.phase ≠ .idle := by
      intro idle
      rw [idle] at handling
      cases handling
    exact absurd (started.trans (consistent.phase.started task)) (ne_true_of_eq_false unstarted)
  obtain ⟨marked, effects, begun, ahead, late⟩ := ends.inTime stands
  by_cases settled : how = .abandoned
  · subst settled
    refine ⟨?_, ?_, ?_, unstarted⟩
    · rw [options]
      exact handles.booked
    · exact handles.counted
    · change Standing _ _ (readingsOf client.history)
      rw [readings]
      refine .some ?_ (by rw [options, sink, receives]; exact finished)
      refine .abandoned (.inl (endSend_phase ..)) marked ?_ (cancelled.trans (abandoned rfl))
      rw [sink]
      exact effects
  · obtain ⟨occurrence, history, effect, report, counted⟩ := endSend_effect client stage.now mark settled
    obtain ⟨now, booked⟩ := handles.booked.effect readings effect report stage.now
    refine ⟨?_, ?_, ?_, unstarted⟩
    · rw [options, history]
      exact booked
    · rw [counted, handles.counted, history, seen_cons, List.length_append]
    · rw [history, now]
      refine .some (.finished ?_ ?_) ?_
      · rw [endSend_phase]
        rfl
      · rw [options, sink, receives]
        have done : (reading.add stage.now (.ended mark how)).effects =
            (reading.add stage.now (.ended mark how)).sinkEffects client.sink ++ [(stage.now, .ended mark how)] := by
          rw [Reading.add, effects]
          rfl
        exact .marked marked done settled begun ahead (fun ends => Nat.le_antisymm ahead (late ends))
          fun ends => there ▸ closed ends
      · rw [options, sink, receives]
        exact finished

/-! ### The channel and the book together -/

/-- A client with a channel of some capacity: what was received of its marks and what is still in the channel are
the marks that were put into it, as long as there is a receiver. -/
structure Confirms (capacity : Nat) (received : List Nat) (client : Client) (stage : Stage) : Prop where
  shared : ∃ channel, stage.channel = some channel ∧ channel.capacity = capacity ∧ client.Shares channel ∧
    (channel.isOpen = true → received ++ channel.queue = client.deliveries)
  handles : client.Handles stage

variable {capacity : Nat} {received : List Nat}

private theorem TakesFrame.unsending {now : Nat} {frame : List UInt8} (takes : client.TakesFrame now frame client') :
    client'.phase.isSending = false := by
  cases takes with
  | @pass envelope phase filled decoded uncalled next =>
      rw [enter_phase, next]
      cases envelope.mark? <;> rfl
  | blank | undecodable | apply => rfl

private theorem TakesFrame.drops {now : Nat} {frame : List UInt8} (takes : client.TakesFrame now frame client') :
    SequencedFeed.seen Occurrence.drop? client'.history = SequencedFeed.seen Occurrence.drop? client.history := by
  have summed (envelope : Envelope Json) := Occurrence.undropped_of_beside (Occurrence.isBeside_summary envelope)
  cases takes with
  | blank => rfl
  | undecodable => exact seen_skip _ rfl _ _
  | @pass envelope => exact seen_skip _ (summed envelope) _ _
  | @apply envelope => exact (seen_skip _ rfl _ _).trans (seen_skip _ (summed envelope) _ _)

/-- What a move does to the channel: it lets the client share it, and the marks put into it are new in the
history. A mark that is reported as dropped for want of room finds the channel full. -/
structure SharesOn (client : Client) (channel : Channel) (client' : Client) (channel' : Channel) : Prop where
  shares : client'.Shares channel'
  isOpen : channel'.isOpen = channel.isOpen
  size : channel'.capacity = channel.capacity
  flow : ∃ marks, channel'.queue = channel.queue ++ marks ∧ client'.deliveries = client.deliveries ++ marks
  full : ∀ mark timeout,
    seen Occurrence.drop? client'.history = seen Occurrence.drop? client.history ++ [.channelFull mark timeout] →
      channel.isOpen = true ∧ channel.queue.length = channel.capacity

private theorem sharesOn_quiet {channel : Channel} (shares : client.Shares channel)
    (number : client'.number = client.number) (before : client.phase.isSending = false)
    (after : client'.phase.isSending = false) (deliveries : client'.deliveries = client.deliveries)
    (drops : seen Occurrence.drop? client'.history = seen Occurrence.drop? client.history) :
    client.SharesOn channel client' channel where
  shares := shares.aside number (after.trans before.symm)
  isOpen := rfl
  size := rfl
  flow := ⟨[], (List.append_nil _).symm, deliveries.trans (List.append_nil _).symm⟩
  full mark timeout dropped := by
    have same := List.self_eq_append_right.mp (drops.symm.trans dropped)
    cases same

theorem Moves.sharesOn (moves : client.Moves stage client' stage') {channel : Channel}
    (observed : stage.channel = some channel) (shares : client.Shares channel) :
    ∃ channel', stage'.channel = some channel' ∧ client.SharesOn channel client' channel' := by
  have number := moves.keeps.number
  have skips : SkipsLog Occurrence.delivered? := fun _ => rfl
  rcases moves.aside_or (by rw [observed]; exact Option.some_ne_none _) with aside | handlesOn
  · exact ⟨channel, aside.channel.trans observed,
      sharesOn_quiet shares number (Phase.unsending_of_unhandling aside.elsewhere)
        (Phase.unsending_of_unhandling aside.stays) aside.history.deliveries_eq.1 aside.history.deliveries_eq.2⟩
  · cases handlesOn with
    | @takeFrame link since frame _ _ here reads takes =>
        obtain ⟨links, rfl⟩ := reads.links
        refine ⟨channel, observed, sharesOn_quiet shares number (by rw [here]; rfl) takes.unsending
          ((takes.seen skips).trans ?_) (takes.drops.trans (seen_skip _ rfl _ _))⟩
        rw [note_history, seen_skip _ rfl]
        cases SinkCall.ofFrame? frame <;> exact List.append_nil _
    | @endSink start due mark here late =>
        refine ⟨channel, observed, sharesOn_quiet shares number (by rw [here]; rfl) ?_
          ((seen_endSink skips ..).trans (List.append_nil _)) ?_⟩
        · rw [endSink_phase]
          cases mark <;> rfl
        · rw [endSink_history]
          split
          · exact (seen_skip _ rfl _ _).trans (seen_skip _ rfl _ _)
          · exact seen_skip _ rfl _ _
    | @getInLine mark deadline other channel' here present sent =>
        obtain rfl := Option.some.inj (observed.symm.trans present)
        have shares' := shares.getInLine here sent
        cases Channel.begins_of_beginSend sent with
        | wait going isOpen full patient =>
            refine ⟨_, rfl, shares', rfl, rfl, ⟨[], (List.append_nil _).symm, (List.append_nil _).symm⟩, ?_⟩
            intro mark timeout dropped
            cases List.self_eq_append_right.mp dropped
    | @endSend mark how other channel' present ends =>
        obtain rfl := Option.some.inj (observed.symm.trans present)
        obtain ⟨shares', isOpen, same, queue, timedOut, -⟩ := shares.endSend ends
        refine ⟨channel', rfl, shares', isOpen, same, ⟨_, queue, (seen_endSend skips ..).trans ?_⟩, ?_⟩
        · rfl
        · intro mark' timeout dropped
          refine timedOut ?_
          cases how with
          | timedOut => rfl
          | delivered | abandoned => cases List.self_eq_append_right.mp dropped
          | closed =>
              have reported := seen_cons Occurrence.drop? stage.now (.log (.channelClosed mark)) client.history
              cases List.append_cancel_left (reported.symm.trans dropped)

theorem Confirms.moves (confirms : client.Confirms capacity received stage) (consistent : client.Consistent stage)
    (moves : client.Moves stage client' stage') :
    client'.Confirms capacity received stage' ∧ stage'.receives = stage.receives := by
  obtain ⟨⟨channel, observed, size, shares, flow⟩, handles⟩ := confirms
  have keeps := moves.keeps
  obtain ⟨channel', observed', on⟩ := moves.sharesOn observed shares
  have receives : stage'.receives = stage.receives := by
    rw [Stage.receives, Stage.receives, observed, observed']
    exact on.isOpen
  obtain ⟨marks, queue, deliveries⟩ := on.flow
  refine ⟨⟨⟨channel', observed', on.size.trans size, on.shares, fun isOpen => ?_⟩, ?_⟩, receives⟩
  · rw [queue, ← List.append_assoc, flow (on.isOpen.symm.trans isOpen), deliveries]
  · rcases moves.aside_or (by rw [observed]; exact Option.some_ne_none _) with aside | handlesOn
    · exact handles.aside aside keeps
    · cases handlesOn with
      | takeFrame here reads takes =>
          obtain ⟨links, rfl⟩ := reads.links
          exact handles.takeFrame consistent here takes rfl rfl
      | endSink here late => exact handles.endSink consistent here late
      | getInLine here present sent => exact handles.getInLine here present sent
      | endSend present ends =>
          obtain rfl := Option.some.inj (observed.symm.trans present)
          exact handles.endSend consistent shares observed ends

theorem Confirms.stay (confirms : client.Confirms capacity received stage)
    (stays : client.Stays stage client' stage') (now : stage'.now = stage.now) (phase : client'.phase = client.phase)
    (number : client'.number = client.number) (channel : stage'.channel = stage.channel) :
    client'.Confirms capacity received stage' := by
  obtain ⟨⟨here, observed, size, shares, flow⟩, handles⟩ := confirms
  refine ⟨⟨here, channel.trans observed, size, shares.aside number (congrArg Phase.isSending phase), ?_⟩,
    handles.stay stays now phase⟩
  rw [deliveries, stays.history.deliveries_eq.1]
  exact flow

theorem Confirms.acts (confirms : client.Confirms capacity received stage) (consistent : client.Consistent stage)
    (acts : client.Acts stage client' stage') :
    client'.Confirms capacity received stage' ∧ stage'.receives = stage.receives := by
  have same : FramesAside client.history client.history := .of_eq rfl
  cases acts with
  | start starts =>
      cases starts with
      | @report event barred known =>
          have beside : (Occurrence.log event).isBeside := by rcases known with rfl | rfl <;> exact ⟨rfl, rfl⟩
          exact ⟨confirms.stay ⟨rfl, rfl, rfl, id, id, same.cons stage.now beside, rfl⟩ rfl rfl rfl rfl, rfl⟩
      | first enabled unstarted =>
          obtain ⟨⟨channel, observed, size, shares, flow⟩, handles⟩ := confirms
          have idle : client.phase = .idle := Decidable.of_not_not fun task =>
            ne_true_of_eq_false unstarted (consistent.phase.started task)
          have unread := handles.unstarted unstarted
          refine ⟨⟨⟨channel, observed, size, shares.aside rfl (by rw [idle]; rfl), flow⟩, handles.booked, handles.counted,
            ?_, nofun⟩, rfl⟩
          change Standing _ _ (readingsOf client.history)
          rw [unread]
          exact .none rfl
  | cancel =>
      exact ⟨confirms.stay ⟨rfl, rfl, rfl, fun before => by rw [cancel, before]; rfl, id, same, rfl⟩ rfl rfl rfl rfl, rfl⟩
  | stop =>
      rw [stop_eq]
      obtain ⟨links, rest⟩ := closeHeld_links stage client.slot.held
      rw [rest]
      refine ⟨confirms.stay ⟨rfl, rfl, rfl, fun before => by rw [before]; rfl, id, same.cons _ ⟨rfl, rfl⟩, ?_⟩ rfl rfl rfl rfl,
        rfl⟩
      cases client.slot.held <;> rfl
  | move moves =>
      obtain ⟨next, around, moved, rfl, rfl⟩ := moves_of_move moves
      obtain ⟨confirms, receives⟩ := confirms.moves consistent moved
      exact ⟨confirms.stay ⟨rfl, rfl, rfl, id, id, .of_eq rfl, rfl⟩ rfl rfl rfl rfl, receives⟩

theorem Confirms.wait (confirms : client.Confirms capacity received stage) (rest : client.atRest stage) {instant : Nat}
    (passes : stage.now ≤ instant) (early : ∀ due, client.due? = some due → instant ≤ due) :
    client.Confirms capacity received { stage with now := instant } := by
  obtain ⟨shared, booked, counted, standing, unstarted⟩ := confirms
  refine ⟨shared, booked, counted, ?_, unstarted⟩
  generalize readingsOf client.history = readings at standing
  cases standing with
  | none elsewhere => exact .none elsewhere
  | some stands finished =>
      refine .some ?_ finished
      generalize here : client.phase = phase at stands
      cases stands with
      | calling calls effects ahead => exact .calling calls effects (early _ (by rw [due?, here]))
      | toSend =>
          rw [atRest_iff, proceed?, here] at rest
          cases rest
      | inLine marked effects begun ahead =>
          exact .inLine marked effects (Nat.le_trans begun passes) (early _ (by rw [due?, here]))
      | finished elsewhere finished => exact .finished elsewhere finished
      | abandoned between marked effects cancelled => exact .abandoned between marked effects cancelled

theorem confirms_lasts (capacity : Nat) : Client.Lasts (Client.Confirms capacity) where
  acts consistent confirms acts := (confirms.acts consistent acts).1
  around confirms _ now channel :=
    confirms.stay ⟨rfl, rfl, rfl, id, (Stage.receives_eq channel).symm.trans, .of_eq rfl, rfl⟩ now rfl rfl channel
  receive := by
    intro received client stage most confirms
    obtain ⟨⟨channel, observed, size, shares, flow⟩, handles⟩ := confirms
    have taken : stage.receive most =
        ((channel.receive most).1, { stage with channel := some (channel.receive most).2 }) := by
      rw [Stage.receive, observed]
    have receives : Stage.receives { stage with channel := some (channel.receive most).2 } = stage.receives := by
      rw [Stage.receives, Stage.receives, observed]
      rfl
    rw [taken]
    refine ⟨⟨_, rfl, size, shares.receive most, fun isOpen => ?_⟩,
      handles.stay ⟨rfl, rfl, rfl, id, receives.symm.trans, .of_eq rfl, rfl⟩ rfl rfl⟩
    have flow := flow isOpen
    simp only [Channel.receive, Channel.grant, List.append_assoc, List.take_append_drop]
    exact flow
  waits rest confirms passes early := confirms.wait rest passes early

theorem confirms_closes (capacity : Nat) : Client.Closes (Client.Confirms capacity) := by
  intro received client stage confirms
  obtain ⟨⟨channel, observed, size, shares, flow⟩, handles⟩ := confirms
  have closed : stage.closeReceiver = { stage with channel := some channel.closeReceiver } := by
    rw [Stage.closeReceiver, observed]
    rfl
  rw [closed]
  refine ⟨⟨_, rfl, size, shares_closeReceiver .., fun isOpen => by cases isOpen⟩,
    handles.stay ⟨rfl, rfl, rfl, id, (by intro isOpen; cases isOpen), .of_eq rfl, rfl⟩ rfl rfl⟩

theorem confirms_open_lasts (capacity : Nat) :
    Client.Lasts fun received client stage => client.Confirms capacity received stage ∧ stage.receives = true where
  acts := by
    intro received client client' stage stage' consistent holds acts
    obtain ⟨confirms, receives⟩ := holds.1.acts consistent acts
    exact ⟨confirms, receives.trans holds.2⟩
  around holds changes now channel :=
    ⟨(confirms_lasts capacity).around holds.1 changes now channel, (Stage.receives_eq channel).trans holds.2⟩
  receive := by
    intro received client stage most holds
    refine ⟨(confirms_lasts capacity).receive most holds.1, ?_⟩
    obtain ⟨channel, observed, -⟩ := holds.1.shared
    have receives := holds.2
    rw [Stage.receives, observed] at receives
    rw [Stage.receives, Stage.receive, observed]
    exact receives
  waits rest holds passes early := ⟨holds.1.wait rest passes early, holds.2⟩

end Client

/-! ### From readings to marks -/

/-- The only end among the effects of a frame is the last one, and it ends the sending of the frame's mark. -/
inductive Reading.Regular (reading : Reading) : Prop
  | unended (unended : ∀ entry ∈ reading.effects, entry.2.end? = none) : Regular reading
  | ended {before : List (Nat × Effect)} {mark time : Nat} {how : SendEnd}
      (unended : ∀ entry ∈ before, entry.2.end? = none) (marked : reading.mark? = some mark)
      (effects : reading.effects = before ++ [(time, .ended mark how)]) : Regular reading

namespace Reading

variable {reading : Reading}

private theorem sinkEffects_unended (reading : Reading) (sink : SinkScript) :
    ∀ entry ∈ reading.sinkEffects sink, entry.2.end? = none := by
  unfold sinkEffects
  split
  · exact List.forall_mem_nil _
  · exact List.forall_mem_cons.mpr ⟨rfl, List.forall_mem_singleton.mpr rfl⟩

theorem Finished.regular {options : ClientOptions} {sink : SinkScript} {receives : Bool}
    (finished : reading.Finished options sink receives) : reading.Regular := by
  cases finished with
  | unmarked unmarked effects => exact .unended (effects ▸ sinkEffects_unended reading sink)
  | marked marked effects => exact .ended (sinkEffects_unended reading sink) marked effects

theorem Stands.regular {client : Client} {stage : Stage} {phase : Phase}
    (stands : reading.Stands client stage phase) : reading.Regular := by
  cases stands with
  | calling calls effects => exact .unended (effects ▸ List.forall_mem_singleton.mpr rfl)
  | toSend marked effects | inLine marked effects | abandoned between marked effects =>
      exact .unended (effects ▸ sinkEffects_unended reading client.sink)
  | finished elsewhere finished => exact finished.regular

private theorem undelivered_of_unended {effect : Effect} (unended : effect.end? = none) (timeout : Duration) :
    effect.delivered? = none ∧ effect.drop? timeout = none := by
  cases effect with
  | called | returned => exact ⟨rfl, rfl⟩
  | ended => cases unended

theorem Regular.views (regular : reading.Regular) (timeout : Duration) :
    (reading.effects.filterMap fun entry => entry.2.delivered?) = reading.delivered?.toList ∧
      (reading.effects.filterMap fun entry => entry.2.drop? timeout) = (reading.drop? timeout).toList := by
  have blind {effects : List (Nat × Effect)} (unended : ∀ entry ∈ effects, entry.2.end? = none) :
      (effects.filterMap fun entry => entry.2.delivered?) = [] ∧
        (effects.filterMap fun entry => entry.2.drop? timeout) = [] ∧
        (effects.findSome? fun entry => entry.2.end?) = none :=
    ⟨List.filterMap_eq_nil_iff.mpr fun entry member => (undelivered_of_unended (unended entry member) timeout).1,
      List.filterMap_eq_nil_iff.mpr fun entry member => (undelivered_of_unended (unended entry member) timeout).2,
      List.findSome?_eq_none_iff.mpr unended⟩
  cases regular with
  | unended unended =>
      obtain ⟨delivered, dropped, none⟩ := blind unended
      have unended : reading.end? = Option.none := none
      rw [delivered, dropped, Reading.delivered?, Reading.drop?, unended]
      refine ⟨rfl, ?_⟩
      cases reading.mark? <;> rfl
  | @ended before mark time how unended marked effects =>
      obtain ⟨delivered, dropped, none⟩ := blind unended
      have ends : reading.end? = some how := by
        rw [Reading.end?, effects, List.findSome?_append, none]
        rfl
      rw [effects, List.filterMap_append, List.filterMap_append, delivered, dropped, Reading.delivered?, Reading.drop?,
        ends, marked]
      cases how <;> exact ⟨rfl, rfl⟩

end Reading

private theorem filterMap_flatMap_views {readings : List Reading} {α : Type} {view : Nat × Effect → Option α}
    {pick : Reading → Option α} (views : ∀ reading ∈ readings, reading.effects.filterMap view = (pick reading).toList) :
    (readings.flatMap Reading.effects).filterMap view = readings.filterMap pick := by
  induction readings with
  | nil => rfl
  | cons reading rest ih =>
      obtain ⟨here, others⟩ := List.forall_mem_cons.mp views
      rw [List.flatMap_cons, List.filterMap_append, here, ih others, List.filterMap_cons]
      cases pick reading <;> rfl

private theorem delivered_sublist (readings : List Reading) :
    (readings.filterMap Reading.delivered?).Sublist (readings.filterMap Reading.mark?) := by
  induction readings with
  | nil => exact List.Sublist.refl _
  | cons reading rest ih =>
      have part : reading.delivered? = none ∨ reading.delivered? = reading.mark? := by
        unfold Reading.delivered?
        split
        · exact .inr rfl
        · exact .inl rfl
      rw [List.filterMap_cons, List.filterMap_cons]
      rcases part with none | same
      · rw [none]
        cases reading.mark? with
        | none => exact ih
        | some mark => exact .cons _ ih
      · rw [same]
        cases reading.mark? with
        | none => exact ih
        | some mark => exact .cons_cons _ ih

namespace Client

variable {client : Client} {stage : Stage}

/-- Before the last reading everything is over, and the task stands somewhere in the last one. -/
theorem Handles.inOrder (handles : client.Handles stage) :
    (∀ reading ∈ client.readings.dropLast, reading.Finished client.options client.sink stage.receives) ∧
      ∀ reading, client.readings.getLast? = some reading → reading.Stands client stage client.phase := by
  have standing := handles.standing
  unfold readings
  generalize readingsOf client.history = latest at standing
  cases standing with
  | none => exact ⟨List.forall_mem_nil _, fun _ none => by cases none⟩
  | @some reading earlier stands finished =>
      rw [List.reverse_cons, List.dropLast_concat, List.getLast?_concat]
      refine ⟨fun other member => finished other (List.mem_reverse.mp member), fun other same => ?_⟩
      obtain rfl := Option.some.inj same
      exact stands

private theorem Standing.regular {latest : List Reading} (standing : client.Standing stage latest) :
    ∀ reading ∈ latest, reading.Regular := by
  cases standing with
  | none => exact List.forall_mem_nil _
  | some stands finished =>
      exact List.forall_mem_cons.mpr ⟨stands.regular, fun other member => (finished other member).regular⟩

/-- What was delivered and what was dropped can be told from the readings. -/
theorem Handles.views (handles : client.Handles stage) :
    client.deliveries = client.readings.filterMap Reading.delivered? ∧
      seen Occurrence.drop? client.history =
        client.readings.filterMap (Reading.drop? · client.options.confirmationTimeout) := by
  have regular : ∀ reading ∈ client.readings, reading.Regular := fun reading member =>
    handles.standing.regular reading (List.mem_reverse.mp member)
  have whole : effectsOf client.history = client.readings.flatMap Reading.effects := handles.booked.whole
  refine ⟨?_, ?_⟩
  · rw [deliveries, seen_delivered, whole]
    exact filterMap_flatMap_views fun reading member =>
      ((regular reading member).views client.options.confirmationTimeout).1
  · rw [handles.booked.reports, whole]
    exact filterMap_flatMap_views fun reading member =>
      ((regular reading member).views client.options.confirmationTimeout).2

theorem Shares.waits {channel : Channel} (shares : client.Shares channel) (observed : stage.channel = some channel)
    (rest : client.atRest stage) {mark deadline : Nat} (sending : client.phase = .sending mark deadline) :
    channel.queue.length = channel.capacity ∧ channel.isOpen = true ∧ client.cancelled = false ∧ stage.now < deadline := by
  rw [atRest_iff, proceed?, sending] at rest
  simp only [send?, observed] at rest
  obtain ⟨⟨verdict, channel'⟩, resumed⟩ : ∃ found, channel.resumeSend client.number mark deadline
    client.cancelled stage.now = found := ⟨_, rfl⟩
  rw [resumed] at rest
  cases verdict with
  | ended how => cases rest
  | inLine later =>
      cases Channel.resumes_of_resumeSend resumed with
      | stay going ungranted isOpen early =>
          obtain ⟨-, -, full⟩ := shares.full (by rw [sending]; rfl) isOpen ungranted
          exact ⟨full, isOpen, going, early⟩

end Client

namespace ClientRun

def HasChannel (capacity : Nat) (run : ClientRun) : Prop :=
  ∃ channel, run.stage.channel = some channel ∧ channel.capacity = capacity ∧ run.client.Shares channel

variable {run later : ClientRun} {capacity : Nat}

private theorem HasChannel.step (has : run.HasChannel capacity) (reachable : run.Reachable) (step : Step run later) :
    later.HasChannel capacity := by
  obtain ⟨channel, observed, size, shares⟩ := has
  have consistent := reachable.consistent
  cases step with
  | start =>
      have starts := run.client.start_starts run.stage
      revert starts
      generalize run.client.start run.stage = started
      intro starts
      refine ⟨channel, observed, size, ?_⟩
      cases starts with
      | report => exact shares.aside rfl rfl
      | first enabled unstarted =>
          have idle : run.client.phase = .idle := Decidable.of_not_not fun task =>
            ne_true_of_eq_false unstarted (consistent.phase.started task)
          exact shares.aside rfl (by rw [idle]; rfl)
  | cancel => exact ⟨channel, observed, size, shares.aside rfl rfl⟩
  | stop =>
      obtain ⟨links, rest⟩ := Client.stop_links run.client run.stage
      have same : (run.client.stop run.stage).2.channel = some channel := by
        rw [rest]
        exact observed
      refine ⟨channel, same, size, ?_⟩
      rw [Client.stop_eq]
      exact shares.aside rfl rfl
  | move moves =>
      obtain ⟨next, around, moved, rfl, rfl⟩ := Client.moves_of_move moves
      obtain ⟨channel', observed', on⟩ := moved.sharesOn observed shares
      exact ⟨channel', observed', on.size.trans size, on.shares.aside rfl rfl⟩
  | around changes =>
      cases changes with
      | push | hangUp => exact ⟨channel, (Stage.changeNamed_channel ..).trans observed, size, shares⟩
      | receive most =>
          refine ⟨(channel.receive most).2, ?_, size, shares.receive most⟩
          simp only [Stage.receive, observed]
      | closeReceiver =>
          refine ⟨channel.closeReceiver, ?_, size, Client.shares_closeReceiver ..⟩
          simp only [Stage.closeReceiver, observed, Option.map_some]
      | time => exact ⟨channel, observed, size, shares⟩
  | collect =>
      obtain ⟨client, stage⟩ := run.collect_kept
      exact ⟨channel, stage ▸ observed, size, client ▸ shares⟩

private theorem HasChannel.full (has : run.HasChannel capacity) {client : Client} {around : Stage} {mark : Nat}
    {timeout : Duration} (moved : run.client.move? run.stage = some (client, around))
    (drops : seen Occurrence.drop? client.history =
      seen Occurrence.drop? run.client.history ++ [.channelFull mark timeout]) :
    ∃ channel, run.stage.channel = some channel ∧ channel.isOpen = true ∧ channel.queue.length = capacity := by
  obtain ⟨channel, observed, size, shares⟩ := has
  obtain ⟨next, outside, moves, rfl, rfl⟩ := Client.moves_of_move moved
  obtain ⟨channel', -, on⟩ := moves.sharesOn observed shares
  obtain ⟨isOpen, full⟩ := on.full mark timeout drops
  exact ⟨channel, observed, isOpen, full.trans size⟩

/-- The confirmations of a client with a channel, after any steps:
- the marks that were put into the channel are, in the order of reading and once each, marks of frames that were
  read, and as long as nobody closes the channel they are what was received and what is still in it;
- every mark that was dropped was reported and counted once, and nothing else was;
- the handling of every frame but the last was over before the next one was read: its sink call, the return of that
  call, and the end of the sending of its mark, after exactly the time limit if it timed out, and without a receiver
  if it found the channel closed; the last frame is somewhere on this way, unless the client gave its mark up
  because it was cancelled or stopped;
- the sending only waits while the channel is full, and a move that drops a mark for want of room finds it full;
- empty frames, frames that hold no envelope and those of other versions have no mark.
Where dials fail without end, the waits at start-up must not be empty: such a client would never let any time
pass. -/
theorem confirmations_follow_frames {stage : Stage} (opening : stage.Opening) {capacity : Nat}
    (observed : stage.channel = some (Channel.ofCapacity capacity)) {options : ClientOptions}
    (pauses : (stage.script options.endpoint.url).beyond.isSome = true → 0 < options.supervisorDelay.millis)
    (sink : SinkScript) (steps : List ScenarioStep) :
    let fresh := make stage options sink
    let run := fresh.play steps
    let readings := run.client.readings
    let dropped := readings.filterMap (Reading.drop? · options.confirmationTimeout)
    ∃ channel, run.stage.channel = some channel ∧
      run.client.deliveries = readings.filterMap Reading.delivered? ∧
      run.client.deliveries.Sublist (readings.filterMap Reading.mark?) ∧
      readings.map Reading.frame = (seen Occurrence.frame? run.client.history).map Prod.snd ∧
      (.closeReceiver ∉ steps →
        channel.isOpen = true ∧ fresh.received steps ++ channel.queue = run.client.deliveries) ∧
      seen Occurrence.drop? run.client.history = dropped ∧
      run.client.metrics.errors .confirmation = dropped.length ∧
      (∀ reading ∈ readings.dropLast, reading.Finished options sink channel.isOpen) ∧
      (∀ reading, readings.getLast? = some reading → reading.Stands run.client run.stage run.client.phase) ∧
      (run.client.cancelled = true → run.stage.tokenCancelled = true ∨ run.client.isShuttingDown = true) ∧
      (∀ mark deadline, run.client.phase = .sending mark deadline →
        channel.queue.length = capacity ∧ channel.isOpen = true ∧ run.client.cancelled = false ∧
          run.stage.now < deadline) ∧
      (∀ middle client around mark timeout, fresh.Reaches middle → middle.client.move? middle.stage = some (client, around) →
        seen Occurrence.drop? client.history =
            seen Occurrence.drop? middle.client.history ++ [.channelFull mark timeout] →
          ∃ channel, middle.stage.channel = some channel ∧ channel.isOpen = true ∧
            channel.queue.length = capacity) ∧
      ∀ frame, (frame = [] ∨ (∃ error, Envelope.decode Payload.any frame = .error error) ∨
        ∃ envelope, Envelope.decode Payload.any frame = .ok envelope ∧ envelope.version ≠ 1) →
          markOf? frame = none := by
  intro fresh run readings dropped
  have alone : (Client.make 0 options sink).Shares (Channel.ofCapacity capacity) :=
    ⟨⟨Nat.zero_le _, fun waits => absurd rfl waits⟩, fun _ => rfl, fun _ => rfl⟩
  have opens : Client.Confirms capacity [] (Client.make 0 options sink) stage :=
    ⟨⟨_, observed, rfl, alone, fun _ => rfl⟩, ⟨rfl, rfl⟩, rfl, .none rfl, fun _ => rfl⟩
  have rested : run.Rested (Client.Confirms capacity) (fresh.received steps) :=
    rested_play opening pauses sink (Client.confirms_lasts capacity) opens steps fun _ => Client.confirms_closes capacity
  have reachable : run.Reachable := reachable_play opening options sink steps
  obtain ⟨⟨channel, here, size, shares, flow⟩, handles⟩ := rested.holds
  have settings : run.client.options = options := (reaches_play fresh steps).settings.1
  have sinks : run.client.sink = sink := (reaches_play fresh steps).sink
  have receives : run.stage.receives = channel.isOpen := by rw [Stage.receives, here]
  obtain ⟨finished, last⟩ := handles.inOrder
  obtain ⟨delivered, drops⟩ := handles.views
  rw [settings] at drops
  rw [settings, sinks, receives] at finished
  refine ⟨channel, here, delivered, delivered ▸ delivered_sublist readings, readings_frames run.client.history, ?_, drops,
    ?_, finished, last, reachable.endures.bidden, ?_, ?_, ?_⟩
  · intro present
    have opened : run.Rested (fun received client stage => client.Confirms capacity received stage ∧ stage.receives = true)
        (fresh.received steps) := by
      refine rested_play opening pauses sink (Client.confirms_open_lasts capacity) ⟨opens, ?_⟩ steps fun closes =>
        absurd closes present
      rw [Stage.receives, observed]
      rfl
    have isOpen := receives.symm.trans opened.holds.2
    exact ⟨isOpen, flow isOpen⟩
  · exact handles.counted.trans (congrArg List.length drops)
  · intro mark deadline sending
    obtain ⟨full, waits⟩ := shares.waits here rested.rest sending
    exact ⟨full.trans size, waits⟩
  · intro middle client around mark timeout reaches moved dropsNow
    have has : middle.HasChannel capacity :=
      reaches.keeps (HasChannel capacity) (reachable_play opening options sink []) ⟨_, observed, rfl, alone⟩
        fun reachable has step => has.step reachable step
    exact has.full moved dropsNow
  · rintro frame (rfl | ⟨error, refused⟩ | ⟨envelope, decoded, other⟩)
    · rfl
    · exact markOf?_of_refused refused
    · exact markOf?_of_unsupported decoded other

/-- Three marks and a malformed frame for a channel with one place: the second mark waits for five seconds and is
dropped, and the third is put into the channel when the first has been received. -/
theorem confirmations_follow_frames_into_full_channel :
    let stage := Stage.planned [("ws://feed", [⟨.connect "first", 0, false⟩])] (some 1)
    let fresh := make stage (ClientOptions.standard "ws://feed") ⟨false, 0⟩
    let steps : List ScenarioStep := [.start, .push "first" (.ok (confirmationFrame 7)) 1,
      .push "first" (.ok (confirmationFrame 8)) 1, .push "first" (.ok malformedFrame) 1,
      .push "first" (.ok (confirmationFrame 9)) 1, .sleep 5000, .receive none]
    fresh.received steps = [7] ∧ (fresh.play steps).stage.channel.map Channel.queue = some [9] ∧
      (fresh.play steps).client.metrics.errors .confirmation = 1 ∧
        (fresh.play steps).client.readings.map Reading.mark? = [some 7, some 8, none, some 9] := by
  intro stage fresh steps
  have opening : stage.Opening := .planned ..
  have observed : stage.channel = some (Channel.ofCapacity 1) := rfl
  have pauses : (stage.script (ClientOptions.standard "ws://feed").endpoint.url).beyond.isSome = true →
      0 < (ClientOptions.standard "ws://feed").supervisorDelay.millis := by decide
  obtain ⟨received, deliveries, drops, frames⟩ : fresh.received steps = [7] ∧
      (fresh.play steps).client.deliveries = [7, 9] ∧
      (seen Occurrence.drop? (fresh.play steps).client.history).length = 1 ∧
      ((seen Occurrence.frame? (fresh.play steps).client.history).map Prod.snd).map markOf? =
        [some 7, some 8, none, some 9] := by decide +kernel
  obtain ⟨channel, here, -, -, readings, flow, dropped, counted, -⟩ :=
    confirmations_follow_frames opening observed pauses ⟨false, 0⟩ steps
  obtain ⟨-, flow⟩ := flow (by simp [steps])
  have same : make stage (ClientOptions.standard "ws://feed") ⟨false, 0⟩ = fresh := rfl
  rw [same] at readings flow dropped counted here
  generalize fresh.play steps = run at *
  refine ⟨received, ?_, ?_, ?_⟩
  · have queue : channel.queue = [9] := by simpa [received, deliveries] using flow
    rw [here, Option.map_some, queue]
  · exact counted.trans ((congrArg List.length dropped).symm.trans drops)
  · rw [← readings, List.map_map] at frames
    exact frames

end ClientRun

end SequencedFeed
