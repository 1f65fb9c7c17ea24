import SequencedFeed.Proofs.Likeness
set_option autoImplicit false

/-!
# Clients do not look back

A client adds to its history and never reads it. With a longer past it does the same, in a single move as on its way
to rest, so what a step adds to the history depends on nothing that is in there.
-/

namespace SequencedFeed

namespace Client

/-- The client with more behind it than it has left itself. -/
def onto (client : Client) (past : List (Nat × Occurrence)) : Client :=
  { client with history := client.history ++ past }

def bare (client : Client) : Client :=
  { client with history := [] }

variable (past : List (Nat × Occurrence)) (client : Client) (stage : Stage)

@[simp] theorem onto_kept :
    (client.onto past).number = client.number ∧ (client.onto past).options = client.options ∧
      (client.onto past).sink = client.sink ∧ (client.onto past).started = client.started ∧
      (client.onto past).cancelled = client.cancelled ∧ (client.onto past).slot = client.slot ∧
      (client.onto past).phase = client.phase ∧ (client.onto past).shouldStop = client.shouldStop ∧
      (client.onto past).url = client.url :=
  ⟨rfl, rfl, rfl, rfl, rfl, rfl, rfl, rfl, rfl⟩

private theorem changeSlot_onto (change : Slot Nat × List (SlotEffect Nat)) :
    (client.onto past).changeSlot stage change =
      ((client.changeSlot stage change).1.onto past, (client.changeSlot stage change).2) := by
  obtain ⟨slot, effects⟩ := change
  have begun : { client.onto past with slot } = Client.onto { client with slot } past := rfl
  unfold changeSlot
  rw [begun]
  generalize { client with slot := slot } = client
  induction effects generalizing client stage with
  | nil => rfl
  | cons effect rest ih => exact ih (client.carryOut stage effect).2 (client.carryOut stage effect).1

theorem start_onto : (client.onto past).start stage = (client.start stage).onto past := by
  simp only [start, onto_kept]
  split
  · rfl
  split <;> rfl

theorem stop_onto : (client.onto past).stop stage = ((client.stop stage).1.onto past, (client.stop stage).2) :=
  changeSlot_onto past (client.log stage.now (.closing client.url)).cancel stage client.slot.shutDown

private theorem afterDial_onto (episode : Episode) :
    (client.onto past).afterDial episode = (client.afterDial episode).onto past := by
  cases episode <;> rfl

private theorem dial_onto (episode : Episode) :
    (client.onto past).dial stage episode =
      ((client.dial stage episode).1.onto past, (client.dial stage episode).2) := by
  simp only [dial_eq, onto_kept]
  split
  · exact Prod.ext (afterDial_onto past client episode) rfl
  split
  · exact Prod.ext (afterDial_onto past (client.log stage.now (.connecting client.url)) episode) rfl
  · rfl

private theorem takeConnection_onto (episode : Episode) (link : Nat) :
    (client.onto past).takeConnection stage episode link =
      ((client.takeConnection stage episode link).1.onto past, (client.takeConnection stage episode link).2) := by
  have changed := changeSlot_onto past client stage (client.slot.install link)
  simp only [takeConnection, onto_kept, changed]
  generalize client.changeSlot stage (client.slot.install link) = taken
  obtain ⟨taken, stage⟩ := taken
  cases client.slot.shuttingDown with
  | true => exact Prod.ext (afterDial_onto past (taken.log stage.now (.discarding taken.url)) episode) rfl
  | false =>
      exact Prod.ext (afterDial_onto past ((taken.note stage.now (.installed link)).log stage.now (.connected taken.url))
        episode) rfl

private theorem sufferDial_onto (now : Nat) (episode : Episode) (error : TransportError) :
    (client.onto past).sufferDial now episode error = (client.sufferDial now episode error).onto past := by
  cases episode <;> rfl

private theorem endDial_onto (episode : Episode) (ends : DialEnd) (stops : Bool) :
    (client.onto past).endDial stage episode ends stops =
      ((client.endDial stage episode ends stops).1.onto past, (client.endDial stage episode ends stops).2) := by
  have before : (client.onto past).beforeOutcome stage stops =
      ((client.beforeOutcome stage stops).1.onto past, (client.beforeOutcome stage stops).2) := by
    cases stops with
    | false => rfl
    | true => exact stop_onto past client { stage with stopAsked := true }
  rw [endDial_eq, endDial_eq, before]
  generalize client.beforeOutcome stage stops = stopped
  obtain ⟨client, stage⟩ := stopped
  cases ends with
  | connect link => exact takeConnection_onto past (client.note stage.now (.dialEnded (.connect link))) stage episode link
  | fail error =>
      exact Prod.ext (sufferDial_onto past (client.note stage.now (.dialEnded (.fail error))) stage.now episode error) rfl

private theorem afterSink_onto (mark : Option Nat) :
    (client.onto past).afterSink mark = (client.afterSink mark).onto past := by
  cases mark <;> rfl

private theorem route_onto (now : Nat) (envelope : Envelope Json) :
    (client.onto past).route now envelope = (client.route now envelope).onto past := by
  unfold route
  cases envelope.isSupported with
  | false => rfl
  | true =>
      cases envelope.firstSequence with
      | none => exact afterSink_onto past client envelope.confirmed
      | some start => rfl

private theorem takeFrame_onto (now : Nat) (frame : List UInt8) :
    (client.onto past).takeFrame now frame = (client.takeFrame now frame).onto past := by
  unfold takeFrame
  cases frame.isEmpty with
  | true => rfl
  | false =>
      cases Envelope.decode Payload.any frame with
      | error error => rfl
      | ok envelope =>
          exact route_onto past ({ client with metrics := client.metrics.frameReceived }.log now (LogEvent.summary envelope))
            now envelope

private theorem sufferRead_onto (link : Option Nat) (error : TransportError) :
    (client.onto past).sufferRead stage link error =
      ((client.sufferRead stage link error).1.onto past, (client.sufferRead stage link error).2) := by
  have reported : ((client.onto past).log stage.now ((client.onto past).readReport error)).count .read =
      ((client.log stage.now (client.readReport error)).count .read).onto past := rfl
  simp only [sufferRead, onto_kept, reported]
  split
  · rfl
  · cases link with
    | none => rfl
    | some link =>
        simp only [changeSlot_onto]
        rfl

private theorem endRead_onto (link : Nat) (result : ReadResult) :
    (client.onto past).endRead stage link result =
      ((client.endRead stage link result).1.onto past, (client.endRead stage link result).2) := by
  cases result with
  | ok frame => exact Prod.ext (takeFrame_onto past (client.note stage.now (.read link (.ok frame))) stage.now frame) rfl
  | error error => exact sufferRead_onto past (client.note stage.now (.read link (.error error))) stage (some link) error

private theorem beginRead_onto :
    (client.onto past).beginRead stage = ((client.beginRead stage).1.onto past, (client.beginRead stage).2) := by
  simp only [beginRead, onto_kept]
  split
  · rfl
  · cases client.slot.held with
    | some link => rfl
    | none => exact sufferRead_onto past client stage none .notConnected

private def ontoBoth (past : List (Nat × Occurrence)) (both : Client × Stage) : Client × Stage :=
  (both.1.onto past, both.2)

private theorem read_onto (link since : Nat) :
    (client.onto past).read? stage link since = (client.read? stage link since).map (ontoBoth past) := by
  have deadline : (client.onto past).idleDeadline? since = client.idleDeadline? since := rfl
  simp only [read?, deadline, onto_kept, endRead_onto]
  cases stage.readLink? link with
  | some read => rfl
  | none =>
      cases client.idleDeadline? since with
      | none => rfl
      | some deadline =>
          dsimp only
          split <;> rfl

private theorem endSink_onto (now start : Nat) (mark : Option Nat) :
    (client.onto past).endSink now start mark = (client.endSink now start mark).onto past := by
  have returned : (client.onto past).note now (.sinkReturned client.sink.fails) =
      (client.note now (.sinkReturned client.sink.fails)).onto past := rfl
  simp only [endSink, onto_kept, returned]
  split
  · exact afterSink_onto past (((client.note now (.sinkReturned client.sink.fails)).log now
      (.sinkFailed start sinkRejection)).count .sink) mark
  · exact afterSink_onto past (client.note now (.sinkReturned client.sink.fails)) mark

private theorem endSend_onto (now mark : Nat) (how : SendEnd) :
    (client.onto past).endSend now mark how = (client.endSend now mark how).onto past := by
  cases how <;> rfl

private theorem beginSend_onto (mark : Nat) :
    (client.onto past).beginSend stage mark = ontoBoth past (client.beginSend stage mark) := by
  simp only [beginSend, onto_kept]
  cases stage.channel with
  | none => rfl
  | some channel =>
      dsimp only
      generalize channel.beginSend client.number mark client.options.confirmationTimeout client.cancelled stage.now = sent
      obtain ⟨sending, channel'⟩ := sent
      cases sending with
      | ended how => exact Prod.ext (endSend_onto past client stage.now mark how) rfl
      | inLine deadline => rfl

private theorem send_onto (mark deadline : Nat) :
    (client.onto past).send? stage mark deadline = (client.send? stage mark deadline).map (ontoBoth past) := by
  simp only [send?, onto_kept]
  cases stage.channel with
  | none => rfl
  | some channel =>
      dsimp only
      generalize channel.resumeSend client.number mark deadline client.cancelled stage.now = resumed
      obtain ⟨sending, channel'⟩ := resumed
      cases sending with
      | ended how => exact congrArg some (Prod.ext (endSend_onto past client stage.now mark how) rfl)
      | inLine later => rfl

private theorem proceed_onto :
    (client.onto past).proceed? stage = (client.proceed? stage).map (ontoBoth past) := by
  simp only [proceed?, onto_kept]
  cases client.phase with
  | idle | ready => rfl
  | connecting episode => exact congrArg some (dial_onto past client stage episode)
  | hanging episode =>
      dsimp only
      split
      · exact congrArg some (Prod.ext (afterDial_onto past client episode) rfl)
      · rfl
  | dialling episode ends stops due =>
      dsimp only
      split
      · exact congrArg some (Prod.ext (afterDial_onto past client episode) rfl)
      split
      · exact congrArg some (endDial_onto past client stage episode ends stops)
      · rfl
  | retrying due | backingOff wait due =>
      dsimp only
      split
      · rfl
      split <;> rfl
  | looping => exact congrArg some (beginRead_onto past client stage)
  | reading link since => exact read_onto past client stage link since
  | sinking start mark due =>
      dsimp only
      split
      · exact congrArg some (Prod.ext (endSink_onto past client stage.now start mark) rfl)
      · rfl
  | confirming mark => exact congrArg some (beginSend_onto past client stage mark)
  | sending mark deadline => exact send_onto past client stage mark deadline

theorem move_onto :
    (client.onto past).move? stage =
      (client.move? stage).map fun both : Client × Stage => (both.1.onto past, both.2) := by
  rw [move?, move?, proceed_onto, Option.map_map, Option.map_map]
  rfl

theorem moveUpTo_onto (count : Nat) :
    moveUpTo count (client.onto past) stage =
      ((moveUpTo count client stage).1.onto past, (moveUpTo count client stage).2) := by
  induction count generalizing client stage with
  | zero => rfl
  | succ count ih =>
      simp only [moveUpTo, move_onto]
      cases client.move? stage with
      | none => rfl
      | some next => exact ih next.1 next.2

/-- With a longer past a client comes to the same rest. -/
theorem settle_onto :
    (client.onto past).settle stage = ((client.settle stage).1.onto past, (client.settle stage).2) :=
  moveUpTo_onto past client stage (client.work stage)

end Client

end SequencedFeed
