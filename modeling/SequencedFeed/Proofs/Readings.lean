import SequencedFeed.Proofs.Moves
set_option autoImplicit false

/-!
# What is done for a frame

A history falls into readings: each frame that was read, with the effects it had before the next frame was read.
The effects of a frame are its sink call, the return of that call, and the end of the sending of its mark.
-/

namespace SequencedFeed

/-- What a client does because of a frame. -/
inductive Effect
  | called (call : SinkCall)
  | returned (failed : Bool)
  | ended (mark : Nat) (how : SendEnd)

namespace Effect

def end? : Effect → Option SendEnd
  | .ended _ how => some how
  | _ => none

def delivered? : Effect → Option Nat
  | .ended mark .delivered => some mark
  | _ => none

def drop? (timeout : Duration) : Effect → Option LogEvent
  | .ended mark how => how.report? mark timeout
  | _ => none

end Effect

namespace Occurrence

def effect? : Occurrence → Option Effect
  | .applied call => some (.called call)
  | .sinkReturned failed => some (.returned failed)
  | .delivered mark => some (.ended mark .delivered)
  | .log (.channelFull mark _) => some (.ended mark .timedOut)
  | .log (.channelClosed mark) => some (.ended mark .closed)
  | _ => none

def drop? : Occurrence → Option LogEvent
  | .log (.channelFull mark timeout) => some (.channelFull mark timeout)
  | .log (.channelClosed mark) => some (.channelClosed mark)
  | _ => none

def isBeside (occurrence : Occurrence) : Prop :=
  occurrence.frame? = none ∧ occurrence.effect? = none

theorem undelivered_of_beside {occurrence : Occurrence} (beside : occurrence.isBeside) :
    occurrence.delivered? = none := by
  cases occurrence with
  | delivered mark => cases beside.2
  | _ => rfl

theorem undropped_of_beside {occurrence : Occurrence} (beside : occurrence.isBeside) : occurrence.drop? = none := by
  cases occurrence with
  | log event =>
      cases event with
      | channelFull | channelClosed => cases beside.2
      | _ => rfl
  | _ => rfl

theorem isBeside_summary (envelope : Envelope Json) : (Occurrence.log (LogEvent.summary envelope)).isBeside := by
  unfold LogEvent.summary
  repeat' split
  all_goals exact ⟨rfl, rfl⟩

end Occurrence

/-! ### Marks of frames -/

def markOf? (frame : List UInt8) : Option Nat :=
  match frame, Envelope.decode Payload.any frame with
  | _ :: _, .ok envelope => envelope.mark?
  | _, _ => none

theorem markOf?_of_refused {frame : List UInt8} {error : DecodeError}
    (refused : Envelope.decode Payload.any frame = .error error) : markOf? frame = none := by
  cases frame with
  | nil => rfl
  | cons byte rest => simp only [markOf?, refused]

theorem markOf?_of_decoded {frame : List UInt8} {envelope : Envelope Json} (filled : frame ≠ [])
    (decoded : Envelope.decode Payload.any frame = .ok envelope) : markOf? frame = envelope.mark? := by
  cases frame with
  | nil => exact absurd rfl filled
  | cons byte rest => simp only [markOf?, decoded]

theorem markOf?_of_unsupported {frame : List UInt8} {envelope : Envelope Json}
    (decoded : Envelope.decode Payload.any frame = .ok envelope) (other : envelope.version ≠ 1) : markOf? frame = none := by
  cases frame with
  | nil => rfl
  | cons byte rest =>
      rw [markOf?_of_decoded (List.cons_ne_nil _ _) decoded, Envelope.mark?]
      exact if_neg fun supported => other (of_decide_eq_true supported)

/-! ### Readings -/

/-- A frame that was read, with its effects before the next frame was read, oldest first. -/
structure Reading where
  time : Nat
  frame : List UInt8
  effects : List (Nat × Effect)

namespace Reading

def add (reading : Reading) (time : Nat) (effect : Effect) : Reading :=
  { reading with effects := reading.effects ++ [(time, effect)] }

def call? (reading : Reading) : Option SinkCall :=
  SinkCall.ofFrame? reading.frame

def mark? (reading : Reading) : Option Nat :=
  markOf? reading.frame

def sinkEffects (reading : Reading) (sink : SinkScript) : List (Nat × Effect) :=
  match reading.call? with
  | none => []
  | some call => [(reading.time, .called call), (expiry reading.time sink.delay, .returned sink.fails)]

/-- When the mark of a frame is due to be sent: after the sink call, if there is one. -/
def sendsAt (reading : Reading) (sink : SinkScript) : Nat :=
  match reading.call? with
  | none => reading.time
  | some _ => expiry reading.time sink.delay

def end? (reading : Reading) : Option SendEnd :=
  reading.effects.findSome? fun entry => entry.2.end?

def delivered? (reading : Reading) : Option Nat :=
  if reading.end? = some .delivered then reading.mark? else none

def drop? (reading : Reading) (timeout : Duration) : Option LogEvent :=
  reading.mark?.bind fun mark => reading.end?.bind fun how => how.report? mark timeout

end Reading

def addEffect (time : Nat) (effect : Effect) : List Reading → List Reading
  | [] => []
  | reading :: earlier => reading.add time effect :: earlier

/-- The readings of a history, latest first. -/
def readingsOf : List (Nat × Occurrence) → List Reading
  | [] => []
  | (time, occurrence) :: earlier =>
      match occurrence.frame?, occurrence.effect? with
      | some entry, _ => ⟨time, entry.2, []⟩ :: readingsOf earlier
      | none, some effect => addEffect time effect (readingsOf earlier)
      | none, none => readingsOf earlier

/-- The effects in a history, oldest first. -/
def effectsOf : List (Nat × Occurrence) → List (Nat × Effect)
  | [] => []
  | (time, occurrence) :: earlier => effectsOf earlier ++ (occurrence.effect?.map (Prod.mk time)).toList

def Client.readings (client : Client) : List Reading :=
  (readingsOf client.history).reverse

section

variable {earlier later : List (Nat × Occurrence)}

theorem readingsOf_read (time link : Nat) (frame : List UInt8) :
    readingsOf ((time, .read link (.ok frame)) :: earlier) = ⟨time, frame, []⟩ :: readingsOf earlier :=
  rfl

theorem readingsOf_effect {occurrence : Occurrence} {effect : Effect} (effects : occurrence.effect? = some effect)
    (time : Nat) : readingsOf ((time, occurrence) :: earlier) = addEffect time effect (readingsOf earlier) := by
  have unread : occurrence.frame? = none := by
    cases occurrence with
    | read link result => cases effects
    | _ => rfl
  simp only [readingsOf, unread, effects]

def FramesAside : List (Nat × Occurrence) → List (Nat × Occurrence) → Prop :=
  OnlyAdds Occurrence.isBeside

theorem FramesAside.readings_eq (aside : FramesAside earlier later) :
    readingsOf later = readingsOf earlier ∧ effectsOf later = effectsOf earlier := by
  obtain ⟨added, rfl, beside⟩ := aside
  induction added with
  | nil => exact ⟨rfl, rfl⟩
  | cons entry rest ih =>
      obtain ⟨⟨unread, ineffective⟩, others⟩ := List.forall_mem_cons.mp beside
      obtain ⟨readings, effects⟩ := ih others
      refine ⟨?_, ?_⟩
      · simp only [List.cons_append, readingsOf, unread, ineffective]
        exact readings
      · simp only [List.cons_append, effectsOf, ineffective]
        rw [effects]
        exact List.append_nil _

theorem FramesAside.deliveries_eq (aside : FramesAside earlier later) :
    seen Occurrence.delivered? later = seen Occurrence.delivered? earlier ∧
      seen Occurrence.drop? later = seen Occurrence.drop? earlier :=
  ⟨aside.seen_eq fun _ => Occurrence.undelivered_of_beside, aside.seen_eq fun _ => Occurrence.undropped_of_beside⟩

end

/-- Every frame that was read has its reading. -/
theorem readings_frames (history : List (Nat × Occurrence)) :
    (readingsOf history).reverse.map Reading.frame = (seen Occurrence.frame? history).map Prod.snd := by
  induction history with
  | nil => rfl
  | cons entry earlier ih =>
      obtain ⟨time, occurrence⟩ := entry
      rw [seen_cons, List.map_append, ← ih, readingsOf]
      cases read : occurrence.frame? with
      | some entry => simp
      | none =>
          cases effects : occurrence.effect? with
          | none => simp
          | some effect => cases readingsOf earlier <;> simp [addEffect, Reading.add]

theorem seen_delivered (history : List (Nat × Occurrence)) :
    seen Occurrence.delivered? history = (effectsOf history).filterMap fun entry => entry.2.delivered? := by
  induction history with
  | nil => rfl
  | cons entry earlier ih =>
      obtain ⟨time, occurrence⟩ := entry
      rw [seen_cons, ih, effectsOf, List.filterMap_append]
      congr 1
      cases occurrence with
      | log event => cases event <;> rfl
      | _ => rfl

/-- A history in which every effect belongs to a frame, and every mark that was dropped was reported. -/
structure Booked (timeout : Duration) (history : List (Nat × Occurrence)) : Prop where
  whole : effectsOf history = (readingsOf history).reverse.flatMap Reading.effects
  reports : seen Occurrence.drop? history = (effectsOf history).filterMap fun entry => entry.2.drop? timeout

section

variable {timeout : Duration} {earlier later : List (Nat × Occurrence)}

theorem Booked.aside (booked : Booked timeout earlier) (aside : FramesAside earlier later) : Booked timeout later := by
  obtain ⟨readings, effects⟩ := aside.readings_eq
  refine ⟨?_, ?_⟩
  · rw [readings, effects, booked.whole]
  · rw [effects, aside.deliveries_eq.2, booked.reports]

theorem Booked.read (booked : Booked timeout earlier) (time link : Nat) (frame : List UInt8) :
    Booked timeout ((time, .read link (.ok frame)) :: earlier) := by
  refine ⟨?_, ?_⟩
  · rw [readingsOf_read, List.reverse_cons, List.flatMap_append, ← booked.whole]
    rfl
  · rw [seen_skip _ rfl, booked.reports, effectsOf]
    exact congrArg _ (List.append_nil _).symm

theorem Booked.effect (booked : Booked timeout earlier) {reading : Reading} {before : List Reading}
    (readings : readingsOf earlier = reading :: before) {occurrence : Occurrence} {effect : Effect}
    (effects : occurrence.effect? = some effect) (reported : occurrence.drop? = effect.drop? timeout) (time : Nat) :
    readingsOf ((time, occurrence) :: earlier) = reading.add time effect :: before ∧
      Booked timeout ((time, occurrence) :: earlier) := by
  have now : readingsOf ((time, occurrence) :: earlier) = reading.add time effect :: before := by
    rw [readingsOf_effect effects, readings]
    rfl
  have whole := booked.whole
  rw [readings, List.reverse_cons, List.flatMap_append, List.flatMap_singleton] at whole
  refine ⟨now, ?_, ?_⟩
  · rw [now, List.reverse_cons, List.flatMap_append, List.flatMap_singleton, Reading.add, effectsOf, whole, effects,
      List.append_assoc]
    rfl
  · rw [seen_cons, booked.reports, effectsOf, effects, List.filterMap_append, reported]
    cases reported : effect.drop? timeout <;> simp [reported]

end

/-! ### How a frame is handled -/

/-- The handling of a frame is over: the sink call it asks for has returned, and then the sending of its mark has
ended, in time, and only by a time limit that has run out or a receiver who has gone without success. -/
inductive Reading.Finished (options : ClientOptions) (sink : SinkScript) (receives : Bool) (reading : Reading) :
    Prop
  | unmarked (unmarked : reading.mark? = none) (effects : reading.effects = reading.sinkEffects sink) :
      Finished options sink receives reading
  | marked {mark time : Nat} {how : SendEnd} (marked : reading.mark? = some mark)
      (effects : reading.effects = reading.sinkEffects sink ++ [(time, .ended mark how)])
      (settled : how ≠ .abandoned) (begun : reading.sendsAt sink ≤ time)
      (inTime : time ≤ reading.sendsAt sink + options.confirmationTimeout.millis)
      (timedOut : how = .timedOut → time = reading.sendsAt sink + options.confirmationTimeout.millis)
      (closed : how = .closed → receives = false) : Finished options sink receives reading

theorem Reading.Finished.mono {options : ClientOptions} {sink : SinkScript} {receives receives' : Bool}
    {reading : Reading} (finished : reading.Finished options sink receives)
    (fewer : receives' = true → receives = true) : reading.Finished options sink receives' := by
  cases finished with
  | unmarked unmarked effects => exact .unmarked unmarked effects
  | marked marked effects settled begun inTime timedOut closed =>
      refine .marked marked effects settled begun inTime timedOut fun ends => ?_
      exact Bool.eq_false_iff.mpr fun receives => ne_true_of_eq_false (closed ends) (fewer receives)

end SequencedFeed
