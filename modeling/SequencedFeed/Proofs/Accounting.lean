import SequencedFeed.Envelope.Text
import SequencedFeed.Proofs.Endurance
import SequencedFeed.Proofs.Ownership
set_option autoImplicit false

/-!
# What is counted about frames and errors

Every counter about frames, sink calls, reads and confirmations is kept by a different move, and so is the record that
goes with it. `Moves.books` says once what each move brings into the books, and an invariant ties the counters and the
records to the history. Along a run, the reads that failed are read off two states that follow each other.
-/

namespace SequencedFeed

/-! ### Records by their texts -/

/-- What a record is about, if it is about a frame that was decoded or about an error that is counted. -/
inductive Topic
  | summary
  | error (kind : ErrorKind)
deriving DecidableEq

def Topic.texts : Topic → List String
  | .summary =>
      ["received batch item", "confirmed sequence number", "received broadcast with no messages populated"]
  | .error .read => ["feed connection timed out without receiving data", "error reading from feed"]
  | .error .decode => ["error decoding feed message"]
  | .error .sink => ["error adding messages from feed"]
  | .error .confirmation =>
      ["confirmation channel full, dropping confirmed sequence number",
        "confirmation channel closed, dropping confirmed sequence number"]

namespace LogEvent

def topic? : LogEvent → Option Topic
  | .batch .. | .confirmation .. | .nothing _ => some .summary
  | .silent .. | .readFailed .. => some (.error .read)
  | .undecodable .. => some (.error .decode)
  | .sinkFailed .. => some (.error .sink)
  | .channelFull .. | .channelClosed _ => some (.error .confirmation)
  | _ => none

def about? (topic : Topic) (event : LogEvent) : Option LogEvent :=
  if event.topic? = some topic then some event else none

theorem topic_iff (event : LogEvent) (topic : Topic) : event.topic? = some topic ↔ event.message ∈ topic.texts := by
  have same : decide (event.topic? = some topic) = decide (event.message ∈ topic.texts) := by
    cases event with
    | startingClients count =>
        -- its text is not closed, but no text of a topic begins as it does
        have unequal : ∀ text ∈ topic.texts, (startingClients count).message ≠ text := by
          have begins : ∀ text ∈ topic.texts, text.toList.head? ≠ some 's' := by
            cases topic with
            | summary => decide
            | error kind => cases kind <;> decide
          rintro text member rfl
          exact begins _ member (by simp [message])
        exact (decide_eq_false fun member => unequal _ member rfl).symm
    | _ =>
        cases topic with
        | summary => rfl
        | error kind => cases kind <;> rfl
  exact decide_eq_decide.mp same

theorem topic_summary {α : Type} (envelope : Envelope α) : (summary envelope).topic? = some .summary := by
  unfold summary
  split <;> rfl

/-- What an envelope brings, in the words of its record: payloads if there are any, else a mark, else nothing. -/
theorem message_summary {α : Type} (envelope : Envelope α) :
    (summary envelope).level = .debug ∧ (summary envelope).message =
      if envelope.messages ≠ [] then "received batch item"
      else if envelope.confirmed ≠ none then "confirmed sequence number"
      else "received broadcast with no messages populated" := by
  obtain ⟨version, messages, confirmed⟩ := envelope
  cases messages <;> cases confirmed <;> exact ⟨rfl, rfl⟩

def ofFailedRead (url : String) (error : TransportError) : LogEvent :=
  if error.isIdleTimeout then .silent url error else .readFailed url error

def summary? (frame : List UInt8) : Option LogEvent :=
  match Envelope.decode Payload.any frame with
  | .ok envelope => some (summary envelope)
  | .error _ => none

def undecodable? (url : String) (frame : List UInt8) : Option LogEvent :=
  match frame, Envelope.decode Payload.any frame with
  | _ :: _, .error error => some (.undecodable url frame (.decode error))
  | _, _ => none

theorem summary_eq (frame : List UInt8) :
    summary? frame = (Envelope.decode Payload.any frame).toOption.map summary := by
  unfold summary?
  cases Envelope.decode Payload.any frame <;> rfl

theorem undecodable_isSome (url : String) (frame : List UInt8) :
    (undecodable? url frame).isSome = decide (frame ≠ [] ∧ (Envelope.decode Payload.any frame).toOption.isNone) := by
  cases frame with
  | nil => rfl
  | cons byte rest =>
      unfold undecodable?
      cases decoded : Envelope.decode Payload.any (byte :: rest) <;> simp [Except.toOption]

theorem countP_frames (url : String) (frames : List (List UInt8)) :
    frames.countP (· ≠ []) =
      (frames.filterMap fun frame => (Envelope.decode Payload.any frame).toOption).length +
        (frames.filterMap (undecodable? url)).length := by
  induction frames with
  | nil => rfl
  | cons frame rest ih =>
      have each : (if frame ≠ [] then 1 else 0) =
          (if (Envelope.decode Payload.any frame).toOption.isSome then 1 else 0) +
            if frame ≠ [] ∧ (Envelope.decode Payload.any frame).toOption.isNone then 1 else 0 := by
        cases frame with
        | nil => rfl
        | cons byte rest => cases (Envelope.decode Payload.any (byte :: rest)).toOption <;> simp
      rw [List.length_filterMap_eq_countP, List.length_filterMap_eq_countP] at ih ⊢
      simp only [List.countP_cons, undecodable_isSome, decide_eq_true_eq] at ih ⊢
      rw [ih, each, Nat.add_add_add_comm]

theorem topic_ofFailedRead (url : String) (error : TransportError) :
    (ofFailedRead url error).topic? = some (.error .read) := by
  unfold ofFailedRead
  split <;> rfl

end LogEvent

def Occurrence.about? (topic : Topic) : Occurrence → Option LogEvent
  | .log event => event.about? topic
  | _ => none

/-- What leaves the books as they are. -/
def Occurrence.isUncounted : Occurrence → Bool
  | .log event => event.topic?.isNone
  | .read .. => false
  | .sinkReturned _ => false
  | _ => true

/-! ### Entries -/

/-- What a move brings into the books. A read that fails is lost, unless the client is to stop; without a connection
there is nothing to read from. -/
inductive Entry
  | nothing
  | taken (frame : List UInt8)
  | sinkReturn (start : Nat) (failed : Bool)
  | lastRead (link : Nat) (error : TransportError)
  | lostRead (link : Option Nat) (error : TransportError)
  | sendEnd (how : SendEnd) (mark : Nat) (timeout : Duration)

namespace Entry

def frame? : Entry → Option (List UInt8)
  | .taken frame => some frame
  | _ => none

def sinkReturn? : Entry → Option Bool
  | .sinkReturn _ failed => some failed
  | _ => none

def failedRead? : Entry → Option (Nat × TransportError)
  | .lastRead link error => some (link, error)
  | .lostRead (some link) error => some (link, error)
  | _ => none

def event? (url : String) : Entry → Option LogEvent
  | .nothing => none
  | .taken frame => (LogEvent.summary? frame).or (LogEvent.undecodable? url frame)
  | .sinkReturn start failed => if failed then some (.sinkFailed start sinkRejection) else none
  | .lastRead .. => none
  | .lostRead _ error => some (.ofFailedRead url error)
  | .sendEnd how mark timeout => how.report? mark timeout

/-- The records about a topic that an entry calls for, at most one. -/
def reports (url : String) (entry : Entry) (topic : Topic) : List LogEvent :=
  ((entry.event? url).bind (LogEvent.about? topic)).toList

theorem reports_of_event {url : String} {entry : Entry} {event : LogEvent} (called : entry.event? url = some event)
    {topic : Topic} (about : event.topic? = some topic) (other : Topic) :
    entry.reports url other = if other = topic then [event] else [] := by
  rw [reports, called, Option.bind_some, LogEvent.about?, about]
  by_cases same : other = topic
  · rw [if_pos same, if_pos (congrArg some same.symm)]
    rfl
  · rw [if_neg same, if_neg fun equal => same (Option.some.inj equal).symm]
    rfl

theorem reports_of_silence {url : String} {entry : Entry} (silent : entry.event? url = none) (topic : Topic) :
    entry.reports url topic = [] := by
  rw [reports, silent]
  rfl

theorem reports_taken (url : String) (frame : List UInt8) (topic : Topic) :
    reports url (.taken frame) topic =
      match topic with
      | .summary => (LogEvent.summary? frame).toList
      | .error .decode => (LogEvent.undecodable? url frame).toList
      | .error _ => [] := by
  cases frame with
  | nil =>
      rw [reports_of_silence rfl]
      rcases topic with - | kind
      · rfl
      · cases kind <;> rfl
  | cons byte rest =>
      cases decoded : Envelope.decode Payload.any (byte :: rest) with
      | ok envelope =>
          have called : event? url (.taken (byte :: rest)) = some (.summary envelope) := by
            simp only [event?, LogEvent.summary?, decoded, Option.some_or]
          rw [reports_of_event called (LogEvent.topic_summary envelope)]
          simp only [LogEvent.summary?, LogEvent.undecodable?, decoded]
          rcases topic with - | kind
          · rfl
          · cases kind <;> rfl
      | error error =>
          have called : event? url (.taken (byte :: rest)) = some (.undecodable url (byte :: rest) (.decode error)) := by
            simp only [event?, LogEvent.summary?, LogEvent.undecodable?, decoded, Option.none_or]
          rw [reports_of_event called rfl]
          simp only [LogEvent.summary?, LogEvent.undecodable?, decoded]
          rcases topic with - | kind
          · rfl
          · cases kind <;> rfl

variable (url : String) (entry : Entry)

private theorem filterMap_single {α β : Type} (pick : α → Option β) (item : α) : [item].filterMap pick = (pick item).toList := by
  cases picked : pick item <;> simp [picked]

theorem reports_summary : entry.reports url .summary = entry.frame?.toList.filterMap LogEvent.summary? := by
  cases entry with
  | nothing => rfl
  | taken frame => exact (reports_taken ..).trans (filterMap_single ..).symm
  | sinkReturn start failed => cases failed <;> rfl
  | lastRead link error => rfl
  | lostRead link error => exact reports_of_event rfl (LogEvent.topic_ofFailedRead url error) _
  | sendEnd how mark timeout => cases how <;> rfl

theorem reports_decode : entry.reports url (.error .decode) = entry.frame?.toList.filterMap (LogEvent.undecodable? url) := by
  cases entry with
  | nothing => rfl
  | taken frame => exact (reports_taken ..).trans (filterMap_single ..).symm
  | sinkReturn start failed => cases failed <;> rfl
  | lastRead link error => rfl
  | lostRead link error => exact reports_of_event rfl (LogEvent.topic_ofFailedRead url error) _
  | sendEnd how mark timeout => cases how <;> rfl

theorem reports_sink : (entry.reports url (.error .sink)).length = entry.sinkReturn?.toList.count true := by
  cases entry with
  | nothing => rfl
  | taken frame => exact congrArg List.length (reports_taken ..)
  | sinkReturn start failed => cases failed <;> rfl
  | lastRead link error => rfl
  | lostRead link error => exact congrArg List.length (reports_of_event rfl (LogEvent.topic_ofFailedRead url error) _)
  | sendEnd how mark timeout => cases how <;> rfl

end Entry

namespace Client

def frames (client : Client) : List (List UInt8) :=
  (seen Occurrence.frame? client.history).map Prod.snd

def sinkReturns (client : Client) : List Bool :=
  seen Occurrence.sinkReturn? client.history

def failedReads (client : Client) : List (Nat × TransportError) :=
  seen Occurrence.failedRead? client.history

def about (client : Client) (topic : Topic) : List LogEvent :=
  seen (Occurrence.about? topic) client.history

theorem about_eq (client : Client) (topic : Topic) :
    client.about topic = (client.records.map LogRecord.event).filter fun event => event.message ∈ topic.texts := by
  simp only [← LogEvent.topic_iff]
  rw [about, seen, records, List.map_reverse, List.filter_reverse, List.map_filterMap, List.filter_filterMap]
  congr 2
  funext entry
  rcases entry with ⟨time, occurrence⟩
  cases occurrence with
  | log event =>
      by_cases fits : event.topic? = some topic <;> simp [Occurrence.about?, LogEvent.about?, Option.filter, fits]
  | _ => rfl

/-- A client's books with one more entry. -/
structure Books (client client' : Client) (entry : Entry) : Prop where
  options : client'.options = client.options
  frames : client'.frames = client.frames ++ entry.frame?.toList
  sinkReturns : client'.sinkReturns = client.sinkReturns ++ entry.sinkReturn?.toList
  failedReads : client'.failedReads = client.failedReads ++ entry.failedRead?.toList
  about : ∀ topic, client'.about topic = client.about topic ++ entry.reports client.url topic
  received : client'.metrics.frames = client.metrics.frames + entry.frame?.toList.countP (· ≠ [])
  errors : ∀ kind, client'.metrics.errors kind = client.metrics.errors kind + (entry.reports client.url (.error kind)).length

/-- The counters and the records about frames, sink calls and errors are those that the history calls for. -/
structure Accounted (client : Client) : Prop where
  received : client.metrics.frames = client.frames.countP (· ≠ [])
  summaries : client.about .summary = client.frames.filterMap LogEvent.summary?
  refusals : client.about (.error .decode) = client.frames.filterMap (LogEvent.undecodable? client.url)
  rejections : (client.about (.error .sink)).length = client.sinkReturns.count true
  errors : ∀ kind, client.metrics.errors kind = (client.about (.error kind)).length

variable {client client' : Client} {stage stage' : Stage}

theorem accounted_make (number : Nat) (options : ClientOptions) (sink : SinkScript) :
    (Client.make number options sink).Accounted :=
  ⟨rfl, rfl, rfl, rfl, fun kind => by cases kind <;> rfl⟩

theorem Accounted.books (accounted : client.Accounted) {entry : Entry} (books : client.Books client' entry) :
    client'.Accounted where
  received := by rw [books.received, books.frames, List.countP_append, accounted.received]
  summaries := by
    rw [books.about, books.frames, List.filterMap_append, accounted.summaries, entry.reports_summary]
  refusals := by
    have url : client'.url = client.url := congrArg (fun options => options.endpoint.url) books.options
    rw [books.about, books.frames, List.filterMap_append, url, accounted.refusals, entry.reports_decode]
  rejections := by
    rw [books.about, books.sinkReturns, List.length_append, List.count_append, accounted.rejections, entry.reports_sink]
  errors kind := by rw [books.errors, books.about, List.length_append, accounted.errors]

theorem Books.enter {entry : Entry} (books : client.Books client' entry) (phase : Phase) :
    client.Books (client'.enter phase) entry :=
  ⟨books.options, books.frames, books.sinkReturns, books.failedReads, books.about, books.received, books.errors⟩

theorem Books.changeSlot {entry : Entry} (books : client.Books client' entry) (slot : Slot Nat) (gauge : Option Int) :
    client.Books { client' with slot, metrics := { client'.metrics with gauge } } entry :=
  ⟨books.options, books.frames, books.sinkReturns, books.failedReads, books.about, books.received,
    fun kind => (by cases kind <;> rfl : Metrics.errors _ kind = client'.metrics.errors kind).trans (books.errors kind)⟩

/-! ### What a move brings into the books -/

theorem Books.make {entry : Entry} (block : List (Nat × Occurrence)) (history : client'.history = block ++ client.history)
    (options : client'.options = client.options) (frames : (seen Occurrence.frame? block).map Prod.snd = entry.frame?.toList)
    (returns : seen Occurrence.sinkReturn? block = entry.sinkReturn?.toList)
    (failed : seen Occurrence.failedRead? block = entry.failedRead?.toList)
    (about : ∀ topic, seen (Occurrence.about? topic) block = entry.reports client.url topic)
    (received : client'.metrics.frames = client.metrics.frames + entry.frame?.toList.countP (· ≠ []))
    (errors : ∀ kind, client'.metrics.errors kind =
      client.metrics.errors kind + (entry.reports client.url (.error kind)).length) : client.Books client' entry where
  options := options
  frames := by rw [Client.frames, history, seen_append, List.map_append, frames, Client.frames]
  sinkReturns := by rw [Client.sinkReturns, history, seen_append, returns, Client.sinkReturns]
  failedReads := by rw [Client.failedReads, history, seen_append, failed, Client.failedReads]
  about topic := by rw [Client.about, history, seen_append, about, Client.about]
  received := received
  errors := errors

theorem Books.nothing (options : client'.options = client.options)
    (adds : OnlyAdds (·.isUncounted) client.history client'.history)
    (received : client'.metrics.frames = client.metrics.frames)
    (errors : ∀ kind, client'.metrics.errors kind = client.metrics.errors kind) : client.Books client' .nothing := by
  obtain ⟨block, history, uncounted⟩ := adds
  have unseen {α : Type} {view : Occurrence → Option α} (blind : ∀ occurrence, occurrence.isUncounted → view occurrence = none) :
      seen view block = [] := by
    rw [seen, List.filterMap_eq_nil_iff.mpr fun entry member => blind _ (uncounted entry member), List.reverse_nil]
  refine .make block history options ?_ ?_ ?_ ?_ received errors
  · rw [unseen fun occurrence fits => ?_]
    · rfl
    · cases occurrence <;> first | rfl | cases fits
  · refine unseen fun occurrence fits => ?_
    cases occurrence <;> first | rfl | cases fits
  · refine unseen fun occurrence fits => ?_
    cases occurrence <;> first | rfl | cases fits
  · refine fun topic => unseen fun occurrence fits => ?_
    cases occurrence with
    | log event =>
        have topicless : event.topic? = none := Option.isNone_iff_eq_none.mp fits
        rw [Occurrence.about?, LogEvent.about?, topicless]
        exact if_neg (by simp)
    | _ => rfl

private theorem books_of_quiet (options : client'.options = client.options)
    (adds : OnlyAdds (·.isUncounted) client.history client'.history)
    (metrics : ∃ gauge failures, client'.metrics = { client.metrics with gauge, dialFailures := failures }) :
    client.Books client' .nothing := by
  obtain ⟨gauge, failures, metrics⟩ := metrics
  refine .nothing options adds (by rw [metrics]) fun kind => ?_
  rw [metrics]
  cases kind <;> rfl

private theorem stop_quiet (client : Client) (stage : Stage) :
    (client.stop stage).1.options = client.options ∧
      OnlyAdds (·.isUncounted) client.history (client.stop stage).1.history ∧
        ∃ gauge, (client.stop stage).1.metrics = { client.metrics with gauge } := by
  rw [stop_eq]
  refine ⟨rfl, (OnlyAdds.of_eq rfl).cons _ rfl, ?_⟩
  cases client.slot.held <;> exact ⟨_, rfl⟩

private theorem EndsDial.quiet {episode : Episode} {ends : DialEnd}
    (ended : EndsDial client stage episode ends client' stage') :
    client'.options = client.options ∧ OnlyAdds (·.isUncounted) client.history client'.history ∧
      ∃ gauge failures, client'.metrics = { client.metrics with gauge, dialFailures := failures } := by
  have begun : OnlyAdds (·.isUncounted) client.history (client.note stage.now (.dialEnded ends)).history :=
    (OnlyAdds.of_eq rfl).cons _ rfl
  cases ended with
  | install isOpen changed =>
      obtain ⟨gauge, rfl⟩ := changeSlot_gauge changed
      exact ⟨rfl, (begun.cons _ rfl).cons _ rfl, _, _, rfl⟩
  | refuse stopped => exact ⟨rfl, begun.cons _ rfl, _, _, rfl⟩
  | fail => exact ⟨rfl, begun.cons _ (by cases episode <;> rfl), _, _, rfl⟩

private theorem errors_of_event {url : String} {entry : Entry} {event : LogEvent} {kind : ErrorKind}
    (called : entry.event? url = some event) (about : event.topic? = some (.error kind)) (metrics : Metrics) (other : ErrorKind) :
    (metrics.errorOccurred kind).errors other = metrics.errors other + (entry.reports url (.error other)).length := by
  rw [Entry.reports_of_event called about]
  cases kind <;> cases other <;> rfl

private theorem seen_report {url : String} {entry : Entry} {event : LogEvent} (called : entry.event? url = some event)
    (topic : Topic) (now : Nat) {occurrence : Occurrence} (reads : occurrence.read?.isSome) :
    seen (Occurrence.about? topic) [(now, .log event), (now, occurrence)] = entry.reports url topic := by
  have silent : occurrence.about? topic = none := by
    cases occurrence <;> first | rfl | cases reads
  rw [seen_cons, seen_skip _ silent, Entry.reports, called]
  rfl

private theorem event_of_decoded (url : String) {frame : List UInt8} {envelope : Envelope Json}
    (decoded : Envelope.decode Payload.any frame = .ok envelope) :
    (Entry.taken frame).event? url = some (.summary envelope) := by
  simp only [Entry.event?, LogEvent.summary?, decoded, Option.some_or]

private theorem received_of_filled {frame : List UInt8} (filled : frame ≠ []) {metrics : Metrics} :
    metrics.frameReceived.frames = metrics.frames + [frame].countP (· ≠ []) := by
  rw [List.countP_singleton, if_pos (decide_eq_true filled)]
  rfl

private theorem TakesFrame.books {now link : Nat} {frame : List UInt8}
    (takes : TakesFrame (client.note now (.read link (.ok frame))) now frame client') : client.Books client' (.taken frame) := by
  cases takes with
  | blank empty =>
      subst empty
      exact .make [(now, .read link (.ok []))] rfl rfl rfl rfl rfl (fun topic => (Entry.reports_of_silence rfl topic).symm)
        rfl fun kind => by rw [Entry.reports_of_silence rfl]; rfl
  | @undecodable error filled refused =>
      obtain ⟨byte, rest, rfl⟩ := List.exists_cons_of_ne_nil filled
      have called : (Entry.taken (byte :: rest)).event? client.url =
          some (.undecodable client.url (byte :: rest) (.decode error)) := by
        simp only [Entry.event?, LogEvent.summary?, LogEvent.undecodable?, refused, Option.none_or]
      exact .make [(now, .log (.undecodable client.url (byte :: rest) (.decode error))), (now, .read link (.ok (byte :: rest)))]
        rfl rfl rfl rfl rfl (seen_report called · _ rfl) rfl (errors_of_event called rfl _)
  | @pass envelope phase filled decoded uncalled next =>
      have called := event_of_decoded client.url decoded
      refine .make [(now, .log (.summary envelope)), (now, .read link (.ok frame))] rfl rfl rfl rfl rfl
        (seen_report called · _ rfl) (received_of_filled filled) fun kind => ?_
      rw [Entry.reports_of_event called (LogEvent.topic_summary envelope)]
      rfl
  | @apply envelope call filled decoded calls =>
      have called := event_of_decoded client.url decoded
      refine .make [(now, .applied call), (now, .log (.summary envelope)), (now, .read link (.ok frame))] rfl rfl rfl rfl rfl
        (fun topic => (seen_skip _ rfl _ _).trans (seen_report called topic _ rfl)) (received_of_filled filled) fun kind => ?_
      rw [Entry.reports_of_event called (LogEvent.topic_summary envelope)]
      rfl

private theorem books_of_lostRead (client : Client) (now : Nat) (error : TransportError) :
    client.Books ((client.log now (client.readReport error)).count .read) (.lostRead none error) := by
  have called : (Entry.lostRead none error).event? client.url = some (client.readReport error) := rfl
  refine .make [(now, .log (client.readReport error))] rfl rfl rfl rfl rfl (fun topic => ?_) rfl ?_
  · rw [seen_cons, Entry.reports, called]
    rfl
  · exact errors_of_event called (LogEvent.topic_ofFailedRead client.url error) _

private theorem books_of_drop (client : Client) (now link : Nat) (error : TransportError) :
    client.Books (((client.note now (.read link (.error error))).log now (client.readReport error)).count .read)
      (.lostRead (some link) error) := by
  have called : (Entry.lostRead (some link) error).event? client.url = some (client.readReport error) := rfl
  exact .make [(now, .log (client.readReport error)), (now, .read link (.error error))] rfl rfl rfl rfl rfl
    (seen_report called · _ rfl) rfl (errors_of_event called (LogEvent.topic_ofFailedRead client.url error) _)

private theorem endSink_books (client : Client) (now start : Nat) (mark : Option Nat) :
    client.Books (client.endSink now start mark) (.sinkReturn start client.sink.fails) := by
  have options := (client.endSink_kept now start mark).2.1
  have metrics := client.endSink_metrics now start mark
  have history := client.endSink_history now start mark
  cases fails : client.sink.fails with
  | false =>
      rw [fails] at metrics history
      refine .make [(now, .sinkReturned false)] history options rfl rfl rfl (fun topic => ?_) ?_ fun kind => ?_
      · exact (Entry.reports_of_silence rfl topic).symm
      · rw [metrics]
        rfl
      · rw [metrics, Entry.reports_of_silence rfl]
        rfl
  | true =>
      rw [fails] at metrics history
      have called : (Entry.sinkReturn start true).event? client.url = some (.sinkFailed start sinkRejection) := rfl
      refine .make [(now, .log (.sinkFailed start sinkRejection)), (now, .sinkReturned true)] history options rfl rfl rfl
        (fun topic => ?_) ?_ fun kind => ?_
      · rw [seen_cons, seen_skip _ rfl, Entry.reports, called]
        rfl
      · rw [metrics]
        rfl
      · rw [metrics]
        exact errors_of_event called rfl _ kind

private theorem endSend_books (client : Client) (now mark : Nat) (how : SendEnd) :
    client.Books (client.endSend now mark how) (.sendEnd how mark client.options.confirmationTimeout) := by
  obtain ⟨-, options, -, -, -, -, -, metrics⟩ := client.endSend_kept now mark how
  have history := client.endSend_history now mark how
  have silent {how : SendEnd} (quiet : how.report? mark client.options.confirmationTimeout = none) (topic : Topic) :
      (Entry.sendEnd how mark client.options.confirmationTimeout).reports client.url topic = [] := by
    rw [Entry.reports, Entry.event?, quiet]
    rfl
  cases how with
  | delivered =>
      refine .make [(now, .delivered mark)] history options rfl rfl rfl (fun topic => (silent rfl topic).symm) ?_ fun kind => ?_
      · rw [metrics]
        rfl
      · rw [metrics, silent rfl]
        rfl
  | timedOut =>
      refine .make [(now, .log (.channelFull mark client.options.confirmationTimeout))] history options rfl rfl rfl
        (fun topic => seen_cons ..) ?_ fun kind => ?_
      · rw [metrics]
        rfl
      · rw [metrics]
        exact errors_of_event rfl rfl _ kind
  | closed =>
      refine .make [(now, .log (.channelClosed mark))] history options rfl rfl rfl (fun topic => seen_cons ..) ?_ fun kind => ?_
      · rw [metrics]
        rfl
      · rw [metrics]
        exact errors_of_event rfl rfl _ kind
  | abandoned =>
      refine .make [] history options rfl rfl rfl (fun topic => (silent rfl topic).symm) ?_ fun kind => ?_
      · rw [metrics]
        rfl
      · rw [metrics, silent rfl]
        rfl

/-- What an entry says about the move that brings it. A read is lost where its connection is closed. -/
def FitsMove (client : Client) (stage stage' : Stage) : Entry → Prop
  | .taken _ => ∀ link, stage'.closesOf link = stage.closesOf link
  | .lastRead _ _ => client.shouldStop = true ∧ ∀ link, stage'.closesOf link = stage.closesOf link
  | .lostRead (some link) _ => client.shouldStop = false ∧ client.phase.isReading = true ∧ link < stage.links.length ∧
      ∀ other, stage'.closesOf other = stage.closesOf other + if other = link then 1 else 0
  | .lostRead none _ => client.shouldStop = false ∧ client.phase = .looping ∧ client.slot.held = none
  | _ => client.phase.isReading = false

theorem Moves.books (consistent : client.Consistent stage) (moves : client.Moves stage client' stage') :
    ∃ entry, client.Books client' entry ∧ client.FitsMove stage stage' entry := by
  cases moves with
  | pass passes =>
      refine ⟨_, books_of_quiet rfl (.of_eq rfl) ⟨_, _, rfl⟩, ?_⟩
      cases passes with
      | abandon here =>
          change client.phase.isReading = false
          cases phase : client.phase <;> first | rfl | (rw [phase] at here; cases here)
      | skip here | giveUp here | retry here | endBackOff here | redial here | handOver here | leave here
      | leaveUnconnected here | beginRead here | letGo here | letGoInLine here => exact congrArg Phase.isReading here
  | skipCancelled here enabled isOpen cancelled =>
      exact ⟨_, books_of_quiet rfl ((OnlyAdds.of_eq rfl).cons _ rfl) ⟨_, _, rfl⟩, congrArg Phase.isReading here⟩
  | dial here enabled isOpen going next =>
      have logged : OnlyAdds (·.isUncounted) client.history (client.log stage.now (.connecting client.url)).history :=
        (OnlyAdds.of_eq rfl).cons _ rfl
      exact ⟨_, books_of_quiet rfl (logged.cons _ rfl) ⟨_, _, rfl⟩, congrArg Phase.isReading here⟩
  | @endDial episode ends stops due _ _ here going late ended =>
      obtain ⟨options, adds, gauge, failures, metrics⟩ := ended.quiet
      cases stops with
      | false => exact ⟨_, books_of_quiet options adds ⟨_, _, metrics⟩, congrArg Phase.isReading here⟩
      | true =>
          obtain ⟨options', adds', gauge', metrics'⟩ := stop_quiet client { stage with stopAsked := true }
          refine ⟨_, books_of_quiet (options.trans options') (adds'.trans adds) ⟨gauge, failures, metrics.trans ?_⟩,
            congrArg Phase.isReading here⟩
          rw [beforeOutcome, if_pos rfl, metrics']
  | takeFrame here reads takes => exact ⟨_, takes.books, reads.closes⟩
  | @endReading link since error around here fails stopping =>
      have books : client.Books (client.note stage.now (.read link (.error error))) (.lastRead link error) :=
        .make [(stage.now, .read link (.error error))] rfl rfl rfl rfl rfl (fun topic => rfl) rfl fun kind => rfl
      exact ⟨_, books.enter .idle, stopping, fails.closes⟩
  | @drop link since error around next last here fails going changed =>
      have held := consistent.held_of_reading here (going_of_shouldStop going).2
      obtain ⟨rfl, rfl⟩ := changeSlot_discard changed held
      have inside := consistent.held link held
      refine ⟨_, ((books_of_drop client stage.now link error).changeSlot _ _).enter _, going, congrArg Phase.isReading here,
        inside, fun other => ?_⟩
      have there : ∀ held, some link = some held → held < around.links.length := by
        rintro _ ⟨⟩
        exact fails.later.length.symm ▸ inside
      have closed : (around.closeHeld (some link)).closesOf other = _ := Stage.closesOf_closeHeld there
      rw [closed, fails.closes]
      simp only [Option.some.injEq, eq_comm]
  | reconnect here unconnected going =>
      exact ⟨_, (books_of_lostRead client stage.now .notConnected).enter _, going, here, unconnected⟩
  | @endSink start due mark here late => exact ⟨_, endSink_books .., congrArg Phase.isReading here⟩
  | getInLine here observed sent => exact ⟨_, books_of_quiet rfl (.of_eq rfl) ⟨_, _, rfl⟩, congrArg Phase.isReading here⟩
  | @endSend mark how channel channel' observed ends =>
      refine ⟨_, endSend_books .., ?_⟩
      cases ends with
      | atOnce here | inLine here => exact congrArg Phase.isReading here

theorem Acts.books (acts : client.Acts stage client' stage') :
    client.Books client' .nothing ∨ client.move? stage = some (client', stage') := by
  cases acts with
  | start starts =>
      cases starts with
      | report barred known =>
          refine .inl (books_of_quiet rfl ((OnlyAdds.of_eq rfl).cons _ ?_) ⟨_, _, rfl⟩)
          rcases known with rfl | rfl <;> rfl
      | first enabled unstarted => exact .inl (books_of_quiet rfl (.of_eq rfl) ⟨_, _, rfl⟩)
  | cancel => exact .inl (books_of_quiet rfl (.of_eq rfl) ⟨_, _, rfl⟩)
  | stop =>
      obtain ⟨options, adds, gauge, metrics⟩ := stop_quiet client stage
      exact .inl (books_of_quiet options adds ⟨gauge, _, metrics⟩)
  | move moves => exact .inr moves

theorem Books.numbered {entry : Entry} (books : client.Books client' entry) (lastMove : Nat) :
    client.Books { client' with lastMove } entry :=
  ⟨books.options, books.frames, books.sinkReturns, books.failedReads, books.about, books.received, books.errors⟩

theorem books_of_move (consistent : client.Consistent stage) (moved : client.move? stage = some (client', stage')) :
    ∃ entry, client.Books client' entry ∧ client.FitsMove stage stage' entry := by
  obtain ⟨next, around, moves, rfl, rfl⟩ := moves_of_move moved
  obtain ⟨entry, books, fits⟩ := moves.books consistent
  refine ⟨entry, books.numbered _, ?_⟩
  cases entry with
  | lostRead link error => cases link <;> exact fits
  | _ => exact fits

theorem Accounted.acts (accounted : client.Accounted) (consistent : client.Consistent stage)
    (acts : client.Acts stage client' stage') : client'.Accounted := by
  rcases acts.books with books | moved
  · exact accounted.books books
  · obtain ⟨entry, books, -⟩ := books_of_move consistent moved
    exact accounted.books books

end Client

/-! ### What a reader loses -/

def Stage.closedUntil (before after : Stage) : List Nat :=
  (List.range before.links.length).filter fun link => before.closesOf link < after.closesOf link

theorem Stage.closedUntil_none {before after : Stage} (same : ∀ link, after.closesOf link = before.closesOf link) :
    before.closedUntil after = [] := by
  simp [closedUntil, same]

theorem Stage.closedUntil_one {before after : Stage} {link : Nat} (inside : link < before.links.length)
    (closed : ∀ other, after.closesOf other = before.closesOf other + if other = link then 1 else 0) :
    before.closedUntil after = [link] := by
  have only (other : Nat) : decide (before.closesOf other < after.closesOf other) = (other == link) := by
    rw [closed]
    by_cases same : other = link <;> simp [same]
  simp only [closedUntil, only]
  rw [List.filter_beq, List.count_range, if_pos inside, List.replicate_one]

namespace ClientRun

/-- The reads that fail in a move, unless the client is to stop. -/
def lost (run : ClientRun) (after : Client) : List (Nat × TransportError) :=
  if run.client.shouldStop then [] else after.failedReads.drop run.client.failedReads.length

/-- The connections that a move closes with which a read ends. -/
def closedByReader (run : ClientRun) (after : Stage) : List Nat :=
  if run.client.phase.isReading then run.stage.closedUntil after else []

/-- A run from its opening on, with the reads that failed while the client was not to stop, and the connections that
its reader closed. -/
inductive Course : ClientRun → List (Nat × TransportError) → List Nat → Prop
  | opening {stage : Stage} (opens : stage.Opening) (options : ClientOptions) (sink : SinkScript) :
      Course (make stage options sink) [] []
  | move {run : ClientRun} {losses : List (Nat × TransportError)} {closed : List Nat} {client : Client} {stage : Stage}
      (course : Course run losses closed) (moves : run.client.move? run.stage = some (client, stage)) :
      Course { run with client, stage } (losses ++ run.lost client) (closed ++ run.closedByReader stage)
  | aside {run next : ClientRun} {losses : List (Nat × TransportError)} {closed : List Nat}
      (course : Course run losses closed) (step : run.Step next) (unmoved : next.stage.moves = run.stage.moves) :
      Course next losses closed

variable {run : ClientRun} {losses : List (Nat × TransportError)} {closed : List Nat}

theorem Course.reachable (course : run.Course losses closed) : run.Reachable := by
  induction course with
  | @opening stage opens options sink => exact ⟨stage, options, sink, opens, .refl⟩
  | move course moves ih => exact ih.later (.single (.move moves))
  | aside course step unmoved ih => exact ih.later step.reaches

theorem Reachable.course (reachable : run.Reachable) : ∃ losses closed, run.Course losses closed := by
  obtain ⟨stage, options, sink, opens, reaches⟩ := reachable
  induction reaches with
  | refl => exact ⟨_, _, .opening opens options sink⟩
  | @tail before after reaches step ih =>
      obtain ⟨losses, closed, course⟩ := ih
      cases step with
      | move moves => exact ⟨_, _, course.move moves⟩
      | start => exact ⟨_, _, course.aside .start rfl⟩
      | cancel => exact ⟨_, _, course.aside .cancel rfl⟩
      | stop =>
          obtain ⟨links, same⟩ := Client.stop_links before.client before.stage
          refine ⟨_, _, course.aside .stop ?_⟩
          change (before.client.stop before.stage).2.moves = _
          rw [same]
      | around changes => exact ⟨_, _, course.aside (.around changes) changes.moves⟩
      | collect => exact ⟨_, _, course.aside .collect (congrArg Stage.moves (collect_kept _).2)⟩

theorem Reachable.accounted (reachable : run.Reachable) : run.client.Accounted :=
  reachable.invariant (fun client _ => client.Accounted) (fun _ options sink _ => Client.accounted_make 0 options sink)
    (fun before accounted acts => accounted.acts before.consistent acts) fun accounted _ => accounted

private theorem lost_of_fits (reachable : run.Reachable) {client : Client} {stage : Stage} {entry : Entry}
    (started : run.client.started = true) (books : run.client.Books client entry)
    (fits : run.client.FitsMove run.stage stage entry) :
    entry.reports run.client.url (.error .read) =
        (run.lost client).map (fun loss => .ofFailedRead run.client.url loss.2) ∧
      run.closedByReader stage = (run.lost client).map Prod.fst := by
  have lost : run.lost client = if run.client.shouldStop then [] else entry.failedRead?.toList := by
    rw [ClientRun.lost, books.failedReads, List.drop_left]
  -- a move that reads nothing and reports no read
  have aside (quiet : entry.reports run.client.url (.error .read) = []) (reads : entry.failedRead? = none)
      (untouched : run.closedByReader stage = []) : entry.reports run.client.url (.error .read) =
        (run.lost client).map (fun loss => .ofFailedRead run.client.url loss.2) ∧
      run.closedByReader stage = (run.lost client).map Prod.fst := by
    rw [lost, reads, Option.toList_none, ite_self, quiet, untouched]
    exact ⟨rfl, rfl⟩
  have elsewhere (unread : run.client.phase.isReading = false) : run.closedByReader stage = [] :=
    if_neg (ne_true_of_eq_false unread)
  have unclosed (same : ∀ link, stage.closesOf link = run.stage.closesOf link) : run.closedByReader stage = [] := by
    rw [closedByReader, Stage.closedUntil_none same, ite_self]
  cases entry with
  | nothing => exact aside rfl rfl (elsewhere fits)
  | taken frame => exact aside (Entry.reports_taken ..) rfl (unclosed fits)
  | sinkReturn start failed => exact aside (by cases failed <;> rfl) rfl (elsewhere fits)
  | sendEnd how mark timeout => exact aside (by cases how <;> rfl) rfl (elsewhere fits)
  | lastRead link error =>
      obtain ⟨stopping, same⟩ := fits
      rw [lost, if_pos stopping, unclosed same]
      exact ⟨rfl, rfl⟩
  | lostRead link error =>
      cases link with
      | none =>
          -- a task that looks for no connection has one until it is to stop
          obtain ⟨going, here, unconnected⟩ := fits
          have connected := (reachable.endures.lives started going).connected (by rw [here]; rfl)
          rw [Client.isConnected, unconnected] at connected
          cases connected
      | some link =>
          obtain ⟨going, reading, inside, closes⟩ := fits
          rw [lost, if_neg (ne_true_of_eq_false going), closedByReader, if_pos reading,
            Stage.closedUntil_one inside closes]
          exact ⟨Entry.reports_of_event rfl (LogEvent.topic_ofFailedRead ..) _, rfl⟩

/-- What a reader has lost is what is reported about reads, and each connection it lost was closed by it. -/
structure Mourns (run : ClientRun) (losses : List (Nat × TransportError)) (closed : List Nat) : Prop where
  reports : run.client.about (.error .read) = losses.map fun loss => .ofFailedRead run.client.url loss.2
  connections : closed = losses.map Prod.fst
  counted : ∀ link, closed.count link ≤ run.stage.closesOf link

private theorem closedByReader_counted (run : ClientRun) {stage : Stage} (later : run.stage.Later stage) (link : Nat) :
    run.stage.closesOf link + (run.closedByReader stage).count link ≤ stage.closesOf link := by
  unfold closedByReader
  split
  · by_cases more : run.stage.closesOf link < stage.closesOf link
    · have once : (run.stage.closedUntil stage).count link ≤ 1 :=
        List.nodup_iff_count.mp (List.nodup_range.filter _) link
      omega
    · have none : (run.stage.closedUntil stage).count link = 0 :=
        List.count_eq_zero.mpr fun member => more (of_decide_eq_true (List.mem_filter.mp member).2)
      rw [none]
      exact later.closes link
  · exact later.closes link

theorem Mourns.move (mourns : run.Mourns losses closed) (reachable : run.Reachable) {client : Client} {stage : Stage}
    (moves : run.client.move? run.stage = some (client, stage)) :
    Mourns { run with client, stage } (losses ++ run.lost client) (closed ++ run.closedByReader stage) := by
  obtain ⟨entry, books, fits⟩ := Client.books_of_move reachable.consistent moves
  have started : run.client.started = true := by
    obtain ⟨_, _, moved, _, _⟩ := Client.moves_of_move moves
    exact reachable.consistent.phase.started moved.task
  have url : client.url = run.client.url := congrArg (fun options => options.endpoint.url) books.options
  obtain ⟨reports, connections⟩ := lost_of_fits reachable started books fits
  refine ⟨?_, ?_, fun link => ?_⟩
  · rw [books.about, mourns.reports, reports, ← url, List.map_append]
  · rw [mourns.connections, connections, List.map_append]
  · have acts : run.client.Acts run.stage client stage := .move moves
    rw [List.count_append]
    exact Nat.le_trans (Nat.add_le_add_right (mourns.counted link) _) (run.closedByReader_counted acts.later link)

theorem Mourns.aside (mourns : run.Mourns losses closed) {next : ClientRun} (step : run.Step next)
    (unmoved : next.stage.moves = run.stage.moves) : next.Mourns losses closed := by
  rcases step.acts with acts | ⟨same, kept⟩
  · rcases acts.books with books | moved
    · have url : next.client.url = run.client.url := congrArg (fun options => options.endpoint.url) books.options
      refine ⟨?_, mourns.connections, fun link => Nat.le_trans (mourns.counted link) (acts.later.closes link)⟩
      rw [books.about, Entry.reports_of_silence rfl, List.append_nil, url, mourns.reports]
    · -- a move is numbered, so it is nothing else
      obtain ⟨_, around, moves, _, numbered⟩ := Client.moves_of_move moved
      obtain ⟨scripts, links, channel, stopAsked, rfl⟩ := moves.surroundings
      rw [numbered] at unmoved
      exact absurd unmoved (Nat.succ_ne_self _)
  · refine ⟨by rw [same]; exact mourns.reports, mourns.connections, fun link => Nat.le_trans (mourns.counted link) ?_⟩
    rcases kept with kept | changes
    · exact Nat.le_of_eq (by rw [kept])
    · exact Nat.le_of_eq (changes.grows.closes link).symm

theorem Course.mourns (course : run.Course losses closed) : run.Mourns losses closed := by
  induction course with
  | opening opens options sink => exact ⟨rfl, rfl, fun link => Nat.zero_le _⟩
  | move course moves ih => exact ih.move course.reachable moves
  | aside course step unmoved ih => exact ih.aside step unmoved

/-- In every reachable state the counters about frames, sink calls and reads are exact, and so are the records that go
with them. The frames received are those that were read and are not empty; each is decoded and summed up in one record,
whatever its version, or it is reported as an error. Rejections of the sink are counted and reported one by one. And
so are the reads that failed before the client was to stop; the reader has closed the connection of each of them. -/
theorem Reachable.frames_and_errors_are_counted (reachable : run.Reachable) :
    let client := run.client
    let events := client.records.map LogRecord.event
    let about (topic : Topic) := events.filter fun event => event.message ∈ topic.texts
    let decoded := client.frames.filterMap fun frame => (Envelope.decode Payload.any frame).toOption
    (client.metrics.frames = (client.frames.filter (· ≠ [])).length ∧
      client.metrics.frames = decoded.length + client.metrics.errors .decode) ∧
    (client.metrics.errors .decode = (about (.error .decode)).length ∧
      client.metrics.errors .decode =
        (client.frames.filter fun frame => frame ≠ [] ∧ (Envelope.decode Payload.any frame).toOption.isNone).length) ∧
    (about .summary = decoded.map LogEvent.summary ∧
      ∀ envelope ∈ decoded, (LogEvent.summary envelope).level = .debug ∧ (LogEvent.summary envelope).message =
        if envelope.messages ≠ [] then "received batch item"
        else if envelope.confirmed ≠ none then "confirmed sequence number"
        else "received broadcast with no messages populated") ∧
    (client.metrics.errors .sink = client.sinkReturns.count true ∧
      client.metrics.errors .sink = (about (.error .sink)).length) ∧
    (∃ losses closed, run.Course losses closed) ∧
    ∀ losses closed, run.Course losses closed →
      client.metrics.errors .read = losses.length ∧
      about (.error .read) = losses.map (fun loss =>
        if loss.2.isIdleTimeout then .silent client.url loss.2 else .readFailed client.url loss.2) ∧
      closed = losses.map Prod.fst ∧ closed.Nodup := by
  intro client events about decoded
  have accounted := reachable.accounted
  have same (topic : Topic) : about topic = client.about topic := (client.about_eq topic).symm
  have refusals : client.metrics.errors .decode = (client.frames.filterMap (LogEvent.undecodable? client.url)).length := by
    rw [accounted.errors, accounted.refusals]
  have rejections : client.metrics.errors .sink = (client.about (.error .sink)).length := accounted.errors .sink
  refine ⟨⟨?_, ?_⟩, ⟨?_, ?_⟩, ⟨?_, fun envelope _ => LogEvent.message_summary envelope⟩, ⟨?_, ?_⟩, reachable.course,
    fun losses closed course => ?_⟩
  · rw [← List.countP_eq_length_filter]
    exact accounted.received
  · rw [refusals, ← LogEvent.countP_frames]
    exact accounted.received
  · rw [same]
    exact accounted.errors .decode
  · rw [refusals, List.length_filterMap_eq_countP, List.countP_eq_length_filter]
    simp only [LogEvent.undecodable_isSome]
  · rw [same, accounted.summaries, List.map_filterMap]
    exact List.filterMap_congr fun frame _ => LogEvent.summary_eq frame
  · exact rejections.trans accounted.rejections
  · rw [same]
    exact rejections
  · have mourns := course.mourns
    have once : closed.Nodup := by
      refine List.nodup_iff_count.mpr fun link => Nat.le_trans (mourns.counted link) ?_
      rw [reachable.accounts.closes]
      split <;> decide
    refine ⟨?_, (same _).trans mourns.reports, mourns.connections, once⟩
    rw [accounted.errors, mourns.reports, List.length_map]

/-- Of four frames the first one is empty, the second one is no envelope, and the sink rejects the others. Then the
connection fails, the next one stays silent for too long, and a stop ends the read from the third one. -/
theorem Reachable.frames_and_errors_are_counted_through_failures :
    let options := (ClientOptions.standard "ws://feed").withIdleTimeout (.ofSeconds 2)
    let run := (make (Stage.planned [("ws://feed", [⟨.connect "first", 0, false⟩, ⟨.connect "second", 0, false⟩,
      ⟨.connect "third", 0, false⟩])] none) options ⟨true, 0⟩).play
        [.push "first" (.ok []) 1, .push "first" (.ok [0]) 1, .push "first" (.ok (batchFrame 7 [.null])) 2,
          .push "first" (.error scriptedFailure) 1, .start, .sleep 4000, .stop]
    run.client.metrics.frames = 3 ∧ run.client.metrics.errors .decode = 1 ∧ run.client.metrics.errors .sink = 2 ∧
      ∃ losses closed, run.Course losses closed ∧ losses.length = 2 ∧ closed.length = 2 := by
  intro options run
  have reachable : run.Reachable := reachable_play (.planned ..) _ _ _
  obtain ⟨⟨received, -⟩, ⟨-, refused⟩, -, ⟨rejected, -⟩, ⟨losses, closed, course⟩, reads⟩ :=
    reachable.frames_and_errors_are_counted
  obtain ⟨counted, -, connections, -⟩ := reads losses closed course
  obtain ⟨filled, undecodable, rejections, failures⟩ : (run.client.frames.filter (· ≠ [])).length = 3 ∧
      (run.client.frames.filter fun frame =>
        frame ≠ [] ∧ (Envelope.decode Payload.any frame).toOption.isNone).length = 1 ∧
      run.client.sinkReturns.count true = 2 ∧ run.client.metrics.errors .read = 2 := by
    decide +kernel
  have lost : losses.length = 2 := counted.symm.trans failures
  refine ⟨received.trans filled, refused.trans undecodable, rejected.trans rejections, losses, closed, course, lost, ?_⟩
  rw [connections, List.length_map, lost]

end ClientRun

end SequencedFeed
