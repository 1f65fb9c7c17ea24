import Mathlib.Data.List.Induction
import SequencedFeed.Proofs.SessionReads
set_option autoImplicit false

/-!
# How sessions end

A session ends by a close message, by a message that is too big, or by the peer hanging up, and
the reader learns of it behind the last message. A stream tells an account of the peer: the messages, and
then its farewell. The read behind the last message reports the farewell, in every schedule of arrivals
and polls. A close message is reported as a closed connection; a peer that hangs up without one is
reported as a fault of the connection, once, and only behind that as closed.
-/

namespace SequencedFeed

namespace WebSocket

/-! ### Accounts -/

/-- What a peer has told so far: messages for the reader and, if the peer has parted, its farewell. -/
structure Account where
  messages : List PeerMessage
  farewell : Option Item

namespace Account

def none : Account :=
  { messages := [], farewell := .none }

def items (told : Account) : List Item :=
  told.messages.map Item.message ++ told.farewell.toList

/-- What the read at a place has to give, counted from 0; `none` if it has to wait. Behind the farewell
every read has to find the connection closed. -/
def answer? (told : Account) (place : Nat) : Option ReadResult :=
  match told.messages[place]? with
  | some message => some (.ok message.frame)
  | .none =>
      told.farewell.map fun farewell =>
        if place = told.messages.length then farewell.result else .error .closed

/-- A later account of the same peer. After a farewell there is nothing more to tell. -/
structure Grows (earlier later : Account) : Prop where
  messages : earlier.messages <+: later.messages
  farewell : earlier.farewell ≠ .none → later = earlier

end Account

/-- A stream tells an account: it gives the messages in order, each as soon as it is tried for, then the
farewell, and after that at most that it has ended. -/
structure MessageStream.Tells {Piece State : Type} (stream : MessageStream Piece State) (start : State)
    (account : List Piece → Account) : Prop where
  grows : ∀ (pieces : List Piece) (piece : Piece),
    (account pieces).Grows (account (pieces ++ [piece]))
  stays : ∀ (pieces : List Piece), ∀ message ∈ (account pieces).messages, message.isBye = false
  next : ∀ {pieces : List Piece} {given : Nat} {pending : Bool} {state : State},
    stream.Reached start pieces given pending state → given ≤ (account pieces).messages.length →
      (stream.next state).1 = (account pieces).items[given]?
  behind : ∀ {pieces : List Piece} {given : Nat} {pending : Bool} {state : State},
    stream.Reached start pieces given pending state → (account pieces).messages.length < given →
      (account pieces).farewell ≠ none ∧ ∀ item, (stream.next state).1 = some item → item = .ended

theorem Item.result_message {message : PeerMessage} (stays : message.isBye = false) :
    (Item.message message).result = .ok message.frame := by
  rw [Item.result, stays]
  rfl

namespace Account

variable {told : Account}

theorem item_of_message {place : Nat} {message : PeerMessage}
    (here : told.messages[place]? = some message) : told.items[place]? = some (.message message) := by
  have within : place < told.messages.length := (List.getElem?_eq_some_iff.mp here).1
  rw [items, List.getElem?_append_left (by rwa [List.length_map]), List.getElem?_map, here]
  rfl

theorem item_of_length : told.items[told.messages.length]? = told.farewell := by
  have length : (told.messages.map Item.message).length = told.messages.length := List.length_map _
  rw [items, List.getElem?_append_right (Nat.le_of_eq length), length, Nat.sub_self]
  cases told.farewell <;> rfl

theorem answer_eq (stays : ∀ message ∈ told.messages, message.isBye = false) {place : Nat}
    (within : place ≤ told.messages.length) :
    told.answer? place = told.items[place]?.map Item.result := by
  rcases Nat.lt_or_eq_of_le within with before | rfl
  · have here : told.messages[place]? = some told.messages[place] := List.getElem?_eq_getElem before
    rw [answer?, here, item_of_message here, Option.map_some,
      Item.result_message (stays _ (List.getElem_mem before))]
  · rw [answer?, List.getElem?_eq_none (Nat.le_refl _), item_of_length]
    simp only [if_pos]

theorem answer_behind {place : Nat} (beyond : told.messages.length < place)
    (parted : told.farewell ≠ .none) : told.answer? place = some (.error .closed) := by
  obtain ⟨farewell, here⟩ := Option.ne_none_iff_exists'.mp parted
  rw [answer?, List.getElem?_eq_none (Nat.le_of_lt beyond), here]
  simp only [Option.map_some, if_neg (Nat.ne_of_gt beyond)]

theorem Grows.answer {later : Account} (grows : told.Grows later) {place : Nat} {result : ReadResult}
    (known : told.answer? place = some result) : later.answer? place = some result := by
  cases parted : told.farewell with
  | some farewell =>
      rw [grows.farewell (by rw [parted]; exact Option.some_ne_none _)]
      exact known
  | none =>
      cases here : told.messages[place]? with
      | none =>
          rw [answer?, here, parted] at known
          cases known
      | some message =>
          obtain ⟨rest, longer⟩ := grows.messages
          have within : place < told.messages.length := (List.getElem?_eq_some_iff.mp here).1
          rw [answer?, here] at known
          rw [answer?, ← longer, List.getElem?_append_left within, here]
          exact known

end Account

/-! ### Reads that wait for the end -/

def ConnectionStep.isPatient {Piece : Type} : ConnectionStep Piece → Bool
  | .read idle => idle = Duration.zero
  | .close => false
  | _ => true

theorem getElem?_concat_cases {α : Type} {list : List α} {last found : α} {place : Nat}
    (here : (list ++ [last])[place]? = some found) :
    list[place]? = some found ∨ place = list.length ∧ found = last := by
  rcases Nat.lt_or_ge place list.length with before | behind
  · rw [List.getElem?_append_left before] at here
    exact .inl here
  · have within := (List.getElem?_eq_some_iff.mp here).1
    rw [List.length_append, List.length_singleton] at within
    obtain rfl : place = list.length := by omega
    rw [List.getElem?_concat_length] at here
    exact .inr ⟨rfl, (Option.some.inj here).symm⟩

namespace Connection

variable {Piece State : Type} {stream : MessageStream Piece State} {start : State}
  {account : List Piece → Account} {pieces : List Piece} {connection : Connection State}
  {pending : PendingRead}

variable (stream start account) in
/-- A connection whose reads have no deadline and are never closed from this side, after `pieces` have
come. The stream has given one item to each read that has ended. -/
structure Attentive (pieces : List Piece) (connection : Connection State) : Prop where
  reached : stream.Reached start pieces connection.finished.length connection.locked connection.stream
  lock : connection.locked = connection.reading.any PendingRead.holds
  opened : connection.closed = false
  patient : ∀ pending, connection.reading = some pending →
    pending.idle = Duration.zero ∧ pending.fired = false
  results : ∀ place read, connection.finished[place]? = some read →
    (account pieces).answer? place = some read.result

variable (stream start account) in
structure Listening (pieces : List Piece) (connection : Connection State) : Prop
    extends Attentive stream start account pieces connection where
  asleep : connection.reading ≠ none → connection.woken = false →
    connection.finished.length ≤ (account pieces).messages.length →
    (account pieces).answer? connection.finished.length = none

theorem fresh_listening : Listening stream start account [] (fresh start) where
  reached := .start
  lock := rfl
  opened := rfl
  patient _ here := by cases here
  results _ _ here := by cases here
  asleep busy := absurd rfl busy

theorem Attentive.free (attentive : Attentive stream start account pieces connection)
    (here : connection.reading = some pending) : (connection.locked && !pending.holds) = false := by
  rw [attentive.lock, here]
  exact Bool.and_not_self _

theorem Attentive.answer (attentive : Attentive stream start account pieces connection)
    (tells : stream.Tells start account) {item : Item}
    (found : (stream.next connection.stream).1 = some item) :
    (account pieces).answer? connection.finished.length = some item.result := by
  rcases Nat.lt_or_ge (account pieces).messages.length connection.finished.length with beyond | within
  · obtain ⟨parted, ends⟩ := tells.behind attentive.reached beyond
    rw [Account.answer_behind beyond parted, ends item found]
    rfl
  · rw [Account.answer_eq (tells.stays pieces) within, ← tells.next attentive.reached within, found]
    rfl

theorem Attentive.takes (attentive : Attentive stream start account pieces connection)
    (tells : stream.Tells start account) (here : connection.reading = some pending) {item : Item}
    (found : (stream.next connection.stream).1 = some item) :
    connection.Polled (connection.ask stream pending) pending
        ((account pieces).answer? connection.finished.length) ∧
      Listening stream start account pieces (connection.ask stream pending) := by
  rw [attentive.answer tells found, ask_takes (attentive.free here) found]
  refine ⟨⟨rfl, rfl⟩, ⟨?_, rfl, attentive.opened, ?_, ?_⟩, fun busy => absurd rfl busy⟩
  · change stream.Reached start pieces (connection.finished ++ [_]).length false _
    rw [List.length_append]
    exact .give attentive.reached found
  · intro other same
    cases same
  · intro place read ended
    rcases getElem?_concat_cases ended with before | ⟨rfl, rfl⟩
    · exact attentive.results place read before
    · exact attentive.answer tells found

theorem Attentive.waits (attentive : Attentive stream start account pieces connection)
    (tells : stream.Tells start account) (here : connection.reading = some pending)
    (nothing : (stream.next connection.stream).1 = none) :
    connection.Polled (connection.ask stream pending) pending none ∧
      Listening stream start account pieces (connection.ask stream pending) := by
  obtain ⟨limit, unfired⟩ := attentive.patient pending here
  rw [ask_waits (attentive.free here) nothing]
  refine ⟨⟨rfl, rfl⟩, ⟨.wait attentive.reached nothing, rfl, attentive.opened, ?_, attentive.results⟩, ?_⟩
  · intro other same
    cases same
    exact ⟨limit, unfired⟩
  · intro _ _ within
    rw [Account.answer_eq (tells.stays pieces) within, ← tells.next attentive.reached within, nothing]
    rfl

theorem Attentive.poll (attentive : Attentive stream start account pieces connection)
    (tells : stream.Tells start account) (here : connection.reading = some pending) :
    (connection.finished.length ≤ (account pieces).messages.length →
      connection.Polled (connection.poll stream) pending
        ((account pieces).answer? connection.finished.length)) ∧
      Listening stream start account pieces (connection.poll stream) := by
  rw [poll_asks here attentive.opened (attentive.patient pending here).2]
  cases next : (stream.next connection.stream).1 with
  | some item => exact (attentive.takes tells here next).imp_left fun polled _ => polled
  | none =>
      refine (attentive.waits tells here next).imp_left fun polled within => ?_
      rw [Account.answer_eq (tells.stays pieces) within, ← tells.next attentive.reached within, next]
      exact polled

theorem Attentive.begin (attentive : Attentive stream start account pieces connection)
    (free : connection.reading = none) :
    Attentive stream start account pieces (connection.begin Duration.zero) where
  reached := attentive.reached
  lock := by
    rw [Connection.begin, attentive.lock, free]
    rfl
  opened := attentive.opened
  patient pending here := by
    cases here
    exact ⟨rfl, rfl⟩
  results := attentive.results

theorem Attentive.arrive (attentive : Attentive stream start account pieces connection)
    (tells : stream.Tells start account) (piece : Piece) :
    Attentive stream start account (pieces ++ [piece]) (connection.step stream (.arrive piece)) where
  reached := .arrive piece attentive.reached
  lock := attentive.lock
  opened := attentive.opened
  patient := attentive.patient
  results place read ended := (tells.grows pieces piece).answer (attentive.results place read ended)

theorem Attentive.fire (attentive : Attentive stream start account pieces connection) :
    connection.fire = connection := by
  rcases fire_cases connection with same | ⟨pending, here, limited, -, -⟩
  · exact same
  · exact absurd (attentive.patient pending here).1 limited

theorem Listening.step (listening : Listening stream start account pieces connection)
    (tells : stream.Tells start account) {step : ConnectionStep Piece} (patient : step.isPatient = true) :
    Listening stream start account (pieces ++ step.piece?.toList) (connection.step stream step) := by
  cases step with
  | arrive piece =>
      exact ⟨listening.toAttentive.arrive tells piece, fun _ asleep => by cases asleep⟩
  | close => cases patient
  | read idle =>
      rw [show pieces ++ (ConnectionStep.read idle).piece?.toList = pieces from List.append_nil pieces]
      cases here : connection.reading with
      | none =>
          have unlimited : idle = Duration.zero := of_decide_eq_true patient
          rw [Connection.step, read_free here, unlimited]
          exact ((listening.toAttentive.begin here).poll tells rfl).2
      | some pending =>
          rw [Connection.step, read_busy here]
          exact listening
  | pass millis =>
      rw [show pieces ++ (ConnectionStep.pass millis).piece?.toList = pieces from List.append_nil pieces]
      exact ⟨⟨listening.reached, listening.lock, listening.opened, listening.patient, listening.results⟩,
        listening.asleep⟩
  | fire =>
      rw [show pieces ++ ConnectionStep.fire.piece?.toList = pieces from List.append_nil pieces,
        Connection.step, listening.fire]
      exact listening
  | poll =>
      rw [show pieces ++ ConnectionStep.poll.piece?.toList = pieces from List.append_nil pieces]
      cases here : connection.reading with
      | none =>
          rw [Connection.step, poll_idle here]
          exact listening
      | some pending => exact (listening.toAttentive.poll tells here).2

theorem Listening.run (listening : Listening stream start account pieces connection)
    (tells : stream.Tells start account) {steps : List (ConnectionStep Piece)}
    (patient : ∀ step ∈ steps, step.isPatient = true) :
    Listening stream start account (pieces ++ arrivals steps) (connection.run stream steps) := by
  induction steps generalizing connection pieces with
  | nil =>
      rw [arrivals, List.filterMap_nil, List.append_nil]
      exact listening
  | cons step rest ih =>
      rw [arrivals_cons, ← List.append_assoc]
      exact ih (listening.step tells (patient step List.mem_cons_self))
        fun later member => patient later (List.mem_cons_of_mem _ member)

/-- How a connection answers an account of the peer: every read that has ended has the answer for its
place; up to the farewell a poll gives the answer at once, the first poll of a new read included; and
a read that nothing has woken has no answer yet. -/
structure Heeding (stream : MessageStream Piece State) (told : Account) (connection : Connection State) :
    Prop where
  results : ∀ place read, connection.finished[place]? = some read → told.answer? place = some read.result
  read : connection.finished.length ≤ told.messages.length → connection.reading = none →
    connection.Polled (connection.read stream Duration.zero)
      (PendingRead.first connection.now Duration.zero) (told.answer? connection.finished.length)
  poll : connection.finished.length ≤ told.messages.length → ∀ pending,
    connection.reading = some pending →
    connection.Polled (connection.poll stream) pending (told.answer? connection.finished.length)
  asleep : connection.finished.length ≤ told.messages.length → connection.reading ≠ none →
    connection.woken = false → told.answer? connection.finished.length = none

theorem Listening.heeding (listening : Listening stream start account pieces connection)
    (tells : stream.Tells start account) : connection.Heeding stream (account pieces) where
  results := listening.results
  read within free := by
    rw [read_free free]
    exact ((listening.toAttentive.begin free).poll tells rfl).1 within
  poll within pending here := (listening.toAttentive.poll tells here).1 within
  asleep within busy asleep := listening.asleep busy asleep within

end Connection

/-! ### What a session tells -/

def PeerMessage.item (message : PeerMessage) : Item :=
  if message.isTooBig then .fault message.tooBigReason else .message message

/-- The farewell of a peer that parts in a step: a close message, a message that is too big, or hanging up. -/
def PeerStep.farewell? : PeerStep → Option Item
  | .send message => if message.isOrdinary then none else some message.item
  | .drop => some (.fault Session.resetReason)

/-- What a reader hears of the step in which the peer parts. -/
def PeerStep.report : PeerStep → ReadResult
  | .send last => last.result
  | .drop => .error Session.reset

/-- The account behind one more step. After the farewell no step counts. -/
def Account.hear (told : Account) (step : PeerStep) : Account :=
  match told.farewell with
  | some _ => told
  | .none =>
      match step.farewell? with
      | some farewell => { told with farewell := some farewell }
      | .none => { told with messages := told.messages ++ step.message?.toList }

theorem PeerStep.report_of_farewell {ending : PeerStep} {farewell : Item}
    (parts : ending.farewell? = some farewell) : farewell.result = ending.report := by
  cases ending with
  | drop =>
      cases parts
      rfl
  | send last =>
      rw [farewell?] at parts
      split at parts
      · cases parts
      · cases parts
        exact Session.result_item last

theorem PeerStep.report_closed_iff (ending : PeerStep) :
    ending.report = .error .closed ↔
      ∃ reason, ending = .send (.bye reason) ∧ (PeerMessage.bye reason).isTooBig = false := by
  constructor
  · intro closed
    cases ending with
    | drop => cases closed
    | send last =>
        change last.result = _ at closed
        unfold PeerMessage.result at closed
        cases big : last.isTooBig with
        | true =>
            rw [if_pos big] at closed
            cases closed
        | false =>
            rw [if_neg (by rw [big]; exact Bool.false_ne_true)] at closed
            cases last with
            | bye reason => exact ⟨reason, rfl, big⟩
            | text content cuts => cases closed
            | binary content cuts => cases closed
            | ping content => cases closed
            | pong content => cases closed
  · rintro ⟨reason, rfl, small⟩
    exact if_neg (by rw [small]; exact Bool.false_ne_true)

theorem PeerMessage.item_of_ordinary {message : PeerMessage} (ordinary : message.isOrdinary = true) :
    message.item = .message message := by
  rw [isOrdinary, Bool.and_eq_true, Bool.not_eq_true'] at ordinary
  rw [item, ordinary.1, if_neg Bool.false_ne_true]

namespace Account

variable {told : Account}

theorem hear_parted (parted : told.farewell ≠ .none) (step : PeerStep) : told.hear step = told := by
  obtain ⟨farewell, here⟩ := Option.ne_none_iff_exists'.mp parted
  rw [hear, here]

theorem hear_farewell (staying : told.farewell = .none) {step : PeerStep} {farewell : Item}
    (ends : step.farewell? = some farewell) :
    told.hear step = { told with farewell := some farewell } := by
  simp only [hear, staying, ends]

theorem hear_send (staying : told.farewell = .none) {message : PeerMessage}
    (ordinary : message.isOrdinary = true) :
    told.hear (.send message) = { told with messages := told.messages ++ [message] } := by
  have goes_on : (PeerStep.send message).farewell? = .none := if_pos ordinary
  simp only [hear, staying, goes_on]
  rfl

theorem grows_hear (told : Account) (step : PeerStep) : told.Grows (told.hear step) := by
  cases staying : told.farewell with
  | some farewell =>
      rw [hear_parted (by rw [staying]; exact Option.some_ne_none _)]
      exact ⟨List.prefix_refl _, fun _ => rfl⟩
  | none =>
      refine ⟨?_, fun parted => absurd staying parted⟩
      simp only [hear, staying]
      cases step.farewell? with
      | some farewell => exact List.prefix_refl _
      | none => exact List.prefix_append _ _

theorem ordinary_hear (ordinary : ∀ message ∈ told.messages, message.isOrdinary = true)
    (step : PeerStep) : ∀ message ∈ (told.hear step).messages, message.isOrdinary = true := by
  cases staying : told.farewell with
  | some farewell =>
      rw [hear_parted (by rw [staying]; exact Option.some_ne_none _)]
      exact ordinary
  | none =>
      cases ends : step.farewell? with
      | some farewell =>
          rw [hear_farewell staying ends]
          exact ordinary
      | none =>
          cases step with
          | drop => cases ends
          | send message =>
              have usual : message.isOrdinary = true := by
                by_contra other
                rw [PeerStep.farewell?, if_neg other] at ends
                cases ends
              rw [hear_send staying usual]
              intro other member
              rcases List.mem_append.mp member with before | last
              · exact ordinary other before
              · rwa [List.mem_singleton.mp last]

end Account

namespace Session

def account (steps : List PeerStep) : Account :=
  steps.foldl Account.hear Account.none

theorem account_append_singleton (steps : List PeerStep) (step : PeerStep) :
    account (steps ++ [step]) = (account steps).hear step :=
  List.foldl_append

theorem account_ordinary (steps : List PeerStep) :
    ∀ message ∈ (account steps).messages, message.isOrdinary = true := by
  induction steps using List.reverseRecOn with
  | nil => exact fun _ member => absurd member List.not_mem_nil
  | append_singleton steps step ih =>
      rw [account_append_singleton]
      exact Account.ordinary_hear ih step

theorem account_messages {messages : List PeerMessage}
    (ordinary : ∀ message ∈ messages, message.isOrdinary = true) :
    account (messages.map .send) = { messages, farewell := none } := by
  induction messages using List.reverseRecOn with
  | nil => rfl
  | append_singleton messages message ih =>
      have before := ih fun other member => ordinary other (List.mem_append_left _ member)
      rw [List.map_append, List.map_singleton, account_append_singleton, before,
        Account.hear_send rfl (ordinary message List.mem_concat_self)]

theorem foldl_hear_parted {told : Account} (parted : told.farewell ≠ none) (steps : List PeerStep) :
    steps.foldl Account.hear told = told := by
  induction steps with
  | nil => rfl
  | cons step rest ih => rw [List.foldl_cons, Account.hear_parted parted, ih]

/-- The account of a whole session: its messages and the farewell, whatever the peer does behind it. -/
theorem account_whole {messages : List PeerMessage}
    (ordinary : ∀ message ∈ messages, message.isOrdinary = true) {ending : PeerStep} {farewell : Item}
    (ends : ending.farewell? = some farewell) (rest : List PeerStep) :
    account (messages.map .send ++ ending :: rest) = { messages, farewell := some farewell } := by
  have before : (messages.map PeerStep.send).foldl Account.hear Account.none =
      { messages, farewell := none } := account_messages ordinary
  rw [account, List.foldl_append, before, List.foldl_cons, Account.hear_farewell rfl ends]
  exact foldl_hear_parted (Option.some_ne_none _) rest

/-- Where a session stands that has given `given` items of an account: under way without a farewell,
with a last message or the end of the peer still to be reported, or behind the farewell. -/
inductive Standing (session : Session) (told : Account) (given : Nat) : Prop
  | underWay (within : given ≤ told.messages.length) (staying : told.farewell = none)
      (lively : session.Lively (told.messages.drop given))
  | leaving (within : given ≤ told.messages.length) (last : PeerMessage) (later : List PeerMessage)
      (unusual : last.isOrdinary = false) (farewell : told.farewell = some last.item)
      (stretch : session.stretch = .underWay)
      (queue : session.queue = told.messages.drop given ++ last :: later)
      (silent : last.isTooBig = false → later = [] ∧ session.peerSilent = true)
  | left (within : given ≤ told.messages.length)
      (farewell : told.farewell = some (.fault resetReason)) (stretch : session.stretch = .underWay)
      (queue : session.queue = told.messages.drop given) (silent : session.peerSilent = true)
      (gone : session.peerGone = true)
  | behind (beyond : told.messages.length < given) (parted : told.farewell ≠ none)
      (ended : session.stretch = .over ∨
        session.stretch = .parted ∧ session.queue = [] ∧ session.peerSilent = true)

theorem send_silent {session : Session} (silent : session.peerSilent = true) (message : PeerMessage) :
    session.send message = session := by
  rw [send, if_pos silent]

theorem next_cons {session : Session} {message : PeerMessage} {rest : List PeerMessage}
    (stretch : session.stretch = .underWay) (queue : session.queue = message :: rest) :
    session.next = (some message.item,
      { session with queue := rest, stretch := Stretch.underWay.behind message }) := by
  rw [next, stretch, if_neg (by decide), queue]
  rfl

theorem next_gone {session : Session} (stretch : session.stretch = .underWay) (queue : session.queue = [])
    (gone : session.peerGone = true) :
    session.next = (some (.fault resetReason), { session with stretch := .over }) := by
  rw [next, stretch, if_neg (by decide), queue, gone]
  rfl

namespace Standing

variable {session : Session} {told : Account} {given : Nat}

theorem leaves {message : PeerMessage} (within : given ≤ told.messages.length) (staying : told.farewell = none)
    (lively : session.Lively (told.messages.drop given)) (usual : message.isOrdinary = false) :
    (session.send message).Standing (told.hear (.send message)) given := by
  have ends : (PeerStep.send message).farewell? = some message.item :=
    if_neg (by rw [usual]; exact Bool.false_ne_true)
  have sent : session.send message =
      { session with queue := session.queue ++ [message], peerSilent := message.isBye } := by
    rw [send, lively.peerSilent, if_neg Bool.false_ne_true]
  rw [Account.hear_farewell staying ends, sent]
  refine .leaving within message [] usual rfl lively.stretch ?_ ?_
  · rw [lively.queue]
  · intro small
    rw [PeerMessage.isOrdinary, small] at usual
    exact ⟨rfl, by simpa using usual⟩

theorem arrive (standing : session.Standing told given) (step : PeerStep) :
    (stream.arrive step session).Standing (told.hear step) given := by
  cases standing with
  | underWay within staying lively =>
      cases step with
      | drop =>
          rw [Account.hear_farewell staying rfl]
          exact .left within rfl lively.stretch lively.queue rfl rfl
      | send message =>
          cases usual : message.isOrdinary with
          | true =>
              rw [Account.hear_send staying usual]
              refine .underWay ?_ staying ?_
              · rw [List.length_append]
                exact Nat.le_add_right_of_le within
              · rw [List.drop_append_of_le_length within]
                exact lively.send usual
          | false => exact leaves within staying lively usual
  | leaving within last later unusual farewell stretch queue silent =>
      rw [Account.hear_parted (by rw [farewell]; exact Option.some_ne_none _)]
      cases step with
      | drop =>
          exact .leaving within last later unusual farewell stretch queue
            fun small => ⟨(silent small).1, rfl⟩
      | send message =>
          change (session.send message).Standing _ _
          cases quiet : session.peerSilent with
          | true =>
              rw [send_silent quiet]
              exact .leaving within last later unusual farewell stretch queue silent
          | false =>
              rw [send, quiet, if_neg Bool.false_ne_true]
              refine .leaving within last (later ++ [message]) unusual farewell stretch ?_ ?_
              · rw [queue, List.append_assoc]
                rfl
              · intro small
                rw [(silent small).2] at quiet
                cases quiet
  | left within farewell stretch queue silent gone =>
      rw [Account.hear_parted (by rw [farewell]; exact Option.some_ne_none _)]
      cases step with
      | drop => exact .left within farewell stretch queue rfl rfl
      | send message =>
          change (session.send message).Standing _ _
          rw [send_silent silent]
          exact .left within farewell stretch queue silent gone
  | behind beyond parted ended =>
      rw [Account.hear_parted parted]
      cases step with
      | drop =>
          rcases ended with reported | ⟨stretch, queue, -⟩
          · exact .behind beyond parted (.inl reported)
          · exact .behind beyond parted (.inr ⟨stretch, queue, rfl⟩)
      | send message =>
          change (session.send message).Standing _ _
          rcases ended with reported | ⟨stretch, queue, silent⟩
          · refine .behind beyond parted (.inl ?_)
            rw [send]
            split <;> exact reported
          · rw [send_silent silent]
            exact .behind beyond parted (.inr ⟨stretch, queue, silent⟩)

theorem next_ordinary {message : PeerMessage} {rest : List PeerMessage}
    (ordinary : message.isOrdinary = true) (stretch : session.stretch = .underWay)
    (queue : session.queue = message :: rest) :
    session.next = (some (.message message), { session with queue := rest }) := by
  have usual := ordinary
  rw [PeerMessage.isOrdinary, Bool.and_eq_true, Bool.not_eq_true', Bool.not_eq_true'] at usual
  rw [next_cons stretch queue, PeerMessage.item_of_ordinary ordinary, Stretch.behind, usual.1, usual.2,
    if_neg Bool.false_ne_true, if_neg Bool.false_ne_true, ← stretch]

theorem next_message (standing : session.Standing told given)
    (ordinary : ∀ message ∈ told.messages, message.isOrdinary = true)
    (before : given < told.messages.length) :
    session.next.1 = told.items[given]? ∧ session.next.2.Standing told (given + 1) := by
  have usual : told.messages[given].isOrdinary = true := ordinary _ (List.getElem_mem before)
  have waiting : told.messages.drop given = told.messages[given] :: told.messages.drop (given + 1) :=
    List.drop_eq_getElem_cons before
  rw [Account.item_of_message (List.getElem?_eq_getElem before)]
  cases standing with
  | underWay within staying lively =>
      rw [waiting] at lively
      rw [next_ordinary usual lively.stretch lively.queue]
      exact ⟨rfl, .underWay before staying ⟨rfl, lively.peerSilent, lively.peerGone, lively.stretch⟩⟩
  | leaving within last later unusual farewell stretch queue silent =>
      rw [waiting, List.cons_append] at queue
      rw [next_ordinary usual stretch queue]
      exact ⟨rfl, .leaving before last later unusual farewell stretch rfl silent⟩
  | left within farewell stretch queue silent gone =>
      rw [waiting] at queue
      rw [next_ordinary usual stretch queue]
      exact ⟨rfl, .left before farewell stretch rfl silent gone⟩
  | behind beyond parted ended => exact absurd before (Nat.lt_asymm beyond)

theorem next_farewell (standing : session.Standing told told.messages.length) :
    session.next.1 = told.farewell ∧
      ∀ item, session.next.1 = some item → session.next.2.Standing told (told.messages.length + 1) := by
  have beyond : told.messages.length < told.messages.length + 1 := Nat.lt_succ_self _
  have parted {farewell : Item} (here : told.farewell = some farewell) : told.farewell ≠ none := by
    rw [here]
    exact Option.some_ne_none _
  cases standing with
  | underWay within staying lively =>
      rw [List.drop_length] at lively
      rw [lively.next_nil, staying]
      exact ⟨rfl, fun item found => by cases found⟩
  | leaving within last later unusual farewell stretch queue silent =>
      rw [List.drop_length, List.nil_append] at queue
      rw [next_cons stretch queue, farewell]
      refine ⟨rfl, fun item _ => .behind beyond (parted farewell) ?_⟩
      cases big : last.isTooBig with
      | true => exact .inl (if_pos big)
      | false =>
          rw [PeerMessage.isOrdinary, big] at unusual
          have bye : last.isBye = true := by simpa using unusual
          obtain ⟨empty, quiet⟩ := silent big
          refine .inr ⟨?_, empty, quiet⟩
          change Stretch.underWay.behind last = .parted
          rw [Stretch.behind, big, bye, if_neg Bool.false_ne_true, if_pos rfl]
  | left within farewell stretch queue silent gone =>
      rw [List.drop_length] at queue
      rw [next_gone stretch queue gone, farewell]
      exact ⟨rfl, fun item _ => .behind beyond (parted farewell) (.inl rfl)⟩
  | behind beyond => exact absurd beyond (Nat.lt_irrefl _)

theorem next_behind (standing : session.Standing told given) (beyond : told.messages.length < given) :
    told.farewell ≠ none ∧ ∀ item, session.next.1 = some item →
      item = .ended ∧ session.next.2.Standing told (given + 1) := by
  cases standing with
  | underWay within => exact absurd within (Nat.not_le_of_lt beyond)
  | leaving within => exact absurd within (Nat.not_le_of_lt beyond)
  | left within => exact absurd within (Nat.not_le_of_lt beyond)
  | behind _ parted ended =>
      refine ⟨parted, ?_⟩
      have later : told.messages.length < given + 1 := Nat.lt_succ_of_lt beyond
      rcases ended with reported | ⟨stretch, queue, silent⟩
      · have next : session.next = (some .ended, session) := if_pos reported
        rw [next]
        exact fun item found => ⟨(Option.some.inj found).symm, .behind later parted (.inl reported)⟩
      · have going : session.stretch ≠ .over := by
          rw [stretch]
          decide
        rw [Session.next, if_neg going, queue, stretch]
        cases session.peerGone with
        | false => exact fun item found => by cases found
        | true => exact fun item found => ⟨(Option.some.inj found).symm, .behind later parted (.inl rfl)⟩

end Standing

theorem standing_of_reached {steps : List PeerStep} {given : Nat} {pending : Bool} {session : Session}
    (reached : stream.Reached fresh steps given pending session) :
    session.Standing (account steps) given := by
  induction reached with
  | start => exact .underWay (Nat.le_refl 0) rfl ⟨rfl, rfl, rfl, rfl⟩
  | @arrive steps given pending session step before ih =>
      rw [account_append_singleton]
      exact ih.arrive step
  | @wait steps given pending session before nothing ih =>
      rw [show (stream.next session).2 = session from next_pending nothing]
      exact ih
  | @give steps given pending session item before found ih =>
      rcases Nat.lt_trichotomy given (account steps).messages.length with early | rfl | beyond
      · exact (ih.next_message (account_ordinary steps) early).2
      · exact ih.next_farewell.2 item found
      · exact ((ih.next_behind beyond).2 item found).2
  | abandon before ih => exact ih

theorem tells : stream.Tells fresh account where
  grows steps step := by
    rw [account_append_singleton]
    exact Account.grows_hear _ step
  stays steps message member := by
    have ordinary := account_ordinary steps message member
    rw [PeerMessage.isOrdinary, Bool.and_eq_true, Bool.not_eq_true', Bool.not_eq_true'] at ordinary
    exact ordinary.2
  next {steps given pending session} reached within := by
    have standing := standing_of_reached reached
    rcases Nat.lt_or_eq_of_le within with early | rfl
    · exact (standing.next_message (account_ordinary steps) early).1
    · rw [Account.item_of_length]
      exact standing.next_farewell.1
  behind {steps given pending session} reached beyond := by
    obtain ⟨parted, ends⟩ := (standing_of_reached reached).next_behind beyond
    exact ⟨parted, fun item found => (ends item found).1⟩

end Session

/-- A hang-up without a close message is no closed connection to the reader, although the stream has
come to its end: the stream gives a fault, and the read reports it. -/
theorem hang_up_reported_as_fault :
    let connection := (Connection.fresh Session.fresh).run Session.stream
      [.arrive (.send (.text "last")), .arrive .drop, .read Duration.zero, .read Duration.zero]
    connection.finished.map EndedRead.result = [.ok [108, 97, 115, 116], .error (.io Session.resetReason)] := by
  decide

/-- Reads without a deadline heed what the peer tells, in every schedule. Of a session that has ended
they return the frame of every message in order, then the report of its end, and then that the
connection is closed. The report is that it is closed just if the end was a close message. -/
theorem reads_end_with_session (steps : List (ConnectionStep PeerStep))
    (patient : ∀ step ∈ steps, step.isPatient = true) :
    let connection := (Connection.fresh Session.fresh).run Session.stream steps
    let told := Session.account (arrivals steps)
    connection.Heeding Session.stream told ∧
      ∀ (messages : List PeerMessage) (ending : PeerStep) (rest : List PeerStep),
        (∀ message ∈ messages, message.isOrdinary = true) → ending.farewell? ≠ none →
        arrivals steps = messages.map .send ++ ending :: rest →
        told.messages = messages ∧
          (∀ place message, messages[place]? = some message →
            told.answer? place = some (.ok message.frame)) ∧
          told.answer? messages.length = some ending.report ∧
          (∀ place, messages.length < place → told.answer? place = some (.error .closed)) ∧
          (ending.report = .error .closed ↔
            ∃ reason, ending = .send (.bye reason) ∧ (PeerMessage.bye reason).isTooBig = false) := by
  intro connection told
  have listening : Connection.Listening Session.stream Session.fresh Session.account (arrivals steps)
      connection := Connection.fresh_listening.run Session.tells patient
  refine ⟨listening.heeding Session.tells, fun messages ending rest ordinary parts sent => ?_⟩
  obtain ⟨farewell, ends⟩ := Option.ne_none_iff_exists'.mp parts
  have whole : told = { messages, farewell := some farewell } := by
    rw [← Session.account_whole ordinary ends rest, ← sent]
  rw [whole]
  refine ⟨rfl, fun place message here => ?_, ?_, fun place beyond => ?_, ending.report_closed_iff⟩
  · rw [Account.answer?, here]
  · rw [Account.answer?, List.getElem?_eq_none (Nat.le_refl _), ← PeerStep.report_of_farewell ends]
    exact congrArg some (if_pos rfl)
  · exact Account.answer_behind beyond (Option.some_ne_none _)

/-- A peer that sends a text and a ping, takes its leave and hangs up, with a read under way for each. -/
def courteousSteps : List (ConnectionStep PeerStep) :=
  [.read Duration.zero, .arrive (.send (.text "last")), .poll, .arrive (.send (.ping [1])),
    .read Duration.zero, .read Duration.zero, .pass 7, .arrive (.send (.bye (some "enough"))), .poll,
    .arrive .drop, .read Duration.zero]

theorem reads_end_with_session_of_courteous_peer :
    let connection := (Connection.fresh Session.fresh).run Session.stream courteousSteps
    let told := Session.account (arrivals courteousSteps)
    connection.Heeding Session.stream told ∧
      connection.finished.map EndedRead.result =
        [.ok [108, 97, 115, 116], .ok [], .error .closed, .error .closed] ∧
      told.answer? 2 = some (.error .closed) := by
  intro connection told
  obtain ⟨heeding, whole⟩ := reads_end_with_session courteousSteps (by decide)
  obtain ⟨-, -, report, -⟩ := whole [.text "last", .ping [1]] (.send (.bye (some "enough"))) [.drop]
    (by decide) (by decide) (by decide)
  exact ⟨heeding, by decide, report⟩

end WebSocket

end SequencedFeed
