import Mathlib.Data.List.Basic
import SequencedFeed.WebSocket.Reading
set_option autoImplicit false

/-!
# Streams that convey whole messages

What a reader relies on: whatever has arrived, however often a `next` was tried and given up, the next
item is the next of the whole messages, and there is none before that message is whole. A session does
so, and so does every scanner that takes the bytes of the peer one at a time and keeps what it has taken
of a message in its own state. A decoder of frames is such a scanner.
-/

namespace SequencedFeed

namespace WebSocket

theorem lt_of_drop_eq_cons {α : Type} {list rest : List α} {first : α} {count : Nat}
    (here : list.drop count = first :: rest) : count < list.length := by
  have lengths := congrArg List.length here
  rw [List.length_drop, List.length_cons] at lengths
  omega

namespace MessageStream

variable {Piece State : Type} (stream : MessageStream Piece State)

/-- The states that a stream may come to, with the pieces that have arrived, how many items it has
given, and whether a `next` is pending. -/
inductive Reached (start : State) : List Piece → Nat → Bool → State → Prop
  | start : Reached start [] 0 false start
  | arrive {pieces : List Piece} {given : Nat} {pending : Bool} {state : State} (piece : Piece)
      (before : Reached start pieces given pending state) :
      Reached start (pieces ++ [piece]) given pending (stream.arrive piece state)
  | wait {pieces : List Piece} {given : Nat} {pending : Bool} {state : State}
      (before : Reached start pieces given pending state) (nothing : (stream.next state).1 = none) :
      Reached start pieces given true (stream.next state).2
  | give {pieces : List Piece} {given : Nat} {pending : Bool} {state : State} {item : Item}
      (before : Reached start pieces given pending state) (found : (stream.next state).1 = some item) :
      Reached start pieces (given + 1) false (stream.next state).2
  | abandon {pieces : List Piece} {given : Nat} {state : State}
      (before : Reached start pieces given true state) :
      Reached start pieces given false (stream.abandon state)

/-- While the pieces of `sent` arrive, a stream gives their whole messages in order, each as soon as it
is tried for. In particular an abandoned `next` takes nothing with it. -/
structure Conveys (start : State) (sent : List Piece) (whole : List Piece → List PeerMessage) :
    Prop where
  grows : ∀ (pieces : List Piece) (piece : Piece), pieces ++ [piece] <+: sent →
    whole pieces <+: whole (pieces ++ [piece])
  next : ∀ {pieces : List Piece} {given : Nat} {pending : Bool} {state : State}, pieces <+: sent →
    stream.Reached start pieces given pending state →
    (stream.next state).1 = (whole pieces)[given]?.map Item.message

end MessageStream

/-! ### Sizes of messages -/

theorem sum_frameSizes (size : Nat) (cuts : List Nat) : (frameSizes size cuts).foldr (· + ·) 0 = size := by
  induction cuts generalizing size with
  | nil => exact Nat.add_zero size
  | cons cut cuts ih =>
      rw [frameSizes, List.foldr_cons, ih]
      omega

theorem excess?_isSome {before : Nat} (fits : before ≤ mostMessageBytes) (frames : List Nat) :
    (excess? before frames).isSome = true ↔
      (∃ frame ∈ frames, mostFrameBytes < frame) ∨ mostMessageBytes < before + frames.foldr (· + ·) 0 := by
  induction frames generalizing before with
  | nil => simp [excess?, Nat.not_lt_of_le fits]
  | cons frame frames ih =>
      rw [excess?, List.exists_mem_cons_iff, List.foldr_cons, ← Nat.add_assoc]
      by_cases large : mostFrameBytes < frame
      · simp [large]
      · rw [if_neg large]
        by_cases long : mostMessageBytes < before + frame
        · have total : mostMessageBytes < before + frame + frames.foldr (· + ·) 0 := Nat.lt_add_right _ long
          simp [long, total]
        · rw [if_neg long, ih (Nat.le_of_not_lt long)]
          simp [large]

namespace PeerMessage

/-- However a text or binary message is cut into frames, none of them may be too large, and all its bytes
together may not be too many. -/
theorem isTooBig_iff_of_data {message : PeerMessage} (data : message.controlSize? = none) :
    message.isTooBig = true ↔
      (∃ frame ∈ message.frames, mostFrameBytes < frame) ∨ mostMessageBytes < message.frame.length := by
  have whole : message.frames.foldr (· + ·) 0 = message.frame.length := by
    cases message with
    | text content cuts => exact sum_frameSizes _ cuts
    | binary content cuts => exact sum_frameSizes _ cuts
    | ping | pong => cases data
    | bye reason => cases reason <;> cases data
  rw [isTooBig, data, Option.any_none, Bool.or_false, excess?_isSome (Nat.zero_le _), Nat.zero_add, whole]

/-- The limits of frames and messages say nothing about a control message that is within its own. -/
theorem isTooBig_iff_of_control {message : PeerMessage} {size : Nat} (control : message.controlSize? = some size) :
    message.isTooBig = true ↔ mostControlBytes < size := by
  have alone : message.frames = [size] := by
    cases message with
    | text | binary => cases control
    | ping | pong | bye => exact congrArg Option.toList control
  have smaller : mostControlBytes < mostFrameBytes ∧ mostControlBytes < mostMessageBytes := by decide
  rw [isTooBig, control, Option.any_some, Bool.or_eq_true, decide_eq_true_iff, alone,
    excess?_isSome (Nat.zero_le _), List.exists_mem_cons_iff, List.foldr_cons, List.foldr_nil]
  simp only [List.not_mem_nil, false_and, exists_false, or_false]
  omega

end PeerMessage

/-! ### Sessions -/

/-- Whether a stream gives a message as such, and another one may follow it. -/
def PeerMessage.isOrdinary (message : PeerMessage) : Bool :=
  !message.isTooBig && !message.isBye

def PeerStep.message? : PeerStep → Option PeerMessage
  | .send message => some message
  | .drop => none

namespace Session

structure Lively (session : Session) (waiting : List PeerMessage) : Prop where
  queue : session.queue = waiting
  peerSilent : session.peerSilent = false
  peerGone : session.peerGone = false
  stretch : session.stretch = .underWay

theorem Lively.send {session : Session} {waiting : List PeerMessage} (lively : session.Lively waiting)
    {message : PeerMessage} (ordinary : message.isOrdinary = true) :
    (session.send message).Lively (waiting ++ [message]) := by
  have more : message.isBye = false := by
    rw [PeerMessage.isOrdinary, Bool.and_eq_true, Bool.not_eq_true', Bool.not_eq_true'] at ordinary
    exact ordinary.2
  rw [Session.send, lively.peerSilent, if_neg Bool.false_ne_true]
  exact ⟨congrArg (· ++ [message]) lively.queue, more, lively.peerGone, lively.stretch⟩

theorem Lively.next_nil {session : Session} (lively : session.Lively []) :
    session.next = (none, session) := by
  rw [Session.next, lively.stretch, if_neg (by decide), lively.queue, lively.peerGone]
  rfl

theorem Lively.next_cons {session : Session} {message : PeerMessage} {rest : List PeerMessage}
    (lively : session.Lively (message :: rest)) (ordinary : message.isOrdinary = true) :
    session.next.1 = some (.message message) ∧ session.next.2.Lively rest := by
  rw [PeerMessage.isOrdinary, Bool.and_eq_true, Bool.not_eq_true', Bool.not_eq_true'] at ordinary
  obtain ⟨small, more⟩ := ordinary
  rw [Session.next, lively.stretch, if_neg (by decide), lively.queue]
  simp only [small, Stretch.behind, more]
  exact ⟨rfl, rfl, lively.peerSilent, lively.peerGone, rfl⟩

theorem ordinary_of_drop {steps : List PeerStep} {given : Nat} {message : PeerMessage}
    {rest : List PeerMessage}
    (ordinary : ∀ step ∈ steps, step.message?.any PeerMessage.isOrdinary = true)
    (waiting : (steps.filterMap PeerStep.message?).drop given = message :: rest) :
    message.isOrdinary = true := by
  have member : message ∈ steps.filterMap PeerStep.message? :=
    List.mem_of_mem_drop (by rw [waiting]; exact List.mem_cons_self)
  obtain ⟨step, sent, here⟩ := List.mem_filterMap.mp member
  have one := ordinary step sent
  rwa [here] at one

/-- The messages that are sent but not yet given wait in the queue. -/
theorem lively_of_reached {steps : List PeerStep} {given : Nat} {pending : Bool} {session : Session}
    (reached : stream.Reached fresh steps given pending session)
    (ordinary : ∀ step ∈ steps, step.message?.any PeerMessage.isOrdinary = true) :
    given ≤ (steps.filterMap PeerStep.message?).length ∧
      session.Lively ((steps.filterMap PeerStep.message?).drop given) := by
  induction reached with
  | start => exact ⟨Nat.le_refl 0, rfl, rfl, rfl, rfl⟩
  | @arrive steps given pending session step before ih =>
      obtain ⟨within, lively⟩ := ih fun other member => ordinary other (List.mem_append_left _ member)
      have last := ordinary step (List.mem_append_right _ (List.mem_singleton_self step))
      cases step with
      | drop => cases last
      | send message =>
          have messages : (steps ++ [PeerStep.send message]).filterMap PeerStep.message? =
              steps.filterMap PeerStep.message? ++ [message] := List.filterMap_append
          rw [messages, List.drop_append_of_le_length within, List.length_append]
          exact ⟨Nat.le_add_right_of_le within, lively.send last⟩
  | @wait steps given pending session before nothing ih =>
      obtain ⟨within, lively⟩ := ih ordinary
      cases waiting : (steps.filterMap PeerStep.message?).drop given with
      | nil =>
          rw [waiting] at lively
          refine ⟨within, ?_⟩
          rw [show stream.next session = (none, session) from lively.next_nil]
          exact lively
      | cons message rest =>
          rw [waiting] at lively
          have found := (lively.next_cons (ordinary_of_drop ordinary waiting)).1
          exact absurd (nothing.symm.trans found) (Option.some_ne_none _).symm
  | @give steps given pending session item before found ih =>
      obtain ⟨within, lively⟩ := ih ordinary
      cases waiting : (steps.filterMap PeerStep.message?).drop given with
      | nil =>
          rw [waiting] at lively
          have nothing := congrArg Prod.fst lively.next_nil
          exact absurd (nothing.symm.trans found) (Option.some_ne_none _).symm
      | cons message rest =>
          rw [waiting] at lively
          rw [← List.drop_drop, waiting]
          exact ⟨lt_of_drop_eq_cons waiting, (lively.next_cons (ordinary_of_drop ordinary waiting)).2⟩
  | abandon before ih => exact ih ordinary

theorem conveys (messages : List PeerMessage)
    (ordinary : ∀ message ∈ messages, message.isOrdinary = true) :
    stream.Conveys fresh (messages.map .send) (List.filterMap PeerStep.message?) where
  grows steps step _ := by
    rw [List.filterMap_append]
    exact List.prefix_append _ _
  next {steps given pending session} early reached := by
    have sends : ∀ step ∈ steps, step.message?.any PeerMessage.isOrdinary = true := by
      intro step member
      obtain ⟨message, sent, rfl⟩ := List.mem_map.mp (early.subset member)
      exact ordinary message sent
    obtain ⟨-, lively⟩ := lively_of_reached reached sends
    rw [← List.head?_drop]
    cases waiting : (steps.filterMap PeerStep.message?).drop given with
    | nil =>
        rw [waiting] at lively
        exact congrArg Prod.fst lively.next_nil
    | cons message rest =>
        rw [waiting] at lively
        exact (lively.next_cons (ordinary_of_drop sends waiting)).1

end Session

/-! ### Scanners -/

abbrev Scanner (σ : Type) : Type :=
  σ → UInt8 → Option PeerMessage × σ

namespace Scanner

variable {σ : Type} (scan : Scanner σ)

def messages (state : σ) : List UInt8 → List PeerMessage
  | [] => []
  | byte :: rest => (scan state byte).1.toList ++ messages (scan state byte).2 rest

def after (state : σ) (bytes : List UInt8) : σ :=
  bytes.foldl (fun state byte => (scan state byte).2) state

def next (state : σ) : List UInt8 → Option PeerMessage × σ × List UInt8
  | [] => (none, state, [])
  | byte :: rest =>
      match scan state byte with
      | (some message, state) => (some message, state, rest)
      | (none, state) => next state rest

/-- A stream whose pieces are bytes. Bytes that have arrived lie in a buffer until they are taken. -/
def stream : MessageStream (List UInt8) (σ × List UInt8) where
  arrive piece state := (state.1, state.2 ++ piece)
  next state := ((next scan state.1 state.2).1.map Item.message, (next scan state.1 state.2).2)
  abandon state := state

theorem messages_append (state : σ) (left right : List UInt8) :
    messages scan state (left ++ right) =
      messages scan state left ++ messages scan (after scan state left) right := by
  induction left generalizing state with
  | nil => rfl
  | cons byte rest ih =>
      rw [List.cons_append, messages, messages, ih, List.append_assoc]
      rfl

theorem after_cons (state : σ) (byte : UInt8) (rest : List UInt8) :
    after scan state (byte :: rest) = after scan (scan state byte).2 rest :=
  rfl

theorem after_append (state : σ) (left right : List UInt8) :
    after scan state (left ++ right) = after scan (after scan state left) right :=
  List.foldl_append

theorem messages_next (state : σ) (bytes : List UInt8) :
    messages scan state bytes = (next scan state bytes).1.toList ++
      messages scan (next scan state bytes).2.1 (next scan state bytes).2.2 := by
  induction bytes generalizing state with
  | nil => rfl
  | cons byte rest ih =>
      rw [messages, next]
      rcases scan state byte with ⟨_ | message, later⟩
      · exact ih later
      · rfl

theorem after_next (state : σ) (bytes : List UInt8) :
    after scan (next scan state bytes).2.1 (next scan state bytes).2.2 = after scan state bytes := by
  induction bytes generalizing state with
  | nil => rfl
  | cons byte rest ih =>
      rw [next, after_cons]
      rcases scan state byte with ⟨_ | message, later⟩
      · exact ih later
      · rfl

theorem buffer_of_next {state : σ} {bytes : List UInt8} (nothing : (next scan state bytes).1 = none) :
    (next scan state bytes).2.2 = [] := by
  induction bytes generalizing state with
  | nil => rfl
  | cons byte rest ih =>
      rw [next] at nothing ⊢
      rcases scanned : scan state byte with ⟨_ | message, later⟩
      · rw [scanned] at nothing
        exact ih nothing
      · rw [scanned] at nothing
        cases nothing

/-- Where a scanner stands that has come through `bytes` and given `given` messages: what is whole and
not yet given is still in its buffer. -/
structure Stands (start : σ) (bytes : List UInt8) (given : Nat) (state : σ × List UInt8) : Prop where
  within : given ≤ (messages scan start bytes).length
  waiting : messages scan state.1 state.2 = (messages scan start bytes).drop given
  after : after scan state.1 state.2 = after scan start bytes

theorem stands_of_reached {start : σ} {pieces : List (List UInt8)} {given : Nat} {pending : Bool}
    {state : σ × List UInt8} (reached : (stream scan).Reached (start, []) pieces given pending state) :
    Stands scan start pieces.flatten given state := by
  induction reached with
  | start => exact ⟨Nat.zero_le _, rfl, rfl⟩
  | @arrive pieces given pending state piece before ih =>
      have bytes : (pieces ++ [piece]).flatten = pieces.flatten ++ piece := by
        rw [List.flatten_append, List.flatten_singleton]
      rw [bytes]
      refine ⟨?_, ?_, ?_⟩
      · rw [messages_append, List.length_append]
        exact Nat.le_add_right_of_le ih.within
      · rw [messages_append, List.drop_append_of_le_length ih.within, ← ih.waiting, ← ih.after]
        exact messages_append scan state.1 state.2 piece
      · rw [after_append, ← ih.after]
        exact after_append scan state.1 state.2 piece
  | @wait pieces given pending state before nothing ih =>
      have none : (next scan state.1 state.2).1 = none := Option.map_eq_none_iff.mp nothing
      have same := messages_next scan state.1 state.2
      rw [none] at same
      exact ⟨ih.within, same.symm.trans ih.waiting, (after_next scan state.1 state.2).trans ih.after⟩
  | @give pieces given pending state item before found ih =>
      obtain ⟨message, first, -⟩ := Option.map_eq_some_iff.mp found
      have split := messages_next scan state.1 state.2
      rw [first, ih.waiting] at split
      refine ⟨lt_of_drop_eq_cons split, ?_,
        (after_next scan state.1 state.2).trans ih.after⟩
      rw [← List.drop_drop, split]
      rfl
  | abandon before ih =>
      -- All bytes that were taken are in the state, so there is nothing to lose.
      exact ih

/-- However the bytes are cut into pieces, a scanner conveys the messages that they make whole. -/
theorem conveys (start : σ) (sent : List (List UInt8)) :
    (stream scan).Conveys (start, []) sent fun pieces => messages scan start pieces.flatten where
  grows pieces piece _ := by
    rw [List.flatten_append, messages_append]
    exact List.prefix_append _ _
  next {pieces given pending state} _ reached := by
    have stands := stands_of_reached scan reached
    have first := messages_next scan state.1 state.2
    rw [stands.waiting] at first
    rw [← List.head?_drop, first]
    change (next scan state.1 state.2).1.map Item.message = _
    cases found : (next scan state.1 state.2).1 with
    | some message => rfl
    | none =>
        rw [buffer_of_next scan found]
        rfl

end Scanner

/-! ### Frames -/

/-- Where a decoder stands: before a frame, behind its first byte, or in its payload, of which some
bytes are still to come. -/
inductive FramePlace
  | head
  | size (head : UInt8)
  | payload (head : UInt8) (left : Nat) (bytes : List UInt8)
deriving DecidableEq

/-- A decoder of unmasked frames with payloads of at most 125 bytes, for a peer that keeps to the
protocol. It holds the payload so far of a text or binary message whose last frame is still to come;
control frames may stand between the frames of such a message. -/
structure FrameDecoder where
  place : FramePlace
  begun : Option (Bool × List UInt8)
deriving DecidableEq

namespace FrameDecoder

def fresh : FrameDecoder :=
  { place := .head, begun := none }

def textOf (bytes : List UInt8) : String :=
  String.ofList ((Utf8.decode? bytes).getD [])

def wholeOf (isText : Bool) (bytes : List UInt8) : PeerMessage :=
  if isText then .text (textOf bytes) else .binary bytes

/-- A frame is complete. Its first byte has the kind, zero for a frame that continues a message, and
the mark of the last frame of a message. -/
def complete (decoder : FrameDecoder) (head : UInt8) (bytes : List UInt8) :
    Option PeerMessage × FrameDecoder :=
  let resting := { decoder with place := .head }
  match head.toNat % 16 with
  | 8 => (some (.bye (if bytes.length < 2 then none else some (textOf (bytes.drop 2)))), resting)
  | 9 => (some (.ping bytes), resting)
  | 10 => (some (.pong bytes), resting)
  | kind =>
      let earlier := if kind = 0 then decoder.begun.getD (false, []) else (kind == 1, [])
      let bytes := earlier.2 ++ bytes
      if head.toNat < 128 then (none, { resting with begun := some (earlier.1, bytes) })
      else (some (wholeOf earlier.1 bytes), fresh)

def scan : Scanner FrameDecoder := fun decoder byte =>
  match decoder.place with
  | .head => (none, { decoder with place := .size byte })
  | .size head =>
      if byte = 0 then decoder.complete head []
      else (none, { decoder with place := .payload head byte.toNat [] })
  | .payload head left bytes =>
      if left ≤ 1 then decoder.complete head (bytes ++ [byte])
      else (none, { decoder with place := .payload head (left - 1) (bytes ++ [byte]) })

end FrameDecoder

end WebSocket

end SequencedFeed
