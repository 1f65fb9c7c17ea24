import SequencedFeed.Proofs.Conveyance
set_option autoImplicit false

/-!
# Reads of a WebSocket lose nothing

The reads of a connection are a race of its end, their deadlines and the stream, under every schedule of
pieces, timers, polls and calls of `close`. What carries the proof is that the stream has given exactly
as many items as there are frames, and that the lock is held just while a `next` is pending: a read that
loses the race takes neither a message nor the lock with it.
-/

namespace SequencedFeed

namespace WebSocket

variable {Piece State : Type}

def ConnectionStep.piece? : ConnectionStep Piece → Option Piece
  | .arrive piece => some piece
  | _ => none

/-- The pieces that arrive in the course of steps. -/
def arrivals (steps : List (ConnectionStep Piece)) : List Piece :=
  steps.filterMap ConnectionStep.piece?

structure EndedRead.RanOut (read : EndedRead) : Prop where
  limited : read.idle ≠ Duration.zero
  passed : expiry read.begun read.idle.millis ≤ read.time
  report : read.result = .error (.idleTimeout read.idle)

theorem MessageStream.Conveys.mono {stream : MessageStream Piece State} {start : State}
    {sent : List Piece} {whole : List Piece → List PeerMessage} (conveys : stream.Conveys start sent whole)
    {pieces : List Piece} (early : pieces <+: sent) : whole pieces <+: whole sent := by
  obtain ⟨rest, rfl⟩ := early
  induction rest generalizing pieces with
  | nil => exact ⟨[], (List.append_nil _).trans (congrArg whole (List.append_nil pieces).symm)⟩
  | cons piece rest ih =>
      rw [List.append_cons] at conveys ⊢
      exact (conveys.grows pieces piece (List.prefix_append _ rest)).trans (ih conveys)

namespace Connection

/-- What a poll of the read in progress has to give while `messages` are whole; `none` if the read has
to wait. -/
def due? (connection : Connection State) (messages : List PeerMessage) (pending : PendingRead) :
    Option ReadResult :=
  if connection.closed then some (.error .closed)
  else if pending.fired then some (.error (.idleTimeout pending.idle))
  else messages[connection.frames.length]?.map fun message => .ok message.frame

/-- A poll ends a read with a result, or leaves it waiting at the stream. -/
def Polled (before after : Connection State) (pending : PendingRead) : Option ReadResult → Prop
  | some result =>
      after.reading = none ∧ after.finished = before.finished ++ [pending.ended before.now result]
  | none => after.reading = some { pending with holds := true } ∧ after.finished = before.finished

/-! ### What ends a read -/

variable {stream : MessageStream Piece State} {connection : Connection State} {pending : PendingRead}

theorem frames_finish (result : ReadResult) :
    (connection.finish pending result).frames = connection.frames ++ result.toOption.toList := by
  rw [frames, finish, List.filterMap_append]
  cases result <;> rfl

theorem answers_finish_ok (frame : List UInt8) :
    (connection.finish pending (.ok frame)).answers = connection.answers ++ [.ok frame] := by
  rw [answers, finish, List.filter_append, List.map_append]
  rfl

theorem answers_finish_idle (limit : Duration) :
    (connection.finish pending (.error (.idleTimeout limit))).answers = connection.answers := by
  rw [answers, finish, List.filter_append, List.map_append]
  exact List.append_nil _

theorem mem_finish {result : ReadResult} {read : EndedRead}
    (member : read ∈ (connection.finish pending result).finished) :
    read ∈ connection.finished ∨ read = pending.ended connection.now result :=
  (List.mem_append.mp member).imp_right List.mem_singleton.mp

theorem poll_idle (idle : connection.reading = none) : connection.poll stream = connection := by
  rw [poll, idle]

theorem poll_closed (here : connection.reading = some pending) (closed : connection.closed = true) :
    connection.poll stream = connection.giveUp stream pending .closed := by
  rw [poll, here]
  exact if_pos closed

theorem poll_fired (here : connection.reading = some pending) (opened : connection.closed = false)
    (fired : pending.fired = true) :
    connection.poll stream = connection.giveUp stream pending (.idleTimeout pending.idle) := by
  rw [poll, here]
  simp only [opened, fired, Bool.false_eq_true, if_false, if_true]

theorem poll_asks (here : connection.reading = some pending) (opened : connection.closed = false)
    (unfired : pending.fired = false) : connection.poll stream = connection.ask stream pending := by
  rw [poll, here]
  simp only [opened, unfired, Bool.false_eq_true, if_false]

theorem ask_waits (free : (connection.locked && !pending.holds) = false)
    (nothing : (stream.next connection.stream).1 = none) :
    connection.ask stream pending =
      { connection with
        stream := (stream.next connection.stream).2
        locked := true
        reading := some { pending with holds := true }
        woken := false } := by
  simp only [ask, free, nothing, Bool.false_eq_true, if_false]

theorem ask_takes (free : (connection.locked && !pending.holds) = false) {item : Item}
    (found : (stream.next connection.stream).1 = some item) :
    connection.ask stream pending =
      { connection with stream := (stream.next connection.stream).2, locked := true }.finish
        { pending with holds := true } item.result := by
  simp only [ask, free, found, Bool.false_eq_true, if_false]

/-! ### The invariant -/

variable {start : State} {whole : List Piece → List PeerMessage} {pieces sent : List Piece}

variable (stream start whole) in
/-- A connection to which `pieces` have come. The frames are the first of the whole messages, and the
stream has given no more than these. Its lock is held just while a `next` is pending. -/
structure Steady (pieces : List Piece) (connection : Connection State) : Prop where
  reached : stream.Reached start pieces connection.frames.length connection.locked connection.stream
  lock : connection.locked = connection.reading.any PendingRead.holds
  frames : connection.frames = ((whole pieces).take connection.frames.length).map PeerMessage.frame
  answers : connection.closed = false → connection.answers = connection.frames.map .ok
  timers : ∀ pending, connection.reading = some pending → pending.fired = true →
    pending.idle ≠ Duration.zero ∧ expiry pending.begun pending.idle.millis ≤ connection.now
  timeouts : ∀ read ∈ connection.finished, read.timedOut = true → read.RanOut

variable (stream start whole) in
/-- A connection whose read in progress, if nothing has woken it, has nothing to end with. -/
structure Sound (pieces : List Piece) (connection : Connection State) : Prop
    extends Steady stream start whole pieces connection where
  asleep : ∀ pending, connection.reading = some pending → connection.woken = false →
    connection.due? (whole pieces) pending = none

theorem fresh_sound (state : State) : Sound stream state whole [] (fresh state) where
  reached := .start
  lock := rfl
  frames := rfl
  answers _ := rfl
  timers _ here := by cases here
  timeouts _ member := by cases member
  asleep _ here := by cases here

theorem Steady.length_le (steady : Steady stream start whole pieces connection) :
    connection.frames.length ≤ (whole pieces).length := by
  have lengths := congrArg List.length steady.frames
  rw [List.length_map, List.length_take] at lengths
  omega

theorem Steady.sound_of_idle (steady : Steady stream start whole pieces connection)
    (idle : connection.reading = none) : Sound stream start whole pieces connection where
  toSteady := steady
  asleep pending here := by
    rw [idle] at here
    cases here

theorem Steady.locked (steady : Steady stream start whole pieces connection)
    (here : connection.reading = some pending) : connection.locked = pending.holds := by
  rw [steady.lock, here]
  rfl

theorem Steady.free (steady : Steady stream start whole pieces connection)
    (here : connection.reading = some pending) : (connection.locked && !pending.holds) = false := by
  rw [steady.locked here, Bool.and_not_self]

theorem Steady.giveUp (steady : Steady stream start whole pieces connection)
    (here : connection.reading = some pending) {error : TransportError}
    (reason : connection.closed = true ∧ error = .closed ∨
      pending.fired = true ∧ error = .idleTimeout pending.idle) :
    Sound stream start whole pieces (connection.giveUp stream pending error) := by
  have locked := steady.locked here
  have same : (connection.giveUp stream pending error).frames = connection.frames := by
    rw [Connection.giveUp, frames_finish]
    exact List.append_nil _
  refine Steady.sound_of_idle ⟨?_, ?_, ?_, ?_, ?_, ?_⟩ rfl
  · rw [same]
    have reached := steady.reached
    rw [locked] at reached
    -- Only the holder of the lock has a `next` to abandon; afterwards the lock is free in either case.
    change stream.Reached start pieces _ (connection.locked && !pending.holds)
      (if pending.holds then stream.abandon connection.stream else connection.stream)
    rw [locked]
    cases holding : pending.holds with
    | true =>
        rw [holding] at reached
        exact .abandon reached
    | false =>
        rw [holding] at reached
        exact reached
  · change (connection.locked && !pending.holds) = false
    rw [locked, Bool.and_not_self]
  · rw [same]
    exact steady.frames
  · intro opened
    rw [same, ← steady.answers opened]
    rcases reason with ⟨closed, -⟩ | ⟨-, rfl⟩
    · exact absurd (opened.symm.trans closed) Bool.false_ne_true
    · exact answers_finish_idle pending.idle
  · intro other none
    cases none
  · intro read member late
    rcases mem_finish member with before | rfl
    · exact steady.timeouts read before late
    · rcases reason with ⟨-, rfl⟩ | ⟨fired, rfl⟩
      · cases late
      · obtain ⟨limited, passed⟩ := steady.timers pending here fired
        exact ⟨limited, passed, rfl⟩

theorem Steady.waits (steady : Steady stream start whole pieces connection)
    (here : connection.reading = some pending)
    (due : connection.due? (whole pieces) pending = none)
    (nothing : (stream.next connection.stream).1 = none) :
    connection.Polled (connection.ask stream pending) pending none ∧
      Sound stream start whole pieces (connection.ask stream pending) := by
  have unfired : pending.fired = false := by
    cases fired : pending.fired with
    | false => rfl
    | true =>
        rw [due?, fired] at due
        split at due <;> cases due
  rw [ask_waits (steady.free here) nothing]
  refine ⟨⟨rfl, rfl⟩,
    ⟨.wait steady.reached nothing, rfl, steady.frames, steady.answers, ?_, steady.timeouts⟩, ?_⟩
  · intro other same fired
    cases same
    exact absurd (unfired.symm.trans fired) Bool.false_ne_true
  · intro other same _
    cases same
    exact due

theorem Steady.takes (steady : Steady stream start whole pieces connection)
    (here : connection.reading = some pending) {message : PeerMessage}
    (first : (whole pieces)[connection.frames.length]? = some message) (stays : message.isBye = false)
    (found : (stream.next connection.stream).1 = some (.message message)) :
    connection.Polled (connection.ask stream pending) pending (some (.ok message.frame)) ∧
      Sound stream start whole pieces (connection.ask stream pending) := by
  have result : (Item.message message).result = .ok message.frame := by
    rw [Item.result, stays]
    rfl
  have takes : connection.ask stream pending =
      { connection with stream := (stream.next connection.stream).2, locked := true }.finish
        { pending with holds := true } (.ok message.frame) := by
    rw [ask_takes (steady.free here) found, result]
  have more : (connection.ask stream pending).frames = connection.frames ++ [message.frame] := by
    rw [takes, frames_finish]
    rfl
  have longer : (connection.ask stream pending).frames.length = connection.frames.length + 1 := by
    rw [more, List.length_append]
    rfl
  refine ⟨?_, Steady.sound_of_idle ⟨?_, ?_, ?_, ?_, ?_, ?_⟩ ?_⟩
  · rw [takes]
    exact ⟨rfl, rfl⟩
  · rw [longer, takes]
    exact .give steady.reached found
  · rw [takes]
    rfl
  · rw [longer, List.take_add_one, first, List.map_append, ← steady.frames]
    exact more
  · intro opened
    rw [takes] at opened
    rw [more, takes, answers_finish_ok, List.map_append]
    exact congrArg (· ++ _) (steady.answers opened)
  · intro other same
    rw [takes] at same
    cases same
  · intro read member late
    rw [takes] at member
    rcases mem_finish member with before | rfl
    · exact steady.timeouts read before late
    · cases late
  · rw [takes]
    rfl

theorem Steady.ask (steady : Steady stream start whole pieces connection)
    (conveys : stream.Conveys start sent whole) (staying : ∀ message ∈ whole sent, message.isBye = false)
    (early : pieces <+: sent) (here : connection.reading = some pending)
    (opened : connection.closed = false) (unfired : pending.fired = false) :
    connection.Polled (connection.ask stream pending) pending (connection.due? (whole pieces) pending) ∧
      Sound stream start whole pieces (connection.ask stream pending) := by
  have next := conveys.next early steady.reached
  have due : connection.due? (whole pieces) pending =
      (whole pieces)[connection.frames.length]?.map fun message => .ok message.frame := by
    rw [due?, if_neg (by rw [opened]; exact Bool.false_ne_true),
      if_neg (by rw [unfired]; exact Bool.false_ne_true)]
  cases first : (whole pieces)[connection.frames.length]? with
  | none =>
      rw [first] at next due
      rw [due]
      exact steady.waits here due next
  | some message =>
      rw [first] at next due
      rw [due]
      have among : message ∈ whole sent := (conveys.mono early).subset (List.mem_of_getElem? first)
      exact steady.takes here first (staying message among) next

theorem Steady.poll (steady : Steady stream start whole pieces connection)
    (conveys : stream.Conveys start sent whole) (staying : ∀ message ∈ whole sent, message.isBye = false)
    (early : pieces <+: sent) (here : connection.reading = some pending) :
    connection.Polled (connection.poll stream) pending (connection.due? (whole pieces) pending) ∧
      Sound stream start whole pieces (connection.poll stream) := by
  cases closed : connection.closed with
  | true =>
      rw [poll_closed here closed, due?, if_pos closed]
      exact ⟨⟨rfl, rfl⟩, steady.giveUp here (.inl ⟨closed, rfl⟩)⟩
  | false =>
      cases fired : pending.fired with
      | true =>
          rw [poll_fired here closed fired, due?, if_neg (by rw [closed]; exact Bool.false_ne_true),
            if_pos fired]
          exact ⟨⟨rfl, rfl⟩, steady.giveUp here (.inr ⟨fired, rfl⟩)⟩
      | false =>
          rw [poll_asks here closed fired]
          exact steady.ask conveys staying early here closed fired

/-! ### Steps and runs -/

def begin (connection : Connection State) (idle : Duration) : Connection State :=
  { connection with reading := some (PendingRead.first connection.now idle) }

theorem Steady.begin (steady : Steady stream start whole pieces connection)
    (free : connection.reading = none) (idle : Duration) :
    Steady stream start whole pieces (connection.begin idle) where
  reached := steady.reached
  lock := by
    rw [Connection.begin, steady.lock, free]
    rfl
  frames := steady.frames
  answers := steady.answers
  timers pending here fired := by
    cases here
    cases fired
  timeouts := steady.timeouts

theorem read_free (free : connection.reading = none) (idle : Duration) :
    connection.read stream idle = (connection.begin idle).poll stream := by
  rw [read, free]
  rfl

theorem read_busy (here : connection.reading = some pending) (idle : Duration) :
    connection.read stream idle = connection := by
  rw [read, here]

theorem Steady.read (steady : Steady stream start whole pieces connection)
    (conveys : stream.Conveys start sent whole) (staying : ∀ message ∈ whole sent, message.isBye = false)
    (early : pieces <+: sent) (free : connection.reading = none) (idle : Duration) :
    connection.Polled (connection.read stream idle) (PendingRead.first connection.now idle)
        (connection.due? (whole pieces) (PendingRead.first connection.now idle)) ∧
      Sound stream start whole pieces (connection.read stream idle) := by
  rw [read_free free]
  exact (steady.begin free idle).poll conveys staying early rfl

theorem Steady.arrive (steady : Steady stream start whole pieces connection)
    (conveys : stream.Conveys start sent whole) {piece : Piece} (early : pieces ++ [piece] <+: sent) :
    Steady stream start whole (pieces ++ [piece])
      (connection.step stream (.arrive piece)) where
  reached := .arrive piece steady.reached
  lock := steady.lock
  frames := by
    obtain ⟨rest, grown⟩ := conveys.grows pieces piece early
    change connection.frames = _
    rw [← grown]
    change connection.frames = ((_ ++ rest).take connection.frames.length).map PeerMessage.frame
    rw [List.take_append_of_le_length steady.length_le]
    exact steady.frames
  answers := steady.answers
  timers := steady.timers
  timeouts := steady.timeouts

theorem Sound.pass (sound : Sound stream start whole pieces connection) (millis : Nat) :
    Sound stream start whole pieces (connection.step stream (.pass millis)) where
  reached := sound.reached
  lock := sound.lock
  frames := sound.frames
  answers := sound.answers
  timers pending here fired :=
    (sound.timers pending here fired).imp_right fun passed => Nat.le_add_right_of_le passed
  timeouts := sound.timeouts
  asleep := sound.asleep

theorem fire_cases (connection : Connection State) :
    connection.fire = connection ∨
      ∃ pending, connection.reading = some pending ∧ pending.idle ≠ Duration.zero ∧
        expiry pending.begun pending.idle.millis ≤ connection.now ∧
        connection.fire =
          { connection with reading := some { pending with fired := true }, woken := true } := by
  cases here : connection.reading with
  | none =>
      rw [fire, here]
      exact .inl rfl
  | some pending =>
      rw [fire, here]
      dsimp only
      by_cases limited : pending.idle = Duration.zero
      · rw [PendingRead.deadline?, if_pos limited]
        exact .inl rfl
      · rw [PendingRead.deadline?, if_neg limited]
        by_cases passed : expiry pending.begun pending.idle.millis ≤ connection.now
        · exact .inr ⟨pending, rfl, limited, passed, if_pos (decide_eq_true passed)⟩
        · exact .inl (if_neg (by simpa using passed))

theorem Sound.fire (sound : Sound stream start whole pieces connection) :
    Sound stream start whole pieces connection.fire := by
  rcases fire_cases connection with same | ⟨pending, here, limited, passed, fires⟩
  · rw [same]
    exact sound
  · rw [fires]
    refine ⟨⟨sound.reached, ?_, sound.frames, sound.answers, ?_, sound.timeouts⟩, ?_⟩
    · have locked := sound.locked here
      exact locked
    · intro other same _
      cases same
      exact ⟨limited, passed⟩
    · intro other _ asleep
      cases asleep

theorem Sound.close (sound : Sound stream start whole pieces connection) :
    Sound stream start whole pieces (connection.step stream .close) where
  reached := sound.reached
  lock := sound.lock
  frames := sound.frames
  answers opened := by cases opened
  timers := sound.timers
  timeouts := sound.timeouts
  asleep _ _ asleep := by cases asleep

theorem Sound.step (sound : Sound stream start whole pieces connection)
    (conveys : stream.Conveys start sent whole) (staying : ∀ message ∈ whole sent, message.isBye = false)
    (step : ConnectionStep Piece) (early : pieces ++ step.piece?.toList <+: sent) :
    Sound stream start whole (pieces ++ step.piece?.toList) (connection.step stream step) := by
  have before : pieces <+: sent := (List.prefix_append _ _).trans early
  cases step with
  | arrive piece => exact ⟨sound.toSteady.arrive conveys early, fun _ _ asleep => by cases asleep⟩
  | read idle =>
      rw [show pieces ++ (ConnectionStep.read idle).piece?.toList = pieces from List.append_nil pieces]
      cases here : connection.reading with
      | none => exact (sound.toSteady.read conveys staying before here idle).2
      | some pending =>
          rw [Connection.step, read_busy here]
          exact sound
  | pass millis =>
      rw [show pieces ++ (ConnectionStep.pass millis).piece?.toList = pieces from List.append_nil pieces]
      exact sound.pass millis
  | fire =>
      rw [show pieces ++ ConnectionStep.fire.piece?.toList = pieces from List.append_nil pieces]
      exact sound.fire
  | close =>
      rw [show pieces ++ ConnectionStep.close.piece?.toList = pieces from List.append_nil pieces]
      exact sound.close
  | poll =>
      rw [show pieces ++ ConnectionStep.poll.piece?.toList = pieces from List.append_nil pieces]
      cases here : connection.reading with
      | none =>
          rw [Connection.step, poll_idle here]
          exact sound
      | some pending => exact (sound.toSteady.poll conveys staying before here).2

theorem run_cons (step : ConnectionStep Piece) (rest : List (ConnectionStep Piece)) :
    connection.run stream (step :: rest) = (connection.step stream step).run stream rest :=
  rfl

theorem arrivals_cons (step : ConnectionStep Piece) (rest : List (ConnectionStep Piece)) :
    arrivals (step :: rest) = step.piece?.toList ++ arrivals rest := by
  rw [arrivals, List.filterMap_cons]
  cases step.piece? <;> rfl

theorem Sound.run (sound : Sound stream start whole pieces connection)
    (conveys : stream.Conveys start sent whole) (staying : ∀ message ∈ whole sent, message.isBye = false)
    {steps : List (ConnectionStep Piece)} (early : pieces ++ arrivals steps <+: sent) :
    Sound stream start whole (pieces ++ arrivals steps) (connection.run stream steps) := by
  induction steps generalizing connection pieces with
  | nil =>
      rw [arrivals, List.filterMap_nil, List.append_nil]
      exact sound
  | cons step rest ih =>
      -- `sent` stays the same, and more and more of it has arrived.
      rw [arrivals_cons, ← List.append_assoc] at early ⊢
      exact ih (sound.step conveys staying step ((List.prefix_append _ _).trans early)) early

/-! ### Closing -/

theorem closed_ask : (connection.ask stream pending).closed = connection.closed := by
  rw [ask]
  dsimp only
  split
  · rfl
  · split <;> rfl

theorem closed_poll : (connection.poll stream).closed = connection.closed := by
  rw [poll]
  split
  · rfl
  · split
    · rfl
    · split
      · rfl
      · exact closed_ask

theorem closed_fire : connection.fire.closed = connection.closed := by
  rcases fire_cases connection with same | ⟨pending, -, -, -, fires⟩
  · rw [same]
  · rw [fires]

theorem closed_step {step : ConnectionStep Piece} (other : step ≠ .close) :
    (connection.step stream step).closed = connection.closed := by
  cases step with
  | read idle =>
      rw [step, read]
      split
      · rfl
      · exact closed_poll
  | arrive piece => rfl
  | pass millis => rfl
  | fire => exact closed_fire
  | close => exact absurd rfl other
  | poll => exact closed_poll

theorem closed_run {steps : List (ConnectionStep Piece)} (others : .close ∉ steps) :
    (connection.run stream steps).closed = connection.closed := by
  induction steps generalizing connection with
  | nil => rfl
  | cons step rest ih =>
      rw [run_cons, ih (List.not_mem_of_not_mem_cons others)]
      exact closed_step (List.ne_of_not_mem_cons others).symm

theorem stays_closed (closed : connection.closed = true) (step : ConnectionStep Piece) :
    (connection.step stream step).closed = true := by
  by_cases close : step = .close
  · rw [close]
    rfl
  · rw [closed_step close]
    exact closed

theorem poll_of_closed (closed : connection.closed = true) (here : connection.reading = some pending) :
    connection.Polled (connection.poll stream) pending (some (.error .closed)) := by
  rw [poll_closed here closed]
  exact ⟨rfl, rfl⟩

variable (stream) in
theorem read_of_closed (closed : connection.closed = true) (free : connection.reading = none)
    (idle : Duration) :
    connection.Polled (connection.read stream idle) (PendingRead.first connection.now idle)
      (some (.error .closed)) := by
  rw [read_free free]
  have begun : (connection.begin idle).closed = true := closed
  exact poll_of_closed begun rfl

variable (stream) in
/-- After a close a read in progress either goes on, or it has been polled and is closed. -/
theorem step_of_reading (closed : connection.closed = true) (here : connection.reading = some pending)
    (step : ConnectionStep Piece) :
    (step = .poll ∧ (connection.step stream step).reading = none ∧
      (connection.step stream step).finished =
        connection.finished ++ [pending.ended connection.now (.error .closed)]) ∨
    (step ≠ .poll ∧ (connection.step stream step).finished = connection.finished ∧
      (connection.woken = true → (connection.step stream step).woken = true) ∧
      ∃ fired, (connection.step stream step).reading = some { pending with fired }) := by
  cases step with
  | poll => exact .inl ⟨rfl, poll_of_closed closed here⟩
  | read idle =>
      rw [Connection.step, read_busy here]
      exact .inr ⟨by simp, rfl, id, pending.fired, here⟩
  | arrive piece => exact .inr ⟨by simp, rfl, fun _ => rfl, pending.fired, here⟩
  | pass millis => exact .inr ⟨by simp, rfl, id, pending.fired, here⟩
  | close => exact .inr ⟨by simp, rfl, fun _ => rfl, pending.fired, here⟩
  | fire =>
      refine .inr ⟨by simp, ?_⟩
      rcases fire_cases connection with same | ⟨other, there, -, -, fires⟩
      · rw [Connection.step, same]
        exact ⟨rfl, id, pending.fired, here⟩
      · rw [Connection.step, fires]
        cases here.symm.trans there
        exact ⟨rfl, fun _ => rfl, true, rfl⟩

/-- All reads that have ended since `before` found the connection closed. -/
def EndsClosed (before after : Connection State) : Prop :=
  ∃ rest, after.finished = before.finished ++ rest ∧ ∀ read ∈ rest, read.result = .error .closed

theorem EndsClosed.of_eq {before after : Connection State} (same : after.finished = before.finished) :
    before.EndsClosed after :=
  ⟨[], same.trans (List.append_nil _).symm, fun _ member => absurd member List.not_mem_nil⟩

theorem EndsClosed.of_one {before after : Connection State} {time : Nat}
    (ends : after.finished = before.finished ++ [pending.ended time (.error .closed)]) :
    before.EndsClosed after := by
  refine ⟨_, ends, ?_⟩
  intro read member
  rw [List.mem_singleton.mp member]
  rfl

theorem EndsClosed.trans {first second third : Connection State} (left : first.EndsClosed second)
    (right : second.EndsClosed third) : first.EndsClosed third := by
  obtain ⟨earlier, before, refused⟩ := left
  obtain ⟨later, after, closed⟩ := right
  refine ⟨earlier ++ later, by rw [after, before, List.append_assoc], ?_⟩
  intro read member
  exact (List.mem_append.mp member).elim (refused read) (closed read)

variable (stream) in
theorem step_of_free (closed : connection.closed = true) (free : connection.reading = none)
    (step : ConnectionStep Piece) :
    (connection.step stream step).reading = none ∧
      connection.EndsClosed (connection.step stream step) := by
  cases step with
  | read idle =>
      obtain ⟨ends, reports⟩ := read_of_closed stream closed free idle
      exact ⟨ends, .of_one reports⟩
  | arrive piece => exact ⟨free, .of_eq rfl⟩
  | pass millis => exact ⟨free, .of_eq rfl⟩
  | close => exact ⟨free, .of_eq rfl⟩
  | fire =>
      rw [Connection.step, fire, free]
      exact ⟨free, .of_eq rfl⟩
  | poll =>
      rw [Connection.step, poll_idle free]
      exact ⟨free, .of_eq rfl⟩

/-- What has become of a connection that was closed: a read that is still in progress will be polled,
and all reads that have ended since are closed. -/
structure Ceasing (before connection : Connection State) : Prop where
  closed : connection.closed = true
  woken : ∀ pending, connection.reading = some pending → connection.woken = true
  ends : before.EndsClosed connection

variable (stream) in
theorem Ceasing.step {before : Connection State} (ceasing : before.Ceasing connection)
    (step : ConnectionStep Piece) : before.Ceasing (connection.step stream step) := by
  have closed : (connection.step stream step).closed = true := stays_closed ceasing.closed step
  cases here : connection.reading with
  | none =>
      obtain ⟨gone, ends⟩ := step_of_free stream ceasing.closed here step
      refine ⟨closed, ?_, ceasing.ends.trans ends⟩
      intro pending there
      rw [gone] at there
      cases there
  | some earlier =>
      rcases step_of_reading stream ceasing.closed here step with
        ⟨-, gone, ends⟩ | ⟨-, same, stays, -⟩
      · refine ⟨closed, ?_, ceasing.ends.trans (.of_one ends)⟩
        intro pending there
        rw [gone] at there
        cases there
      · exact ⟨closed, fun _ _ => stays (ceasing.woken earlier here), ceasing.ends.trans (.of_eq same)⟩

variable (stream) in
theorem Ceasing.run {before : Connection State} (ceasing : before.Ceasing connection)
    (steps : List (ConnectionStep Piece)) : before.Ceasing (connection.run stream steps) := by
  induction steps generalizing connection with
  | nil => exact ceasing
  | cons step rest ih => exact ih (ceasing.step stream step)

variable (stream) in
theorem ceasing_close (connection : Connection State) :
    connection.Ceasing (connection.step stream .close) where
  closed := rfl
  woken _ _ := rfl
  ends := .of_eq rfl

variable (stream) in
theorem ends_of_poll (closed : connection.closed = true) (here : connection.reading = some pending)
    {steps : List (ConnectionStep Piece)} (polled : .poll ∈ steps) :
    ∃ time rest, (connection.run stream steps).finished =
      connection.finished ++ pending.ended time (.error .closed) :: rest := by
  induction steps generalizing connection pending with
  | nil => cases polled
  | cons step rest ih =>
      rw [run_cons]
      have closed' : (connection.step stream step).closed = true := stays_closed closed step
      rcases step_of_reading stream closed here step with
        ⟨-, gone, ends⟩ | ⟨other, same, -, fired, there⟩
      · have ceasing : (connection.step stream step).Ceasing (connection.step stream step) := by
          refine ⟨closed', ?_, .of_eq rfl⟩
          intro pending there
          rw [gone] at there
          cases there
        obtain ⟨later, more, -⟩ := (ceasing.run stream rest).ends
        refine ⟨connection.now, later, ?_⟩
        rw [more, ends, List.append_assoc]
        rfl
      · -- Until it is polled the read is the same, but for its timer, which does not matter any more.
        have later : .poll ∈ rest := (List.mem_cons.mp polled).resolve_left other.symm
        obtain ⟨time, more, ends⟩ := ih closed' there later
        refine ⟨time, more, ?_⟩
        rw [ends, same]
        rfl

/-! ### All schedules -/

/-- How a connection answers while `messages` are whole: every poll of a read gives what is due, the
first one included, and a read that nothing has woken has nothing due. -/
structure Answering (stream : MessageStream Piece State) (messages : List PeerMessage)
    (connection : Connection State) : Prop where
  read : connection.reading = none → ∀ idle,
    connection.Polled (connection.read stream idle) (PendingRead.first connection.now idle)
      (connection.due? messages (PendingRead.first connection.now idle))
  poll : ∀ pending, connection.reading = some pending →
    connection.Polled (connection.poll stream) pending (connection.due? messages pending)
  asleep : ∀ pending, connection.reading = some pending → connection.woken = false →
    connection.due? messages pending = none

/-- What a connection that is closed comes to with `later` steps. All reads that end from then on are
closed, the read in progress first; a poll and a new read end at once. -/
structure Closing (stream : MessageStream Piece State) (later : List (ConnectionStep Piece))
    (before after : Connection State) : Prop where
  ends : before.EndsClosed after
  inProgress : ∀ pending, before.reading = some pending → .poll ∈ later →
    ∃ time rest, after.finished = before.finished ++ pending.ended time (.error .closed) :: rest
  woken : ∀ pending, after.reading = some pending → after.woken = true
  poll : ∀ pending, after.reading = some pending →
    after.Polled (after.poll stream) pending (some (.error .closed))
  read : after.reading = none → ∀ idle,
    after.Polled (after.read stream idle) (PendingRead.first after.now idle) (some (.error .closed))

theorem Sound.answering (sound : Sound stream start whole pieces connection)
    (conveys : stream.Conveys start sent whole) (staying : ∀ message ∈ whole sent, message.isBye = false)
    (early : pieces <+: sent) : connection.Answering stream (whole pieces) where
  read free idle := (sound.toSteady.read conveys staying early free idle).1
  poll _ here := (sound.toSteady.poll conveys staying early here).1
  asleep := sound.asleep

theorem closing (stream : MessageStream Piece State) (connection : Connection State)
    (later : List (ConnectionStep Piece)) :
    connection.Closing stream later ((connection.step stream .close).run stream later) := by
  have ceasing := (ceasing_close stream connection).run stream later
  refine ⟨ceasing.ends, ?_, ceasing.woken, ?_, read_of_closed stream ceasing.closed⟩
  · intro pending here polled
    have reading : (connection.step stream .close).reading = some pending := here
    exact ends_of_poll stream rfl reading polled
  · intro pending there
    exact poll_of_closed ceasing.closed there

end Connection

/-- While neither side has closed, the reads that do not time out give the frames of the whole messages
in order, one for each, under every schedule of pieces, timers and polls. A read that times out has an
idle timeout that is not zero and has passed. Every poll of a read gives what is due, so that a message
is there for the next read if the deadline came first, and what would wait forever has nothing due. From
a close on every read is closed, whatever has arrived. -/
theorem reads_lose_nothing (stream : MessageStream Piece State) (start : State)
    (whole : List Piece → List PeerMessage) (steps : List (ConnectionStep Piece))
    (conveys : stream.Conveys start (arrivals steps) whole)
    (staying : ∀ message ∈ whole (arrivals steps), message.isBye = false) :
    let connection := (Connection.fresh start).run stream steps
    let messages := whole (arrivals steps)
    (.close ∉ steps → connection.answers =
        (messages.take connection.answers.length).map fun message => .ok message.frame) ∧
      (∀ read ∈ connection.finished, read.timedOut = true → read.RanOut) ∧
      connection.Answering stream messages ∧
      ∀ later, connection.Closing stream later
        ((connection.step stream .close).run stream later) := by
  intro connection messages
  have sound : Connection.Sound stream start whole (arrivals steps) connection :=
    (Connection.fresh_sound start).run conveys staying (List.prefix_refl (arrivals steps))
  refine ⟨?_, sound.timeouts, sound.answering conveys staying (List.prefix_refl _),
    Connection.closing stream connection⟩
  intro others
  have opened : connection.closed = false := Connection.closed_run others
  have answers := sound.answers opened
  have count : connection.answers.length = connection.frames.length := by
    rw [answers, List.length_map]
  calc connection.answers
      = connection.frames.map .ok := answers
    _ = ((messages.take connection.frames.length).map PeerMessage.frame).map .ok := by
        rw [← sound.frames]
    _ = (messages.take connection.answers.length).map fun message => .ok message.frame := by
        rw [List.map_map, count]
        rfl

/-- A text in two frames with a ping between them, and a binary message behind it. The first read times
out in the middle of the text, the third one in the instant in which the text becomes whole. -/
def patchySteps : List (ConnectionStep (List UInt8)) :=
  [.read (Duration.ofMillis 5), .arrive [0x01], .poll, .arrive [1, 0x48], .poll, .pass 5, .fire, .poll,
    .arrive [0x89], .read Duration.zero, .arrive [0, 0x80, 1], .poll,
    .read (Duration.ofMillis 2), .pass 2, .arrive [0x69, 0x82, 2], .fire, .poll,
    .read Duration.zero, .read (Duration.ofMillis 1), .arrive [0, 255, 0x8A], .pass 1, .poll,
    .read Duration.zero, .arrive [0]]

theorem reads_lose_nothing_in_patches :
    let stream := Scanner.stream FrameDecoder.scan
    let connection := (Connection.fresh (FrameDecoder.fresh, [])).run stream patchySteps
    let messages := FrameDecoder.scan.messages FrameDecoder.fresh (arrivals patchySteps).flatten
    connection.frames = [[], [0x48, 0x69], [0, 255]] ∧
      connection.finished.map EndedRead.timedOut = [true, false, true, false, false] ∧
      connection.answers = (messages.take 3).map (fun message => .ok message.frame) ∧
      connection.Answering stream messages ∧
      ∀ later, connection.Closing stream later
        ((connection.step stream .close).run stream later) := by
  intro stream connection messages
  have conveys := Scanner.conveys FrameDecoder.scan FrameDecoder.fresh (arrivals patchySteps)
  obtain ⟨answers, -, answering, closing⟩ :=
    reads_lose_nothing stream (FrameDecoder.fresh, []) _ patchySteps conveys (by decide)
  have count : connection.answers.length = 3 := by decide
  refine ⟨by decide, by decide, ?_, answering, closing⟩
  rw [← count]
  exact answers (by decide)

end WebSocket

end SequencedFeed
