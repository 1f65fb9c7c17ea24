import SequencedFeed.Proofs.LosslessReads
set_option autoImplicit false

/-!
# Reads of a session one after the other

A session answers reads one at a time, each in one go. Such a read is a short schedule of a connection
that has the session as its stream: the read begins, its time passes or the connection is closed, and it
is polled.
-/

namespace SequencedFeed

namespace WebSocket

namespace Session

theorem next_closed (session : Session) : session.next.2.closed = session.closed := by
  rw [next]
  split
  · rfl
  · split
    · rfl
    · split <;> rfl

theorem next_pending {session : Session} (nothing : session.next.1 = none) :
    session.next.2 = session := by
  rw [next] at nothing ⊢
  split at nothing
  · cases nothing
  · next going =>
      rw [if_neg going]
      split at nothing
      · cases nothing
      · split at nothing
        · next empty here => rw [if_pos here]
        · cases nothing

theorem result_item (message : PeerMessage) :
    (if message.isTooBig then Item.fault message.tooBigReason else .message message).result =
      message.result := by
  unfold PeerMessage.result
  cases message.isTooBig with
  | true => rfl
  | false => cases message <;> rfl

theorem read?_eq (session : Session) :
    session.read? =
      if session.closed then some (.error .closed, session)
      else session.next.1.map fun item => (item.result, session.next.2) := by
  cases closed : session.closed with
  | true =>
      rw [read?, closed]
      rfl
  | false =>
      rw [read?, next, closed, Bool.false_or]
      by_cases stopped : session.stretch = .over
      · rw [if_pos (decide_eq_true stopped), if_pos stopped]
        rfl
      · rw [if_neg (by simpa using stopped), if_neg stopped, if_neg Bool.false_ne_true]
        cases session.queue with
        | cons message rest => exact congrArg (fun result => some (result, _)) (result_item message).symm
        | nil =>
            cases session.peerGone with
            | false => rfl
            | true =>
                by_cases under : session.stretch = .underWay
                · simp [under, Item.result, reset]
                · simp [under, Item.result]

end Session

namespace Connection

def answered (session : Session) (idle : Duration) (result : ReadResult) : Connection Session :=
  { ofSession session with finished := [(PendingRead.first 0 idle).ended 0 result] }

def waiting (session : Session) (idle : Duration) : Connection Session :=
  { ofSession session with
    locked := true
    reading := some { PendingRead.first 0 idle with holds := true } }

/-- What a session gives at once is what the first poll of a read gives. -/
theorem read_ofSession (session : Session) (idle : Duration) :
    (ofSession session).read Session.stream idle =
      match session.read? with
      | some (result, later) => answered later idle result
      | none => waiting session idle := by
  rw [read_free rfl, Session.read?_eq]
  cases closed : session.closed with
  | true =>
      rw [poll_closed rfl closed]
      rfl
  | false =>
      have next : Session.stream.next ((ofSession session).begin idle).stream = session.next := rfl
      have kept := Session.next_closed session
      rw [poll_asks rfl closed rfl, ask, if_neg (by exact Bool.false_ne_true), next]
      rcases found : session.next with ⟨_ | item, later⟩
      · have same : later = session := by
          have nothing : session.next.1 = none := by rw [found]
          have pending := Session.next_pending nothing
          rwa [found] at pending
        rw [same]
        rfl
      · rw [found] at kept
        have same : ofSession later = { ofSession session with stream := later } :=
          congrArg (fun closed => { fresh later with closed }) kept
        rw [if_neg Bool.false_ne_true]
        change _ = answered later idle item.result
        rw [answered, same]
        rfl

theorem run_free {connection : Connection Session} (free : connection.reading = none) (millis : Nat) :
    connection.run Session.stream [.pass millis, .fire, .poll] =
      { connection with now := connection.now + millis } := by
  cases connection
  cases free
  rfl

end Connection

theorem Session.pending_of_read? {session : Session} (waits : session.read? = none) :
    session.closed = false ∧ session.next.1 = none := by
  rw [Session.read?_eq] at waits
  cases closed : session.closed with
  | true =>
      rw [if_pos closed] at waits
      cases waits
  | false =>
      rw [if_neg (by rw [closed]; exact Bool.false_ne_true), Option.map_eq_none_iff] at waits
      exact ⟨rfl, waits⟩

theorem millis_ne_zero {limit : Duration} (limited : limit ≠ Duration.zero) : limit.millis ≠ 0 := by
  intro nothing
  refine limited (Duration.ext ?_)
  rw [Duration.millis, Nat.div_eq_zero_iff] at nothing
  change limit.nanos = 0
  omega

/-- What becomes of a read that waits: without a limit it goes on, with one it ends at the limit. -/
theorem Connection.run_waiting {session : Session} (opened : session.closed = false)
    (nothing : session.next.1 = none) (limit : Duration) :
    let after := (waiting session limit).run Session.stream
      [.pass (min limit.millis longestWait), .fire, .poll]
    after.session = session ∧ after.finished.map EndedRead.result =
      if limit.millis = 0 then [] else [.error (.idleTimeout limit)] := by
  intro after
  let due := (waiting session limit).step Session.stream (.pass (min limit.millis longestWait))
  let holding : PendingRead := { PendingRead.first 0 limit with holds := true }
  by_cases limited : limit = Duration.zero
  · have unlimited : limit.millis = 0 := by
      rw [limited]
      decide
    have quiet : due.fire = due := by
      rcases fire_cases due with same | ⟨pending, here, positive, -⟩
      · exact same
      · cases here
        exact absurd limited positive
    have asks : after = due.ask Session.stream holding := by
      change due.fire.poll Session.stream = _
      rw [quiet]
      exact poll_asks rfl opened rfl
    rw [asks, ask_waits rfl nothing, if_pos unlimited]
    have kept := congrArg (fun later : Session => { later with closed := session.closed })
      (Session.next_pending nothing)
    exact ⟨kept, rfl⟩
  · have fires : due.fire = { due with reading := some { holding with fired := true }, woken := true } := by
      have passed : holding.deadline?.any (· ≤ due.now) = true := by
        have deadline : holding.deadline? = some (expiry 0 limit.millis) := if_neg limited
        rw [deadline]
        exact decide_eq_true (Nat.le_refl _)
      exact if_pos passed
    have ends : after = Connection.giveUp Session.stream
        { due with reading := some { holding with fired := true }, woken := true }
        { holding with fired := true } (.idleTimeout limit) := by
      change due.fire.poll Session.stream = _
      rw [fires]
      exact poll_fired rfl opened rfl
    rw [ends, if_neg (millis_ne_zero limited)]
    exact ⟨rfl, rfl⟩

/-- Reading within a limit is a read, the time up to its deadline, and a poll. -/
theorem Session.readWithin_eq (session : Session) (limit : Duration) :
    let after := (Connection.ofSession session).run Session.stream
      [.read limit, .pass (min limit.millis longestWait), .fire, .poll]
    ((after.finished.map EndedRead.result).head?, after.session) = session.readWithin limit := by
  dsimp only
  rw [Connection.run_cons, Connection.step, Connection.read_ofSession, Session.readWithin]
  rcases waits : session.read? with _ | ⟨result, later⟩
  · obtain ⟨opened, nothing⟩ := Session.pending_of_read? waits
    obtain ⟨kept, results⟩ := Connection.run_waiting opened nothing limit
    dsimp only
    rw [kept, results]
    split <;> rfl
  · dsimp only
    rw [Connection.run_free rfl]
    rfl

theorem Session.readAndClose_eq (session : Session) :
    let after := (Connection.ofSession session).run Session.stream [.read Duration.zero, .close, .poll]
    ((after.finished.map EndedRead.result).head?, after.session) =
      (some session.readAndClose.1, session.readAndClose.2) := by
  dsimp only
  rw [Connection.run_cons, Connection.step, Connection.read_ofSession, Session.readAndClose]
  rcases found : session.read? with _ | ⟨result, later⟩
  · rfl
  · rfl

end WebSocket

end SequencedFeed
