import SequencedFeed.Proofs.Delivery
import SequencedFeed.Proofs.Standstill
set_option autoImplicit false

/-!
# Reads that were silent for too long

A read that fails found an error, the end of its connection, or silence until its deadline. The history tells
these apart together with what was taken from the connection: an error that was found has been taken, and
nothing is taken from a connection any more once it was closed. A move leaves a read that failed of silence
behind only if that read was overdue, and no read is overdue in the instant in which it begins.
-/

namespace SequencedFeed

/-! ### What stays of connections -/

namespace Stage

/-- What was sent and what was taken stays so, and nothing more is taken from a connection that is closed. -/
structure Retains (earlier later : Stage) : Prop where
  sent : ∀ link, earlier.sentOn link <+: later.sentOn link
  taken : ∀ link, earlier.takenFrom link ≤ later.takenFrom link
  closes : ∀ link, earlier.closesOf link ≤ later.closesOf link
  final : ∀ link, 0 < earlier.closesOf link → later.takenFrom link = earlier.takenFrom link

variable {stage middle later : Stage}

theorem Retains.of_links (links : later.links = stage.links) : Retains stage later where
  sent link := by simp only [sentOn, links, List.prefix_rfl]
  taken link := by simp only [takenFrom, links, Nat.le_refl]
  closes link := by simp only [closesOf, links, Nat.le_refl]
  final link _ := by simp only [takenFrom, links]

theorem Retains.trans (first : Retains stage middle) (second : Retains middle later) : Retains stage later where
  sent link := (first.sent link).trans (second.sent link)
  taken link := Nat.le_trans (first.taken link) (second.taken link)
  closes link := Nat.le_trans (first.closes link) (second.closes link)
  final link closed := by
    rw [second.final link (Nat.lt_of_lt_of_le closed (first.closes link)), first.final link closed]

theorem Grows.retains (grows : Grows stage later) : Retains stage later where
  sent := grows.sent
  taken link := Nat.le_of_eq (grows.taken link).symm
  closes link := Nat.le_of_eq (grows.closes link).symm
  final link _ := grows.taken link

theorem retains_closeHeld (held : Option Nat) : Retains stage (stage.closeHeld held) where
  sent _ := sentOn_closeHeld ▸ List.prefix_rfl
  taken _ := Nat.le_of_eq takenFrom_closeHeld.symm
  closes := (later_closeHeld held).closes
  final _ _ := takenFrom_closeHeld

theorem Reads.retains {link : Nat} {result : ReadResult} (reads : stage.Reads link result later) :
    Retains stage later := by
  cases reads with
  | closed closed => exact .of_links rfl
  | ended isOpen nothing gone => exact .of_links rfl
  | item inside isOpen next =>
      have taken (other : Nat) : (stage.changeLink link Link.take).takenFrom other =
          stage.takenFrom other + if other = link then 1 else 0 := takenFrom_take inside
      refine ⟨fun other => sentOn_take ▸ List.prefix_rfl, fun other => ?_,
        fun other => Nat.le_of_eq closesOf_take.symm, fun other closed => ?_⟩
      · rw [taken]
        exact Nat.le_add_right ..
      · have different : other ≠ link := by
          rintro rfl
          exact absurd isOpen (Nat.ne_of_gt closed)
        rw [taken, if_neg different, Nat.add_zero]

/-- An error was taken from a connection. -/
def Broke (stage : Stage) (link : Nat) : Prop :=
  ∃ place error, place < stage.takenFrom link ∧ (stage.sentOn link)[place]? = some (.error error)

/-- Nothing but frames was taken from a connection. -/
def Spotless (stage : Stage) (link : Nat) : Prop :=
  ∀ place < stage.takenFrom link, ∃ frame, (stage.sentOn link)[place]? = some (.ok frame)

theorem Retains.getElem?_sent (retains : Retains stage later) {link place : Nat} {item : ReadResult}
    (sent : (stage.sentOn link)[place]? = some item) : (later.sentOn link)[place]? = some item := by
  obtain ⟨rest, grown⟩ := retains.sent link
  rw [← grown, List.getElem?_append_left (List.getElem?_eq_some_iff.mp sent).1]
  exact sent

theorem Retains.broke (retains : Retains stage later) {link : Nat} (broke : stage.Broke link) :
    later.Broke link := by
  obtain ⟨place, error, taken, sent⟩ := broke
  exact ⟨place, error, Nat.lt_of_lt_of_le taken (retains.taken link), retains.getElem?_sent sent⟩

theorem Retains.spotless (retains : Retains stage later) {link : Nat} (closed : 0 < stage.closesOf link)
    (spotless : stage.Spotless link) : later.Spotless link := by
  intro place taken
  rw [retains.final link closed] at taken
  obtain ⟨frame, sent⟩ := spotless place taken
  exact ⟨frame, retains.getElem?_sent sent⟩

theorem Spotless.not_broke {link : Nat} (spotless : stage.Spotless link) : ¬stage.Broke link := by
  rintro ⟨place, error, taken, sent⟩
  obtain ⟨frame, same⟩ := spotless place taken
  rw [sent] at same
  cases same

theorem Reads.broke {link : Nat} {error : TransportError} (reads : stage.Reads link (.error error) later)
    (other : error ≠ .closed) : later.Broke link := by
  cases reads with
  | closed closed => exact absurd rfl other
  | ended isOpen nothing gone => exact absurd rfl other
  | item inside isOpen next =>
      refine ⟨stage.takenFrom link, error, ?_, ?_⟩
      · rw [takenFrom_take inside, if_pos rfl]
        exact Nat.lt_succ_self _
      · rw [sentOn_take]
        exact next

end Stage

namespace Client

variable {client client' : Client} {stage stage' : Stage}

private theorem EndsDial.retains (consistent : client.Consistent stage) {episode : Episode} {ends : DialEnd}
    {stops : Bool} {due : Nat} (here : client.phase = .dialling episode ends stops due)
    (ended : EndsDial client stage episode ends client' stage') : stage.Retains stage' := by
  cases ended with
  | install isOpen changed =>
      obtain ⟨-, rfl⟩ := changeSlot_install changed isOpen (consistent.phase.empty (by rw [here]; rfl))
      exact .of_links rfl
  | refuse stopped => exact Stage.retains_closeHeld _
  | fail => exact .of_links rfl

theorem FailsRead.retains {link since : Nat} {error : TransportError}
    (fails : client.FailsRead stage link since error stage') : stage.Retains stage' := by
  cases fails with
  | found reads => exact reads.retains
  | silent waits limit late => exact .of_links rfl

theorem stop_retains (client : Client) (stage : Stage) : stage.Retains (client.stop stage).2 := by
  rw [stop_eq]
  exact Stage.retains_closeHeld _

theorem Moves.retains (consistent : client.Consistent stage) (moves : client.Moves stage client' stage') :
    stage.Retains stage' := by
  cases moves with
  | pass | skipCancelled | reconnect | endSink | getInLine | endSend => exact .of_links rfl
  | dial here enabled isOpen going next =>
      exact .of_links (congrArg (fun found => found.2.links) next).symm
  | @endDial episode ends stops due _ _ here going late ended =>
      have after := EndsDial.retains (consistent.beforeOutcome stops) ((beforeOutcome_phase stops).trans here) ended
      cases stops with
      | false => exact after
      | true =>
          have asked : stage.Retains { stage with stopAsked := true } := .of_links rfl
          exact (asked.trans (stop_retains ..)).trans after
  | takeFrame here reads takes => exact reads.retains
  | endReading here fails stopping => exact fails.retains
  | drop here fails going changed =>
      have held := consistent.held_of_reading here (going_of_shouldStop going).2
      obtain ⟨-, rfl⟩ := changeSlot_discard changed held
      exact fails.retains.trans (Stage.retains_closeHeld _)

theorem Acts.retains (consistent : client.Consistent stage) (acts : client.Acts stage client' stage') :
    stage.Retains stage' := by
  cases acts with
  | start starts => exact .of_links rfl
  | cancel => exact .of_links rfl
  | stop => exact stop_retains client stage
  | move moves =>
      obtain ⟨next, around, moved, rfl, rfl⟩ := moves_of_move moves
      exact (moved.retains consistent).trans (.of_links rfl)

/-! ### Reads that fail -/

def ReadsAside : List (Nat × Occurrence) → List (Nat × Occurrence) → Prop :=
  OnlyAdds fun occurrence => occurrence.failedRead? = none

theorem ReadsAside.mem {earlier later : List (Nat × Occurrence)} (aside : ReadsAside earlier later)
    {time link : Nat} {error : TransportError} (noted : (time, .read link (.error error)) ∈ later) :
    (time, .read link (.error error)) ∈ earlier := by
  obtain ⟨added, rfl, beside⟩ := aside
  rcases List.mem_append.mp noted with new | old
  · cases beside _ new
  · exact old

private theorem TakesFrame.readsAside {now : Nat} {frame : List UInt8}
    (takes : client.TakesFrame now frame client') : ReadsAside client.history client'.history := by
  have same : ReadsAside client.history client.history := .of_eq rfl
  cases takes with
  | blank empty => exact same
  | undecodable | pass => exact same.cons now rfl
  | apply => exact (same.cons now rfl).cons now rfl

private theorem EndsDial.readsAside {episode : Episode} {ends : DialEnd}
    (ended : EndsDial client stage episode ends client' stage') :
    ReadsAside client.history client'.history := by
  have same : ReadsAside client.history client.history := .of_eq rfl
  cases ended with
  | install isOpen changed =>
      obtain ⟨gauge, rfl⟩ := changeSlot_gauge changed
      exact ((same.cons _ rfl).cons _ rfl).cons _ rfl
  | refuse stopped => exact (same.cons _ rfl).cons _ rfl
  | fail => exact (same.cons _ rfl).cons _ rfl

theorem Moves.failure (consistent : client.Consistent stage) (moves : client.Moves stage client' stage') :
    ReadsAside client.history client'.history ∨
      ∃ link since error around, client.phase = .reading link since ∧
        client.FailsRead stage link since error around ∧ around.Retains stage' ∧
        ReadsAside ((stage.now, .read link (.error error)) :: client.history) client'.history := by
  have same : ReadsAside client.history client.history := .of_eq rfl
  cases moves with
  | pass passes => exact .inl same
  | skipCancelled here enabled isOpen cancelled => exact .inl (same.cons _ rfl)
  | dial here enabled isOpen going next => exact .inl ((same.cons _ rfl).cons _ rfl)
  | @endDial episode ends stops due _ _ here going late ended =>
      have after := EndsDial.readsAside ended
      cases stops with
      | false => exact .inl after
      | true =>
          have stopped : ReadsAside client.history (client.beforeOutcome stage true).1.history := by
            rw [beforeOutcome, if_pos rfl, stop_eq]
            exact same.cons _ rfl
          exact .inl (stopped.trans after)
  | takeFrame here reads takes => exact .inl ((same.cons stage.now rfl).trans takes.readsAside)
  | endReading here fails stopping =>
      exact .inr ⟨_, _, _, _, here, fails, .of_links rfl, .of_eq rfl⟩
  | drop here fails going changed =>
      have held := consistent.held_of_reading here (going_of_shouldStop going).2
      obtain ⟨rfl, rfl⟩ := changeSlot_discard changed held
      exact .inr ⟨_, _, _, _, here, fails, Stage.retains_closeHeld _, OnlyAdds.cons (.of_eq rfl) stage.now rfl⟩
  | reconnect here unconnected going => exact .inl (same.cons _ rfl)
  | endSink here late =>
      refine .inl ?_
      rw [endSink_history]
      split
      · exact (same.cons stage.now rfl).cons stage.now rfl
      · exact same.cons stage.now rfl
  | getInLine here observed sent => exact .inl same
  | @endSend mark how channel channel' observed ends =>
      refine .inl ?_
      rw [endSend_history]
      cases how with
      | delivered | timedOut | closed => exact same.cons stage.now rfl
      | abandoned => exact same

/-- A read of a connection that has had to wait until its deadline. -/
def Overdue (client : Client) (stage : Stage) (link : Nat) : Prop :=
  ∃ since deadline, client.phase = .reading link since ∧ stage.readLink? link = none ∧
    client.idleDeadline? since = some deadline ∧ deadline ≤ stage.now

theorem idleDeadline?_eq_some {since deadline : Nat} : client.idleDeadline? since = some deadline ↔
    0 < client.options.endpoint.idleTimeout.millis ∧
      since + min client.options.endpoint.idleTimeout.millis longestWait = deadline := by
  unfold idleDeadline?
  dsimp only
  split
  · next none => simp [none]
  · next limited =>
      rw [Option.some.injEq, expiry]
      exact (and_iff_right (Nat.pos_of_ne_zero limited)).symm

theorem lt_idleDeadline {since deadline : Nat} (limit : client.idleDeadline? since = some deadline) :
    since < deadline := by
  obtain ⟨timed, rfl⟩ := idleDeadline?_eq_some.mp limit
  exact lt_expiry timed

theorem not_overdue (begun : ∀ link since, client.phase = .reading link since → since = stage.now) {link : Nat} :
    ¬client.Overdue stage link := by
  rintro ⟨since, deadline, here, -, limit, late⟩
  have later := lt_idleDeadline limit
  rw [begun link since here] at later
  omega

/-- A move leaves a read that ran into its deadline behind if that read was overdue, or else if it found an
error of that kind. -/
theorem Moves.silence (consistent : client.Consistent stage) (moves : client.Moves stage client' stage')
    {time link : Nat} {limit : Duration} (noted : (time, .read link (.error (.idleTimeout limit))) ∈ client'.history) :
    (time, .read link (.error (.idleTimeout limit))) ∈ client.history ∨ stage'.Broke link ∨
      time = stage.now ∧ client.Overdue stage link := by
  rcases moves.failure consistent with aside | ⟨other, since, error, around, here, fails, retains, aside⟩
  · exact .inl (aside.mem noted)
  · rcases List.mem_cons.mp (aside.mem noted) with new | old
    · cases new
      cases fails with
      | found reads => exact .inr (.inl (retains.broke (reads.broke (fun other => by cases other))))
      | silent waits limit late => exact .inr (.inr ⟨rfl, since, _, here, waits, limit, late⟩)
    · exact .inl old

/-! ### Coming to rest -/

/-- What a client may have come to by moving at one instant, however often. -/
structure ComesTo (client : Client) (stage : Stage) (client' : Client) (stage' : Stage) : Prop where
  now : stage'.now = stage.now
  retains : stage.Retains stage'
  silence : ∀ {time link : Nat} {limit : Duration},
    (time, .read link (.error (.idleTimeout limit))) ∈ client'.history →
      (time, .read link (.error (.idleTimeout limit))) ∈ client.history ∨ stage'.Broke link ∨
        time = stage.now ∧ client.Overdue stage link
  begins : ∀ {link since : Nat}, client'.phase = .reading link since →
    since = stage.now ∨ client' = client ∧ stage' = stage

theorem ComesTo.self (client : Client) (stage : Stage) : client.ComesTo stage client stage :=
  ⟨rfl, .of_links rfl, .inl, fun _ => .inr ⟨rfl, rfl⟩⟩

theorem ComesTo.move {next : Client} {around : Stage} (consistent : client.Consistent stage)
    (moved : client.move? stage = some (next, around)) (rest : next.ComesTo around client' stage') :
    client.ComesTo stage client' stage' := by
  have retains : stage.Retains around := (Acts.move moved).retains consistent
  obtain ⟨later, beside, moves, rfl, rfl⟩ := moves_of_move moved
  obtain ⟨scripts, links, channel, stopAsked, same⟩ := moves.surroundings
  have now : beside.now = stage.now := by rw [same]
  have fresh {link since : Nat} (here : later.phase = .reading link since) : since = stage.now :=
    (moves.begins_read here).2
  refine ⟨rest.now.trans now, retains.trans rest.retains, fun noted => ?_, fun here => ?_⟩
  · rcases rest.silence noted with before | broke | ⟨-, overdue⟩
    · rcases moves.silence consistent before with old | broke | new
      · exact .inl old
      · exact .inr (.inl (rest.retains.broke broke))
      · exact .inr (.inr new)
    · exact .inr (.inl broke)
    · refine absurd overdue (not_overdue ?_)
      exact fun link since here => (fresh here).trans now.symm
  · rcases rest.begins here with begun | ⟨rfl, -⟩
    · exact .inl (begun.trans now)
    · exact .inl (fresh here)

theorem Consistent.comesTo (consistent : client.Consistent stage) (count : Nat) :
    client.ComesTo stage (moveUpTo count client stage).1 (moveUpTo count client stage).2 := by
  induction count generalizing client stage with
  | zero => exact .self client stage
  | succ count ih =>
      unfold moveUpTo
      cases moved : client.move? stage with
      | none => exact .self client stage
      | some next => exact .move consistent moved (ih (consistent.acts (.move moved)))

/-! ### Connections that are lost to silence -/

/-- A connection was lost at an instant because a read of it ran into its deadline: that read failed so, it was
no error of this kind that was taken from the connection, and the connection was closed. -/
structure LostToSilence (client : Client) (stage : Stage) (link time : Nat) : Prop where
  noted : (time, .read link (.error (.idleTimeout client.options.endpoint.idleTimeout))) ∈ client.history
  spotless : stage.Spotless link
  closed : 0 < stage.closesOf link

theorem LostToSilence.later {link time : Nat} (lost : client.LostToSilence stage link time)
    (options : client'.options = client.options) (history : client.history <:+ client'.history)
    (retains : stage.Retains stage') : client'.LostToSilence stage' link time where
  noted := by
    rw [options]
    exact history.subset lost.noted
  spotless := retains.spotless lost.closed lost.spotless
  closed := Nat.lt_of_lt_of_le lost.closed (retains.closes link)

theorem endRead_failed (stage : Stage) (going : client.shouldStop = false) {link : Nat}
    (held : client.slot.held = some link) (error : TransportError) :
    ∃ next, client.endRead stage link (.error error) = (next, stage.closeHeld (some link)) ∧
      next.options = client.options ∧ (stage.now, .read link (.error error)) ∈ next.history := by
  obtain ⟨⟨next, around⟩, changed⟩ : ∃ found,
      (((client.note stage.now (.read link (.error error))).log stage.now (client.readReport error)).count
        .read).changeSlot stage (client.slot.discard link) = found := ⟨_, rfl⟩
  have ended : client.endRead stage link (.error error) =
      (next.enter (next.firstBackingOff around.now), around) := by
    unfold endRead sufferRead
    dsimp only
    rw [if_neg (by exact ne_true_of_eq_false going)]
    exact congrArg (fun found : Client × Stage => (found.1.enter (found.1.firstBackingOff found.2.now), found.2)) changed
  obtain ⟨rfl, rfl⟩ := changeSlot_discard changed held
  exact ⟨_, ended, rfl, List.mem_cons_of_mem _ List.mem_cons_self⟩

theorem Delivers.spotless (delivers : client.Delivers stage) {link : Nat} (held : client.slot.held = some link)
    (task : client.phase ≠ .idle) : stage.Spotless link := by
  intro place taken
  rw [delivers.clean link held task] at taken
  obtain ⟨rest, sent⟩ := delivers.sent link
  refine ⟨(client.framesRead link)[place], ?_⟩
  rw [← sent, List.getElem?_append_left (by rwa [List.length_map]), List.getElem?_map, List.getElem?_eq_getElem taken]
  rfl

/-- A read that runs into its deadline is the end of the connection, unless the client is to stop. -/
theorem Delivers.endRead_silent (delivers : client.Delivers stage) (consistent : client.Consistent stage)
    (going : client.shouldStop = false) {link : Nat} (held : client.slot.held = some link)
    (task : client.phase ≠ .idle) :
    ∃ next, client.endRead stage link (.error (.idleTimeout client.options.endpoint.idleTimeout)) =
        (next, stage.closeHeld (some link)) ∧
      next.LostToSilence (stage.closeHeld (some link)) link stage.now := by
  obtain ⟨next, ended, options, noted⟩ :=
    endRead_failed stage going held (.idleTimeout client.options.endpoint.idleTimeout)
  refine ⟨next, ended, ?_, fun place taken => ?_, ?_⟩
  · rw [options]
    exact noted
  · rw [Stage.takenFrom_closeHeld] at taken
    rw [Stage.sentOn_closeHeld]
    exact delivers.spotless held task place taken
  · rw [Stage.closesOf_closeHeld fun other same => consistent.held other (held.trans same), if_pos rfl]
    exact Nat.succ_pos _

theorem Consistent.loses (consistent : client.Consistent stage) (delivers : client.Delivers stage)
    (going : client.shouldStop = false) {link since deadline : Nat} (here : client.phase = .reading link since)
    (waits : stage.readLink? link = none) (limit : client.idleDeadline? since = some deadline)
    (late : deadline ≤ stage.now) :
    ∃ next around, client.move? stage = some (next, around) ∧ next.LostToSilence around link stage.now := by
  have held := consistent.held_of_reading here (going_of_shouldStop going).2
  obtain ⟨next, ended, lost⟩ := delivers.endRead_silent consistent going held (by simp [here])
  have proceeds : client.proceed? stage = some (next, stage.closeHeld (some link)) := by
    rw [← ended]
    simp only [proceed?, here, read?, waits, limit]
    exact if_pos late
  have moved : client.move? stage = some
      ({ next with lastMove := (stage.closeHeld (some link)).moves },
        { stage.closeHeld (some link) with moves := (stage.closeHeld (some link)).moves + 1 }) := by
    rw [move?, proceeds]
    rfl
  exact ⟨_, _, moved, lost.later rfl List.suffix_rfl (.of_links rfl)⟩

end Client

namespace ClientRun

variable {run later : ClientRun}

theorem Reaches.retains (reachable : run.Reachable) (reaches : run.Reaches later) :
    run.stage.Retains later.stage := by
  induction reaches with
  | refl => exact .of_links rfl
  | tail reaches step ih =>
      refine ih.trans ?_
      rcases step.acts with acts | ⟨-, same | changes⟩
      · exact acts.retains (reachable.later reaches).consistent
      · rw [same]
        exact .of_links rfl
      · exact changes.grows.retains

theorem Reaches.lost (reachable : run.Reachable) (reaches : run.Reaches later) {link time : Nat}
    (lost : run.client.LostToSilence run.stage link time) : later.client.LostToSilence later.stage link time :=
  lost.later reaches.settings.1 reaches.history (reaches.retains reachable)

end ClientRun

end SequencedFeed
