import SequencedFeed.Proofs.LateSending
set_option autoImplicit false

/-!
# Frames without effect

A frame that is empty, holds no envelope, or holds one of another version is read and left. A client that finds such
a frame makes two moves and is where it was, one item further. So clients do the same in the end whose connections
differ in nothing but such frames, though not move by move.
-/

namespace SequencedFeed

/-- Whether a frame is empty, does not decode, or has a version that is not supported. -/
def isInert (frame : List UInt8) : Bool :=
  frame.isEmpty ||
    match Envelope.decode Payload.any frame with
    | .error _ => true
    | .ok envelope => !envelope.isSupported

/-- Whether an item of a connection is more than an inert frame. -/
def ReadResult.matters : ReadResult → Bool
  | .ok frame => !isInert frame
  | .error _ => true

/-- Whether an occurrence is neither a log record nor the reading of an inert frame. -/
def Occurrence.matters : Occurrence → Bool
  | .log _ => false
  | .read _ result => ReadResult.matters result
  | _ => true

def Metrics.besidesFrames (metrics : Metrics) : Metrics :=
  { metrics with frames := 0, decodeErrors := 0 }

/-- What matters of the history of a client. -/
def Client.matter (client : Client) : List (Nat × Occurrence) :=
  client.history.filter fun entry => entry.2.matters

namespace Link

def matter (link : Link) : List ReadResult :=
  link.items.filter ReadResult.matters

/-- Connections that hold the same but for inert frames. -/
structure SameMatter (link other : Link) : Prop where
  name : link.name = other.name
  hungUp : link.hungUp = other.hungUp
  closes : link.closes = other.closes
  matter : link.matter = other.matter
  taken : link.taken ≤ link.sent.length
  taken' : other.taken ≤ other.sent.length

variable {link other : Link}

theorem SameMatter.symm (same : link.SameMatter other) : other.SameMatter link :=
  ⟨same.name.symm, same.hungUp.symm, same.closes.symm, same.matter.symm, same.taken', same.taken⟩

theorem SameMatter.close (same : link.SameMatter other) : link.close.SameMatter other.close :=
  { same with closes := congrArg (· + 1) same.closes }

theorem SameMatter.hangUp (same : link.SameMatter other) : link.hangUp.SameMatter other.hangUp :=
  { same with hungUp := rfl }

theorem push_matter (inside : link.taken ≤ link.sent.length) (item : ReadResult) :
    (link.push item).taken ≤ (link.push item).sent.length ∧
      (link.push item).matter =
        link.matter ++ if ReadResult.matters item = true ∧ link.hungUp = false then [item] else [] := by
  unfold push
  cases gone : link.hungUp with
  | true => simp [inside]
  | false =>
      refine ⟨by simp only [Bool.false_eq_true, if_false, List.length_append]; omega, ?_⟩
      simp only [matter, items, Bool.false_eq_true, if_false, List.drop_append_of_le_length inside, List.filter_append,
        and_true]
      by_cases matters : ReadResult.matters item = true
      · rw [List.filter_cons_of_pos matters, if_pos matters, List.filter_nil]
      · rw [List.filter_cons_of_neg matters, if_neg matters, List.filter_nil]

theorem SameMatter.push (same : link.SameMatter other) (item : ReadResult) :
    (link.push item).SameMatter (other.push item) := by
  obtain ⟨inside, pushed⟩ := push_matter same.taken item
  obtain ⟨inside', pushed'⟩ := push_matter same.taken' item
  have kept (link : Link) : (link.push item).name = link.name ∧ (link.push item).hungUp = link.hungUp ∧
      (link.push item).closes = link.closes := by
    unfold Link.push
    split <;> exact ⟨rfl, rfl, rfl⟩
  refine ⟨?_, ?_, ?_, ?_, inside, inside'⟩
  · rw [(kept link).1, (kept other).1, same.name]
  · rw [(kept link).2.1, (kept other).2.1, same.hungUp]
  · rw [(kept link).2.2, (kept other).2.2, same.closes]
  · rw [pushed, pushed', same.matter, same.hungUp]

theorem SameMatter.push_inert (same : link.SameMatter other) {item : ReadResult} (inert : ReadResult.matters item = false) :
    (link.push item).SameMatter other := by
  obtain ⟨inside, pushed⟩ := push_matter same.taken item
  have kept : (link.push item).name = link.name ∧ (link.push item).hungUp = link.hungUp ∧
      (link.push item).closes = link.closes := by
    unfold Link.push
    split <;> exact ⟨rfl, rfl, rfl⟩
  refine ⟨kept.1.trans same.name, kept.2.1.trans same.hungUp, kept.2.2.trans same.closes, ?_, inside, same.taken'⟩
  rw [pushed, inert, same.matter]
  simp

theorem SameMatter.iterate {change : Link → Link} (keeps : ∀ {link other : Link}, link.SameMatter other →
    (change link).SameMatter (change other)) (same : link.SameMatter other) (times : Nat) :
    (Nat.repeat change times link).SameMatter (Nat.repeat change times other) := by
  induction times with
  | zero => exact same
  | succ times ih => exact keeps ih

theorem SameMatter.iterate_inert (same : link.SameMatter other) {item : ReadResult}
    (inert : ReadResult.matters item = false) (times : Nat) : (Nat.repeat (Link.push item) times link).SameMatter other := by
  induction times with
  | zero => exact same
  | succ times ih => exact ih.push_inert inert

section

variable (isOpen : link.isClosed = false)
include isOpen

theorem read?_nil (nothing : link.items = []) :
    link.read? = if link.hungUp = true then some (.error .closed, link) else none := by
  have past : link.sent[link.taken]? = none := by
    rw [← List.head?_drop]
    exact congrArg List.head? nothing
  simp only [read?, isOpen, Bool.false_eq_true, if_false, past]

theorem read?_cons {item : ReadResult} {rest : List ReadResult} (next : link.items = item :: rest) :
    link.read? = some (item, link.take) ∧ link.take.items = rest ∧ link.taken < link.sent.length := by
  have here : link.sent[link.taken]? = some item := by
    rw [← List.head?_drop]
    exact congrArg List.head? next
  refine ⟨?_, ?_, (List.getElem?_eq_some_iff.mp here).1⟩
  · simp only [read?, isOpen, Bool.false_eq_true, if_false, here]
    rfl
  · have tail : link.items.tail = rest := by rw [next, List.tail_cons]
    rw [← tail]
    exact List.tail_drop.symm

end

theorem SameMatter.read_inert (same : link.SameMatter other) {frame : List UInt8} {rest : Link}
    (inert : isInert frame = true) (reads : link.read? = some (.ok frame, rest)) : rest.SameMatter other := by
  cases closed : link.isClosed with
  | true =>
      rw [read?, if_pos closed] at reads
      cases reads
  | false =>
      cases next : link.items with
      | nil =>
          rw [read?_nil closed next] at reads
          split at reads <;> cases reads
      | cons item later =>
          obtain ⟨taken, left, inside⟩ := read?_cons closed next
          obtain ⟨rfl, rfl⟩ := Prod.mk.inj (Option.some.inj (taken.symm.trans reads))
          refine { same with matter := ?_, taken := inside }
          have skipped : ReadResult.matters (.ok frame) = false := by simp [ReadResult.matters, inert]
          rw [← same.matter, Link.matter, Link.matter, left, next, List.filter_cons_of_neg (by simp [skipped])]

private theorem matters_of_read {item : ReadResult} {later : Link}
    (lively : ∀ frame rest, link.read? = some (.ok frame, rest) → isInert frame = false)
    (reads : link.read? = some (item, later)) : ReadResult.matters item = true := by
  cases item with
  | error error => rfl
  | ok frame => simp [ReadResult.matters, lively frame later reads]

theorem SameMatter.read (same : link.SameMatter other)
    (lively : ∀ frame rest, link.read? = some (.ok frame, rest) → isInert frame = false)
    (lively' : ∀ frame rest, other.read? = some (.ok frame, rest) → isInert frame = false) :
    Option.Rel (fun here there => here.1 = there.1 ∧ here.2.SameMatter there.2) link.read? other.read? := by
  have closes : link.isClosed = other.isClosed := by rw [isClosed, isClosed, same.closes]
  have matter := same.matter
  unfold Link.matter at matter
  cases closed : other.isClosed with
  | true =>
      rw [read?, read?, if_pos (closes.trans closed), if_pos closed]
      exact .some ⟨rfl, same⟩
  | false =>
      have isOpen := closes.trans closed
      cases next : link.items with
      | nil =>
          cases next' : other.items with
          | nil =>
              rw [read?_nil isOpen next, read?_nil closed next', same.hungUp]
              split
              · exact .some ⟨rfl, same⟩
              · exact .none
          | cons item rest =>
              have first := matters_of_read lively' (read?_cons closed next').1
              rw [next, next', List.filter_cons_of_pos first] at matter
              cases matter
      | cons item rest =>
          obtain ⟨taken, left, inside⟩ := read?_cons isOpen next
          have first := matters_of_read lively taken
          cases next' : other.items with
          | nil =>
              rw [next, next', List.filter_cons_of_pos first] at matter
              cases matter
          | cons item' rest' =>
              obtain ⟨taken', left', inside'⟩ := read?_cons closed next'
              have first' := matters_of_read lively' taken'
              rw [next, next', List.filter_cons_of_pos first, List.filter_cons_of_pos first'] at matter
              obtain ⟨items, rests⟩ := List.cons.inj matter
              rw [taken, taken']
              refine .some ⟨items, { same with matter := ?_, taken := inside, taken' := inside' }⟩
              rw [Link.matter, Link.matter, left, left', rests]

end Link

/-! ### Clients that differ in nothing that matters -/

theorem Metrics.besidesFrames_eq_iff {metrics other : Metrics} :
    metrics.besidesFrames = other.besidesFrames ↔
      metrics.gauge = other.gauge ∧ metrics.dialFailures = other.dialFailures ∧ metrics.readErrors = other.readErrors ∧
        metrics.sinkErrors = other.sinkErrors ∧ metrics.confirmationErrors = other.confirmationErrors := by
  simp [besidesFrames]

theorem Occurrence.rename_id (occurrence : Occurrence) : occurrence.rename id = occurrence := by
  cases occurrence with
  | dialEnded ends => cases ends <;> rfl
  | _ => rfl

def inMatter : Likeness where
  rename := id
  links _ := Link.SameMatter
  counts metrics other := metrics.besidesFrames = other.besidesFrames
  pasts past other := (past.filter fun entry => entry.2.matters) = other.filter fun entry => entry.2.matters
  loose := true
  injective := id
  close := Link.SameMatter.close
  opened same := by
    rw [Metrics.besidesFrames_eq_iff] at same ⊢
    simp [Metrics.connectionOpened, Metrics.active, same]
  closed same := by
    rw [Metrics.besidesFrames_eq_iff] at same ⊢
    simp [Metrics.connectionClosed, Metrics.active, same]
  dialFailed same := by
    rw [Metrics.besidesFrames_eq_iff] at same ⊢
    simp [Metrics.dialFailed, same]
  framed same := by
    rw [Metrics.besidesFrames_eq_iff] at same ⊢
    simp [Metrics.frameReceived, same]
  failed kind same := by
    rw [Metrics.besidesFrames_eq_iff] at same ⊢
    cases kind <;> simp [Metrics.errorOccurred, same]
  noted time occurrence same := by
    rw [occurrence.rename_id, List.filter_cons, List.filter_cons, same]

theorem Phase.rename_id (phase : Phase) : phase.rename id = phase := by
  cases phase with
  | dialling episode ends => cases ends <;> rfl
  | _ => rfl

theorem Slot.rename_id (slot : Slot Nat) : slot.rename id = slot := by
  obtain ⟨held, shuttingDown⟩ := slot
  cases held <;> rfl

theorem DialScript.rename_id (script : DialScript) : script.rename id = script := by
  have ends : DialEnd.rename id = id := funext fun ends => by cases ends <;> rfl
  have outcomes : Outcome.rename id = id := by
    funext outcome
    rw [Outcome.rename, ends, Option.map_id]
    rfl
  rw [DialScript.rename, outcomes, List.map_id]

theorem Phase.Like.exists_reading {link since : Nat} {phase : Phase}
    (alike : (Phase.reading link since).Like inMatter phase) : ∃ since', phase = .reading link since' := by
  generalize found : Phase.reading link since = here at alike
  cases alike with
  | same => exact ⟨since, phase.rename_id.symm.trans found.symm⟩
  | @reading other since since' loose =>
      obtain ⟨rfl, -⟩ := Phase.reading.inj found
      exact ⟨since', rfl⟩

theorem Stage.Like.read_inert {url : String} {stage around other later : Stage}
    (alike : stage.Like inMatter url around other) {link : Nat} {frame : List UInt8}
    (reads : stage.readLink? link = some (.ok frame, later)) (inert : isInert frame = true) :
    later.Like inMatter url later other := by
  unfold readLink? at reads
  cases found : stage.links[link]? with
  | none => simp [found] at reads
  | some held =>
      cases read : held.read? with
      | none => simp [found, read] at reads
      | some next =>
          obtain ⟨result, rest⟩ := next
          simp only [found, read, Option.bind_some, Option.some.injEq, Prod.mk.injEq] at reads
          obtain ⟨rfl, rfl⟩ := reads
          refine { alike.here with links := fun number => ?_, size := rfl, apart := fun _ _ => rfl, others := fun _ _ => rfl }
          have held_alike : Option.Rel Link.SameMatter stage.links[number]? other.links[number]? := alike.links number
          change Option.Rel Link.SameMatter (stage.links.set link rest)[number]? other.links[number]?
          by_cases here : link = number
          · subst here
            rw [List.getElem?_set_self', found, Option.map_eq_map, Option.map_some]
            rw [found] at held_alike
            generalize other.links[link]? = there at held_alike ⊢
            cases held_alike with
            | some same => exact .some (same.read_inert inert read)
          · rw [List.getElem?_set_ne here]
            exact held_alike

/-- Two clients on stages of their own of which one cannot tell them apart by anything that matters. -/
def AlikeInMatter (here there : Client × Stage) : Prop :=
  Alike inMatter here.2 here there

namespace AlikeInMatter

variable {client mate : Client} {stage other : Stage}

theorem symm (alike : AlikeInMatter (client, stage) (mate, other)) : AlikeInMatter (mate, other) (client, stage) := by
  have clients : client.Like inMatter mate := alike.client
  have stages : stage.Like inMatter mate.url stage other := alike.stage
  have slots : client.slot = mate.slot := clients.slot.trans mate.slot.rename_id
  refine ⟨?_, ?_, ?_⟩
  · refine ⟨clients.options.symm, clients.sink.symm, clients.started.symm, clients.cancelled.symm,
      slots.symm.trans client.slot.rename_id.symm, ?_, clients.retryCount.symm, Eq.symm clients.metrics,
      Eq.symm clients.history, fun loose => ?_⟩
    · have phases := clients.phase
      generalize client.phase = here at phases ⊢
      generalize mate.phase = there at phases ⊢
      cases phases with
      | same =>
          have unnamed : there.rename inMatter.rename = there := there.rename_id
          rw [unnamed]
          have same : Phase.Like inMatter (there.rename inMatter.rename) there := .same there
          rwa [unnamed] at same
      | reading loose => exact .reading loose
    · rw [clients.options]
      exact clients.endless loose
  · have url : client.url = mate.url := clients.url_eq
    have script : stage.script mate.url = other.script mate.url := stages.script.trans (DialScript.rename_id _)
    refine ⟨stages.now.symm, stages.token.symm, stages.asked.symm, stages.channel.symm, ?_, fun number => ?_, rfl,
      fun _ _ => rfl, fun _ _ => rfl⟩
    · change other.script client.url = (stage.script client.url).rename id
      rw [url, script, DialScript.rename_id]
    · have held : Option.Rel Link.SameMatter stage.links[number]? other.links[number]? := stages.links number
      change Option.Rel Link.SameMatter other.links[number]? stage.links[number]?
      generalize stage.links[number]? = here at held ⊢
      generalize other.links[number]? = there at held ⊢
      cases held with
      | none => exact .none
      | some same => exact .some same.symm
  · rcases alike.heard with silent | same
    · exact .inl (stages.channel.trans silent)
    · exact .inr same.symm

end AlikeInMatter

namespace Client

variable {client client' : Client} {stage stage' : Stage}

/-- A client that is only ever cancelled by a stop. -/
structure Plain (client : Client) (stage : Stage) : Prop where
  consistent : client.Consistent stage
  pauses : client.Pauses stage
  token : stage.tokenCancelled = false
  cancelled : client.cancelled = true → client.slot.shuttingDown = true

theorem Plain.move (plain : client.Plain stage) (moved : client.move? stage = some (client', stage')) :
    client'.Plain stage' := by
  have acts : client.Acts stage client' stage' := .move moved
  obtain ⟨next, around, moves, rfl, rfl⟩ := moves_of_move moved
  have keeps := moves.keeps
  refine ⟨plain.consistent.acts acts, acts.pauses plain.pauses, ?_, fun cancelled => ?_⟩
  · obtain ⟨scripts, links, channel, stopAsked, rfl⟩ := moves.surroundings
    exact plain.token
  · rcases keeps.uncancelled cancelled with before | stopped
    · exact keeps.stopped (plain.cancelled before)
    · exact stopped

theorem Plain.settle (plain : client.Plain stage) : (client.settle stage).1.Plain (client.settle stage).2 := by
  have moving (count : Nat) {client : Client} {stage : Stage} (plain : client.Plain stage) :
      (moveUpTo count client stage).1.Plain (moveUpTo count client stage).2 := by
    induction count generalizing client stage with
    | zero => exact plain
    | succ count ih =>
        unfold moveUpTo
        cases moved : client.move? stage with
        | none => exact plain
        | some next => exact ih (plain.move moved)
  exact moving _ plain

theorem takeFrame_inert (client : Client) (now : Nat) {frame : List UInt8} (inert : isInert frame = true) :
    ∃ metrics history, client.takeFrame now frame = { client with metrics, history, phase := .looping } ∧
      metrics.besidesFrames = client.metrics.besidesFrames ∧
        (history.filter fun entry => entry.2.matters) = client.matter := by
  unfold isInert at inert
  unfold takeFrame
  cases blank : frame.isEmpty with
  | true => exact ⟨client.metrics, client.history, rfl, rfl, rfl⟩
  | false =>
      cases decoded : Envelope.decode Payload.any frame with
      | error error => exact ⟨_, _, rfl, rfl, List.filter_cons_of_neg (by simp [Occurrence.matters])⟩
      | ok envelope =>
          have foreign : envelope.isSupported = false := by simpa [blank, decoded] using inert
          simp only [route, foreign]
          exact ⟨_, _, rfl, rfl, List.filter_cons_of_neg (by simp [Occurrence.matters])⟩

theorem Plain.read_inert (plain : client.Plain stage) {link since : Nat} (here : client.phase = .reading link since)
    {frame : List UInt8} {later : Stage} (reads : stage.readLink? link = some (.ok frame, later))
    (inert : isInert frame = true) :
    ∃ metrics history lastMove middle, client.move? stage = some middle ∧
      middle.1.move? middle.2 = some
        ({ client with phase := .reading link later.now, metrics, history, lastMove },
          { later with moves := later.moves + 1 + 1 }) ∧
      metrics.besidesFrames = client.metrics.besidesFrames ∧
        (history.filter fun entry => entry.2.matters) = client.matter := by
  have taken := Stage.reads_of_readLink reads
  have held := plain.consistent.held_of_frame here taken
  have going : client.cancelled = false := by
    refine Bool.eq_false_iff.mpr fun cancelled => ?_
    have isOpen := plain.consistent.isOpen_of_frame here taken
    exact Bool.false_ne_true (isOpen.symm.trans (plain.cancelled cancelled))
  obtain ⟨metrics, history, left, counts, past⟩ :=
    (client.note later.now (.read link (.ok frame))).takeFrame_inert later.now inert
  have ended : client.endRead later link (.ok frame) =
      ({ client with metrics, history, phase := .looping }, later) := by
    simp only [endRead, left]
    rfl
  refine ⟨metrics, history, later.moves + 1,
    ({ client with metrics, history, phase := .looping, lastMove := later.moves }, { later with moves := later.moves + 1 }),
    ?_, ?_, counts, past.trans ?_⟩
  · simp only [move?, proceed?, here, read?, reads, ended, Option.map_some]
  · simp only [move?, proceed?, beginRead, going, held, Bool.false_eq_true, if_false, Option.map_some, enter]
  · exact List.filter_cons_of_neg (by simp [Occurrence.matters, ReadResult.matters, inert])

end Client

namespace AlikeInMatter

variable {client mate : Client} {stage other : Stage}

/-- An inert frame can be skipped by either of the two. -/
theorem skip (alike : AlikeInMatter (client, stage) (mate, other)) (plain : client.Plain stage) {link since : Nat}
    (here : client.phase = .reading link since) {frame : List UInt8} {later : Stage}
    (reads : stage.readLink? link = some (.ok frame, later)) (inert : isInert frame = true) :
    ∃ client' stage', client.settle stage = client'.settle stage' ∧ client'.toil stage' < client.toil stage ∧
      client'.Plain stage' ∧ AlikeInMatter (client', stage') (mate, other) := by
  obtain ⟨metrics, history, lastMove, ⟨middle, around⟩, first, second, counts, past⟩ := plain.read_inert here reads inert
  have between := plain.move first
  have same := plain.consistent.settle_of_move plain.pauses first
  have same' := between.consistent.settle_of_move between.pauses second
  have less := plain.consistent.toil_lt_of_move plain.pauses first
  have less' := between.consistent.toil_lt_of_move between.pauses second
  refine ⟨_, _, same.trans same', by omega, between.move second, ?_⟩
  have clients : client.Like inMatter mate := alike.client
  have stages : stage.Like inMatter mate.url stage other := alike.stage
  refine ⟨?_, ?_, alike.heard⟩
  · refine { clients with phase := ?_, metrics := counts.trans clients.metrics, history := past.trans clients.history }
    have phases := clients.phase
    rw [here] at phases
    obtain ⟨since', reading⟩ := phases.exists_reading
    rw [reading]
    exact .reading rfl
  · have after : later.Like inMatter mate.url later other := stages.read_inert reads inert
    exact { after with }

theorem of_alike {around : Stage} {here there : Client × Stage} (alike : Alike inMatter around here there) :
    AlikeInMatter here there :=
  ⟨alike.client, alike.stage.here, alike.heard⟩

def FindsInert (client : Client) (stage : Stage) : Prop :=
  ∃ link since frame later, client.phase = .reading link since ∧ stage.readLink? link = some (.ok frame, later) ∧
    isInert frame = true

private theorem lively_of_finds {link since : Nat} (here : client.phase = .reading link since)
    (finds : ¬FindsInert client stage) {held : Link} (found : stage.links[link]? = some held) (frame : List UInt8) (rest : Link)
    (reads : held.read? = some (.ok frame, rest)) : isInert frame = false := by
  refine Bool.eq_false_iff.mpr fun inert =>
    finds ⟨link, since, frame, { stage with links := stage.links.set link rest }, here, ?_, inert⟩
  unfold Stage.readLink?
  simp only [found, reads, Option.bind_some]

theorem move (alike : AlikeInMatter (client, stage) (mate, other)) (finds : ¬FindsInert client stage)
    (finds' : ¬FindsInert mate other) : Option.Rel AlikeInMatter (client.move? stage) (mate.move? other) := by
  have moves : Option.Rel (Alike inMatter stage) (client.move? stage) (mate.move? other) := by
    refine Alike.move alike fun link since here => ?_
    have phases : mate.phase.Like inMatter client.phase := alike.symm.client.phase
    rw [here] at phases
    obtain ⟨since', reading⟩ := phases.exists_reading
    refine Alike.readsAlike_of_links alike.stage fun held held' found found' => ?_
    have links : Option.Rel Link.SameMatter stage.links[link]? other.links[link]? := alike.stage.links link
    have found : stage.links[link]? = some held := found
    rw [found, found'] at links
    cases links with
    | some same => exact same.read (lively_of_finds reading finds found) (lively_of_finds here finds' found')
  generalize client.move? stage = moved at moves
  generalize mate.move? other = moved' at moves
  cases moves with
  | none => exact .none
  | some alike => exact .some (of_alike alike)

/-- Both come to a rest that is the same in all that matters. The induction is on the moves that both can make
altogether, for the two do not keep step. -/
theorem settle (alike : AlikeInMatter (client, stage) (mate, other)) (plain : client.Plain stage)
    (plain' : mate.Plain other) : AlikeInMatter (client.settle stage) (mate.settle other) := by
  induction total : client.toil stage + mate.toil other using Nat.strongRecOn generalizing client stage mate other with
  | _ most ih =>
      subst total
      by_cases finds : FindsInert client stage
      · obtain ⟨link, since, frame, later, here, reads, inert⟩ := finds
        obtain ⟨client', stage', same, less, next, alike'⟩ := alike.skip plain here reads inert
        rw [same]
        exact ih _ (by omega) alike' next plain' rfl
      by_cases finds' : FindsInert mate other
      · obtain ⟨link, since, frame, later, here, reads, inert⟩ := finds'
        obtain ⟨mate', other', same, less, next, alike'⟩ := alike.symm.skip plain' here reads inert
        rw [same]
        exact ih _ (by omega) alike'.symm plain next rfl
      have moves := alike.move finds finds'
      generalize moved : client.move? stage = here at moves
      generalize moved' : mate.move? other = there at moves
      cases moves with
      | none =>
          rw [Client.settle_atRest moved, Client.settle_atRest moved']
          exact alike
      | @some next next' both =>
          have less := plain.consistent.toil_lt_of_move plain.pauses moved
          have less' := plain'.consistent.toil_lt_of_move plain'.pauses moved'
          rw [plain.consistent.settle_of_move plain.pauses moved, plain'.consistent.settle_of_move plain'.pauses moved']
          exact ih _ (by omega) both (plain.move moved) (plain'.move moved') rfl

end AlikeInMatter

end SequencedFeed
