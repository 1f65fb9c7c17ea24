import SequencedFeed.Proofs.Rehearsing
set_option autoImplicit false

/-!
# A scripted connection is a lossless queue

Whatever is done to the connections of the in-memory transport, the reads of each of them return its items in order,
each item once, and a read that returns no item takes none. The main statement is `reads_share_a_lossless_queue`.
-/

namespace SequencedFeed

/-! ### What a touch does -/

namespace Touch

/-- The items that are put into the queue; a connection that was hung up takes none. -/
def offers (touch : Touch) (connection : Link) : List ReadResult :=
  match touch with
  | .push item => if connection.hungUp then [] else [item]
  | .nothing | .read _ | .close | .hangUp => []

theorem offers_of_hungUp {connection : Link} (gone : connection.hungUp = true) (touch : Touch) :
    touch.offers connection = [] := by
  cases touch with
  | push item => exact if_pos gone
  | _ => rfl

def isQuiet : Touch → Bool
  | .nothing | .read _ => true
  | .push _ | .close | .hangUp => false

end Touch

def ReadNote.AtOnce (note : ReadNote) (result : ReadResult) (place : Option Nat) : Prop :=
  note.ending = some { time := note.begun, result, place }

/-- No read begins at a connection that was hung up, or one does and ends at once. -/
def Link.Serves (connection later : Link) (reads reads' : List ReadNote) : Prop :=
  (reads' = reads ∧ later.taken = connection.taken) ∨
    ∃ note, reads' = reads ++ [note] ∧
      (∀ item, connection.sent[connection.taken]? = some item →
        note.AtOnce item (some connection.taken) ∧ later.taken = connection.taken + 1) ∧
      (connection.sent[connection.taken]? = none →
        note.AtOnce (.error .closed) none ∧ later.taken = connection.taken)

/-- Reads that begin one after the other and get the items from a place on, each at once, until none is left. -/
def ServedFrom (sent : List ReadResult) (taken : Nat) (new : List ReadNote) : Prop :=
  ∀ (place : Nat) (note : ReadNote), new[place]? = some note →
    note.AtOnce (sent[taken + place]?.getD (.error .closed)) (sent[taken + place]?.map fun _ => taken + place)

theorem ServedFrom.item {sent : List ReadResult} {taken : Nat} {new : List ReadNote} {note : ReadNote}
    {item : ReadResult} (served : ServedFrom sent (taken + 1) new) (here : sent[taken]? = some item)
    (told : note.AtOnce item (some taken)) : ServedFrom sent taken (note :: new) := by
  intro place other found
  cases place with
  | zero =>
      obtain rfl := Option.some.inj found
      rw [Nat.add_zero, here]
      exact told
  | succ place =>
      rw [← Nat.succ_add_eq_add_succ, ← Nat.add_one]
      exact served place other found

theorem ServedFrom.drained {sent : List ReadResult} {taken : Nat} {new : List ReadNote} {note : ReadNote}
    (served : ServedFrom sent taken new) (nothing : sent[taken]? = none)
    (told : note.AtOnce (.error .closed) none) : ServedFrom sent taken (note :: new) := by
  have beyond (place : Nat) : sent[taken + place]? = none :=
    List.getElem?_eq_none_iff.mpr (Nat.le_trans (List.getElem?_eq_none_iff.mp nothing) (Nat.le_add_right ..))
  intro place other found
  rw [beyond]
  cases place with
  | zero =>
      obtain rfl := Option.some.inj found
      exact told
  | succ place =>
      have told' := served place other found
      rw [beyond] at told'
      exact told'

section

open ReadNote

variable {link now : Nat} {connection later : Link} {reads reads' : List ReadNote} {touch : Touch}

theorem InTurn.all_ended (inTurn : InTurn now connection reads) (ready : connection.read? ≠ none) :
    ∀ note ∈ reads, note.ending.isSome = true := by
  obtain ⟨ended, line, rfl, past, waiting⟩ := inTurn.line
  cases waiting with
  | nil =>
      rw [List.append_nil]
      exact past
  | cons nothing => exact absurd nothing ready

theorem Link.ready_of_closed (closed : connection.isClosed = true) : connection.read? ≠ none := by
  rw [Link.read?_closed closed]
  exact fun absurd => by cases absurd

theorem Link.ready_of_hungUp (gone : connection.hungUp = true) : connection.read? ≠ none := by
  intro nothing
  rw [(Link.read?_eq_none.mp nothing).2.2] at gone
  cases gone

theorem Link.push_of_going (going : connection.hungUp = false) (item : ReadResult) :
    connection.push item = { connection with sent := connection.sent ++ [item] } :=
  if_neg (ne_true_of_eq_false going)

/-! ### Reads whose turn it is -/

/-- What becomes of a read that has its turn if nothing comes for it. -/
def ReadNote.unheard (note : ReadNote) (now : Nat) : ReadNote :=
  match note.deadline? with
  | some due => if due ≤ now then note.ends due (.error (.idleTimeout note.idle)) none else note
  | none => note

theorem InTurn.first_in_line (inTurn : InTurn now connection reads) {place since : Nat} {note : ReadNote}
    (here : reads[place]? = some note) (waits : note.ending = none) (turn : note.turn = some since) :
    connection.read? = none ∧ ∃ ended rest, reads = ended ++ note :: rest ∧ place = ended.length ∧
      (∀ note ∈ ended, note.ending.isSome = true) ∧ ended.filterMap ReadNote.place? = List.range connection.taken := by
  obtain ⟨ended, line, rfl, past, waiting⟩ := inTurn.line
  have items := inTurn.items
  rw [List.filterMap_append, waiting.places, List.append_nil] at items
  have later : ended.length ≤ place := by
    refine Nat.le_of_not_lt fun earlier => ?_
    rw [List.getElem?_append_left earlier] at here
    have gone := past note (List.mem_of_getElem? here)
    rw [waits] at gone
    cases gone
  rw [List.getElem?_append_right later] at here
  cases waiting with
  | nil => cases here
  | @cons first rest _ nothing _ _ _ behind =>
      cases index : place - ended.length with
      | zero =>
          rw [index] at here
          obtain rfl := Option.some.inj here
          exact ⟨nothing, ended, rest, rfl, Nat.le_antisymm (Nat.le_of_sub_eq_zero index) later, past, items⟩
      | succ index' =>
          rw [index] at here
          rw [(behind note (List.mem_of_getElem? here)).2] at turn
          cases turn

theorem split_unique {ended ended' rest rest' : List ReadNote} {note note' : ReadNote}
    (past : ∀ note ∈ ended, note.ending.isSome = true) (waits : note.ending = none)
    (past' : ∀ note ∈ ended', note.ending.isSome = true) (waits' : note'.ending = none)
    (same : ended ++ note :: rest = ended' ++ note' :: rest') : ended = ended' ∧ note :: rest = note' :: rest' := by
  induction ended generalizing ended' with
  | nil =>
      cases ended' with
      | nil => exact ⟨rfl, same⟩
      | cons first _ =>
          obtain ⟨rfl, -⟩ := List.cons.inj same
          have absurd := past' note (List.mem_cons_self ..)
          rw [waits] at absurd
          cases absurd
  | cons first ended ih =>
      cases ended' with
      | nil =>
          obtain ⟨rfl, -⟩ := List.cons.inj same
          have absurd := past first (List.mem_cons_self ..)
          rw [waits'] at absurd
          cases absurd
      | cons first' ended' =>
          obtain ⟨rfl, others⟩ := List.cons.inj same
          obtain ⟨rfl, line⟩ := ih (fun note member => past note (List.mem_cons_of_mem _ member))
            (fun note member => past' note (List.mem_cons_of_mem _ member)) others
          exact ⟨rfl, line⟩

/-- As long as nothing comes, a read whose turn it is waits until its deadline and then leaves. -/
theorem InTurn.unheard {instant : Nat} (inTurn : InTurn now connection reads) (after : InTurn instant later reads')
    (extends_ : Extends reads reads')
    (same : later.sent = connection.sent ∧ later.isClosed = connection.isClosed ∧ later.hungUp = connection.hungUp)
    {place since : Nat} {note : ReadNote} (here : reads[place]? = some note) (waits : note.ending = none)
    (turn : note.turn = some since) : reads'[place]? = some (note.unheard instant) := by
  obtain ⟨nothing, ended, rest, rfl, rfl, past, items⟩ := inTurn.first_in_line here waits turn
  obtain ⟨isOpen, drained, going⟩ := Link.read?_eq_none.mp nothing
  obtain ⟨sent, closed, hungUp⟩ := same
  obtain ⟨note', rest', rfl, kept⟩ := extends_.split past
  rw [List.getElem?_append_right (Nat.le_refl _), Nat.sub_self, List.getElem?_cons_zero]
  have member : note' ∈ ended ++ note' :: rest' := List.mem_append_right _ (List.mem_cons_self ..)
  have turn' : note'.turn = note.turn := kept.turn (Option.isSome_of_eq_some turn)
  have deadline : note'.deadline? = note.deadline? := by rw [deadline?, turn', kept.idle, ← deadline?]
  refine congrArg some ?_
  rw [unheard]
  have alike : note' = { note with ending := note'.ending } := by
    obtain ⟨link, idle, begun, -, -⟩ := kept
    cases note'
    cases note
    simp_all
  cases ending : note'.ending with
  | none =>
      have unchanged : note' = note := by
        rw [alike, ending, ← waits]
      cases due : note.deadline? with
      | none => exact unchanged
      | some due' =>
          have ahead := after.early member ending (deadline.trans due)
          exact unchanged.trans (if_neg (Nat.not_le.mpr ahead)).symm
  | some ending' =>
      obtain ⟨-, inTime, fate⟩ := after.fates note' member ending' ending
      cases fate with
      | silence took timedOut due =>
          obtain ⟨time, result, place⟩ := ending'
          obtain rfl : place = none := took
          obtain rfl : result = .error (.idleTimeout note'.idle) := timedOut
          rw [deadline] at due
          rw [due, alike, ending, kept.idle]
          exact (if_pos inTime).symm
      | ceased _ _ finished =>
          rw [closed, hungUp, isOpen, going] at finished
          rcases finished with absurd | ⟨absurd, -⟩ <;> cases absurd
      | @item taken took queued =>
          -- It would be the next item of the queue, and there is none.
          have places := after.items
          have placed : note'.place? = some taken := by rw [place?, ending, Option.bind_some, took]
          rw [List.filterMap_append, items, List.filterMap_cons_some placed] at places
          have next : (List.range later.taken)[connection.taken]? = some taken := by
            rw [← places, List.getElem?_append_right (Nat.le_of_eq List.length_range), List.length_range, Nat.sub_self]
            rfl
          obtain ⟨bound, value⟩ := List.getElem?_eq_some_iff.mp next
          rw [List.getElem_range] at value
          rw [sent, ← value, drained] at queued
          cases queued

/-! ### One step -/

namespace Touched

theorem sent (touched : Touched link now connection reads touch later reads') :
    later.sent = connection.sent ++ touch.offers connection := by
  cases touched with
  | refused gone => rw [Touch.offers, if_pos gone, List.append_nil]
  | queued going => rw [Link.push_of_going going, Touch.offers, going]; rfl
  | handed going =>
      rw [Touch.offers, going]
      exact congrArg Link.sent (Link.push_of_going going _)
  | found past found =>
      rcases Link.read?_eq_some found with ⟨-, -, rfl⟩ | ⟨-, rfl, -⟩ <;> exact (List.append_nil _).symm
  | _ => exact (List.append_nil _).symm

theorem ends (touched : Touched link now connection reads touch later reads') :
    (connection.isClosed = true → later.isClosed = true) ∧ (connection.hungUp = true → later.hungUp = true) := by
  cases touched with
  | closed => exact ⟨fun _ => decide_eq_true (Nat.succ_pos _), id⟩
  | hungUp => exact ⟨id, fun _ => rfl⟩
  | queued going =>
      rw [Link.push_of_going going]
      exact ⟨id, id⟩
  | @handed item _ _ _ going =>
      have same := Link.push_of_going going item
      exact ⟨fun closed => by simpa [Link.isClosed, same] using closed, fun gone => by simpa [same] using gone⟩
  | found past found =>
      rcases Link.read?_eq_some found with ⟨-, -, rfl⟩ | ⟨-, rfl, -⟩ <;> exact ⟨id, id⟩
  | _ => exact ⟨id, id⟩

theorem quiet (touched : Touched link now connection reads touch later reads') (quiet : touch.isQuiet = true) :
    later.sent = connection.sent ∧ later.isClosed = connection.isClosed ∧ later.hungUp = connection.hungUp := by
  cases touched with
  | closed => cases quiet
  | hungUp => cases quiet
  | refused => cases quiet
  | queued => cases quiet
  | handed => cases quiet
  | found past found =>
      rcases Link.read?_eq_some found with ⟨-, -, rfl⟩ | ⟨-, rfl, -⟩ <;> exact ⟨rfl, rfl, rfl⟩
  | _ => exact ⟨rfl, rfl, rfl⟩

theorem ends_first (touched : Touched link now connection reads touch later reads') (loud : touch.isQuiet = false)
    (inTurn : InTurn now connection reads) {place since : Nat} {note : ReadNote} (here : reads[place]? = some note)
    (waits : note.ending = none) (turn : note.turn = some since) :
    ∃ result taken, reads'[place]? = some (note.ends now result taken) := by
  obtain ⟨nothing, ended, rest, rfl, rfl, past, -⟩ := inTurn.first_in_line here waits turn
  have at_place (others : List ReadNote) : (ended ++ others)[ended.length]? = others[0]? := by
    rw [List.getElem?_append_right (Nat.le_refl _), Nat.sub_self]
  have ceased : ((ended ++ note :: rest).map (ReadNote.ceased now))[ended.length]? =
      some (note.ends now (.error .closed) none) := by
    rw [List.getElem?_map, at_place, List.getElem?_cons_zero, Option.map_some, ReadNote.ceased, waits]
    rfl
  cases touched with
  | untouched => cases loud
  | found => cases loud
  | first => cases loud
  | behind => cases loud
  | closed => exact ⟨_, _, ceased⟩
  | hungUp => exact ⟨_, _, ceased⟩
  | refused gone => exact absurd nothing (Link.ready_of_hungUp gone)
  | queued going all =>
      have absurd := all note (List.mem_append_right _ (List.mem_cons_self ..))
      rw [waits] at absurd
      cases absurd
  | handed going split past' waits' =>
      obtain ⟨rfl, line⟩ := split_unique past waits past' waits' split
      obtain ⟨rfl, -⟩ := List.cons.inj line
      exact ⟨_, _, (at_place _).trans rfl⟩

theorem after_close (touched : Touched link now connection reads touch later reads')
    (closed : connection.isClosed = true) (past : ∀ note ∈ reads, note.ending.isSome = true) :
    later.taken = connection.taken ∧
      ∃ new, reads' = reads ++ new ∧ ∀ note ∈ new, note.AtOnce (.error .closed) none := by
  have none_new : ∃ new, reads = reads ++ new ∧ ∀ note ∈ new, note.AtOnce (.error .closed) none :=
    ⟨[], (List.append_nil _).symm, fun _ member => by cases member⟩
  cases touched with
  | untouched => exact ⟨rfl, none_new⟩
  | closed => rw [map_ceased past]; exact ⟨rfl, none_new⟩
  | hungUp => rw [map_ceased past]; exact ⟨rfl, none_new⟩
  | refused => exact ⟨rfl, none_new⟩
  | queued going => rw [Link.push_of_going going]; exact ⟨rfl, none_new⟩
  | handed going split before waits =>
      subst split
      have ended := past _ (List.mem_append_right _ (List.mem_cons_self ..))
      rw [waits] at ended
      cases ended
  | found past found =>
      rw [Link.read?_closed closed] at found
      cases found
      refine ⟨rfl, _, rfl, fun note member => ?_⟩
      rw [List.mem_singleton.mp member, gone?_of_eq rfl]
      rfl
  | first nothing => exact absurd nothing (Link.ready_of_closed closed)
  | behind nothing => exact absurd nothing (Link.ready_of_closed closed)

theorem after_hangUp (touched : Touched link now connection reads touch later reads') (gone : connection.hungUp = true)
    (past : ∀ note ∈ reads, note.ending.isSome = true) (isOpen : connection.isClosed = false) :
    connection.Serves later reads reads' := by
  cases touched with
  | untouched => exact .inl ⟨rfl, rfl⟩
  | closed => exact .inl ⟨map_ceased past, rfl⟩
  | hungUp => exact .inl ⟨map_ceased past, rfl⟩
  | refused => exact .inl ⟨rfl, rfl⟩
  | queued going => cases gone.symm.trans going
  | handed going => cases gone.symm.trans going
  | found past found =>
      refine .inr ⟨_, rfl, fun item queued => ?_, fun drained => ?_⟩
      · rw [Link.read?_item isOpen queued] at found
        cases found
        have taken : gone? connection { connection with taken := connection.taken + 1 } = some connection.taken :=
          gone?_succ rfl
        rw [taken]
        exact ⟨rfl, rfl⟩
      · rw [Link.read?_drained isOpen drained, if_pos gone] at found
        cases found
        rw [gone?_of_eq rfl]
        exact ⟨rfl, rfl⟩
  | first nothing => exact absurd nothing (Link.ready_of_hungUp gone)
  | behind nothing => exact absurd nothing (Link.ready_of_hungUp gone)

end Touched

end

namespace Watch

variable {watch : Watch} {link : Nat} {connection : Link}

theorem Sound.step (sound : watch.Sound) (step : RehearsalStep)
    (here : watch.rehearsal.links[link]? = some connection) :
    ∃ later, (watch.apply step).rehearsal.links[link]? = some later ∧
      Extends (watch.reads link) ((watch.apply step).reads link) ∧
      (Touched link watch.rehearsal.now connection (watch.reads link) (step.touch watch.rehearsal link) later
          ((watch.apply step).reads link) ∨
        later = connection ∧ step.touch watch.rehearsal link = .nothing ∧
          List.Forall₂ ReadNote.Later (watch.reads link) ((watch.apply step).reads link)) := by
  by_cases asleep : ∃ millis, step = .sleep millis
  · obtain ⟨millis, rfl⟩ := asleep
    obtain ⟨there, each⟩ := (sound.sleeps millis).1.kept link connection here
    exact ⟨connection, there, .of_later each, .inr ⟨rfl, rfl, each⟩⟩
  · have touches := sound.touches fun millis same => asleep ⟨millis, same⟩
    obtain ⟨later, there, touched, extends_⟩ := touches.touched link connection here
    exact ⟨later, there, extends_, .inl touched⟩

/-! ### Whole runs -/

theorem play_cons (watch : Watch) (step : RehearsalStep) (rest : List RehearsalStep) :
    watch.play (step :: rest) = (watch.apply step).play rest :=
  rfl

theorem eq_of_later {reads reads' : List ReadNote} (each : List.Forall₂ ReadNote.Later reads reads')
    (past : ∀ note ∈ reads, note.ending.isSome = true) : reads' = reads := by
  induction each with
  | nil => rfl
  | cons first _ ih =>
      obtain ⟨ended, others⟩ := List.forall_mem_cons.mp past
      rw [first.ending ended, ih others]

/-- Once a connection is closed no read waits for it, no item leaves it, and every read that begins is told at once. -/
theorem Sound.after_close (sound : watch.Sound) (here : watch.rehearsal.links[link]? = some connection)
    (closed : connection.isClosed = true) (steps : List RehearsalStep) :
    ∃ later new, (watch.play steps).rehearsal.links[link]? = some later ∧ later.isClosed = true ∧
      later.taken = connection.taken ∧ (watch.play steps).reads link = watch.reads link ++ new ∧
      ∀ note ∈ new, note.AtOnce (.error .closed) none := by
  induction steps generalizing watch connection with
  | nil =>
      exact ⟨connection, [], here, closed, rfl, (List.append_nil _).symm, fun _ member => by cases member⟩
  | cons step rest ih =>
      have past := (sound.inTurn link connection here).all_ended (Link.ready_of_closed closed)
      obtain ⟨next, there, -, does⟩ := sound.step step here
      obtain ⟨closed', taken, first, reads, told⟩ : next.isClosed = true ∧ next.taken = connection.taken ∧
          ∃ new, (watch.apply step).reads link = watch.reads link ++ new ∧
            ∀ note ∈ new, note.AtOnce (.error .closed) none := by
        rcases does with touched | ⟨rfl, -, each⟩
        · exact ⟨touched.ends.1 closed, touched.after_close closed past⟩
        · exact ⟨closed, rfl, [], by rw [eq_of_later each past, List.append_nil], fun _ member => by cases member⟩
      obtain ⟨later, new, there', closed'', taken', reads', told'⟩ := ih (sound.apply step) there closed'
      refine ⟨later, first ++ new, there', closed'', taken'.trans taken, ?_, fun note member => ?_⟩
      · rw [play_cons, reads', reads, List.append_assoc]
      · rcases List.mem_append.mp member with earlier | new
        · exact told note earlier
        · exact told' note new

/-- Once a connection is hung up no read waits for it. As long as it is not closed, every read that begins gets the
next item of the queue at once, until none is left, and the others learn that it is at its end. -/
theorem Sound.after_hangUp (sound : watch.Sound) (here : watch.rehearsal.links[link]? = some connection)
    (gone : connection.hungUp = true) (steps : List RehearsalStep) {later : Link}
    (there : (watch.play steps).rehearsal.links[link]? = some later) (isOpen : later.isClosed = false) :
    later.hungUp = true ∧ later.sent = connection.sent ∧ ∃ new, (watch.play steps).reads link = watch.reads link ++ new ∧
      ServedFrom connection.sent connection.taken new := by
  induction steps generalizing watch connection with
  | nil =>
      obtain rfl := Option.some.inj (here.symm.trans there)
      exact ⟨gone, rfl, [], (List.append_nil _).symm, fun _ _ absurd => by cases absurd⟩
  | cons step rest ih =>
      have past := (sound.inTurn link connection here).all_ended (Link.ready_of_hungUp gone)
      obtain ⟨next, here', -, does⟩ := sound.step step here
      have stillOpen : connection.isClosed = false := by
        cases closed : connection.isClosed with
        | false => rfl
        | true =>
            obtain ⟨last, -, there', closed', -⟩ := sound.after_close here closed (step :: rest)
            obtain rfl := Option.some.inj (there'.symm.trans there)
            cases closed'.symm.trans isOpen
      obtain ⟨gone', sent, begins⟩ : next.hungUp = true ∧ next.sent = connection.sent ∧
          connection.Serves next (watch.reads link) ((watch.apply step).reads link) := by
        rcases does with touched | ⟨rfl, -, each⟩
        · refine ⟨touched.ends.2 gone, ?_, touched.after_hangUp gone past stillOpen⟩
          rw [touched.sent, Touch.offers_of_hungUp gone, List.append_nil]
        · exact ⟨gone, rfl, .inl ⟨eq_of_later each past, rfl⟩⟩
      obtain ⟨gone'', sent', new, reads, served⟩ := ih (sound.apply step) here' gone' there
      rw [sent] at sent' served
      rcases begins with ⟨same, taken⟩ | ⟨note, begun, queued, drained⟩
      · rw [taken] at served
        exact ⟨gone'', sent', new, by rw [play_cons, reads, same], served⟩
      · refine ⟨gone'', sent', note :: new, ?_, ?_⟩
        · rw [play_cons, reads, begun, List.append_assoc]
          rfl
        · cases here' : connection.sent[connection.taken]? with
          | some item =>
              obtain ⟨told, taken⟩ := queued item here'
              rw [taken] at served
              exact served.item here' told
          | none =>
              obtain ⟨told, taken⟩ := drained here'
              rw [taken] at served
              exact served.drained here' told

theorem Sound.close (sound : watch.Sound) (here : watch.rehearsal.links[link]? = some connection) {number : Nat}
    (found : watch.rehearsal.dialled? number = some link) (more : List RehearsalStep) :
    ∃ later new, ((watch.apply (.close number)).play more).rehearsal.links[link]? = some later ∧
      later.taken = connection.taken ∧
      ((watch.apply (.close number)).play more).reads link =
        (watch.reads link).map (ReadNote.ceased watch.rehearsal.now) ++ new ∧
      ∀ note ∈ new, note.AtOnce (.error .closed) none := by
  have awake : ∀ millis, RehearsalStep.close number ≠ .sleep millis := fun millis same => by cases same
  obtain ⟨closed, there, touched, -⟩ := (sound.touches awake).touched link connection here
  rw [RehearsalStep.touch, if_pos found] at touched
  obtain ⟨same, taken, isClosed⟩ : (watch.apply (.close number)).reads link =
      (watch.reads link).map (ReadNote.ceased watch.rehearsal.now) ∧
      closed.taken = connection.taken ∧ closed.isClosed = true := by
    generalize (watch.apply (.close number)).reads link = after at touched
    cases touched
    exact ⟨rfl, rfl, decide_eq_true (Nat.succ_pos _)⟩
  obtain ⟨later, new, there', -, taken', reads, told⟩ := (sound.apply _).after_close there isClosed more
  exact ⟨later, new, there', taken'.trans taken, by rw [reads, same], told⟩

theorem Sound.hangUp (sound : watch.Sound) (here : watch.rehearsal.links[link]? = some connection) {name : String}
    (found : Link.lastNamed? watch.rehearsal.links name = some link) (more : List RehearsalStep) {later : Link}
    (there : ((watch.apply (.hangUp name)).play more).rehearsal.links[link]? = some later)
    (isOpen : later.isClosed = false) :
    later.sent = connection.sent ∧
      ∃ new, ((watch.apply (.hangUp name)).play more).reads link =
          (watch.reads link).map (ReadNote.ceased watch.rehearsal.now) ++ new ∧
        ServedFrom connection.sent connection.taken new := by
  have awake : ∀ millis, RehearsalStep.hangUp name ≠ .sleep millis := fun millis same => by cases same
  obtain ⟨ended, there', touched, -⟩ := (sound.touches awake).touched link connection here
  rw [RehearsalStep.touch, if_pos found] at touched
  obtain ⟨same, rfl⟩ : (watch.apply (.hangUp name)).reads link =
      (watch.reads link).map (ReadNote.ceased watch.rehearsal.now) ∧ ended = connection.hangUp := by
    generalize (watch.apply (.hangUp name)).reads link = after at touched
    cases touched
    exact ⟨rfl, rfl⟩
  obtain ⟨-, sent, new, reads, served⟩ := (sound.apply _).after_hangUp there' rfl more there isOpen
  exact ⟨sent, new, by rw [reads, same], served⟩

end Watch

/-! ### The queue -/

namespace Rehearsal

/-- Nothing comes for the reads of a connection. -/
def LeavesAlone (link : Nat) : Rehearsal → List RehearsalStep → Prop
  | _, [] => True
  | rehearsal, step :: rest =>
      (step.touch rehearsal link).isQuiet = true ∧ LeavesAlone link (rehearsal.apply step) rest

/-- Nothing comes for the reads of a connection before an instant. -/
def LeavesAloneUntil (link due : Nat) : Rehearsal → List RehearsalStep → Prop
  | _, [] => True
  | rehearsal, step :: rest =>
      (rehearsal.now < due → (step.touch rehearsal link).isQuiet = true) ∧
        LeavesAloneUntil link due (rehearsal.apply step) rest

def sentOn (rehearsal : Rehearsal) (link : Nat) : List ReadResult :=
  ((rehearsal.links[link]?).map Link.sent).getD []

def offered (link : Nat) : Rehearsal → List RehearsalStep → List ReadResult
  | _, [] => []
  | rehearsal, step :: rest =>
      ((rehearsal.links[link]?).map (step.touch rehearsal link).offers).getD [] ++
        offered link (rehearsal.apply step) rest

theorem length_settle (rehearsal : Rehearsal) : rehearsal.settle.links.length = rehearsal.links.length :=
  length_resumeAll ..

theorem length_withLink (rehearsal : Rehearsal) (target : Option Nat) {change : Nat → Rehearsal → Rehearsal}
    (same : ∀ link state, (change link state).links.length = state.links.length) :
    (rehearsal.withLink target change).links.length = rehearsal.links.length := by
  cases target with
  | none => rfl
  | some link => exact (length_settle _).trans (same link rehearsal)

theorem new_of_apply {rehearsal : Rehearsal} {step : RehearsalStep} {link : Nat} {connection : Link}
    (unmade : rehearsal.links[link]? = none) (made : (rehearsal.apply step).links[link]? = some connection) :
    connection.sent = [] := by
  have beyond := List.getElem?_eq_none_iff.mp unmade
  have grown : (rehearsal.apply step).links.length ≠ rehearsal.links.length := fun same =>
    absurd (List.getElem?_eq_some_iff.mp made).1 (Nat.not_lt.mpr (same ▸ beyond))
  cases step with
  | queue outcome =>
      cases outcome with
      | connect name =>
          change (rehearsal.links ++ [Link.ofName name])[link]? = some connection at made
          rw [List.getElem?_append_right beyond] at made
          rw [List.mem_singleton.mp (List.mem_of_getElem? made)]
          rfl
      | fail error => exact absurd rfl grown
      | failNext count => exact absurd rfl grown
  | dial url =>
      obtain ⟨script, begun, call, dial, -⟩ := rehearsal.dial_eq url
      refine absurd ?_ grown
      change (rehearsal.dial url).links.length = _
      rw [dial]
      rfl
  | read number idle =>
      exact absurd (rehearsal.length_withLink (rehearsal.dialled? number) fun _ _ => (rfl : (call _ _).links.length = _))
        grown
  | waitClosed name =>
      exact absurd (rehearsal.length_withLink (Link.lastNamed? rehearsal.links name)
        fun _ _ => (rfl : (call _ _).links.length = _)) grown
  | close number => exact absurd (length_withLink _ _ fun _ _ => List.length_modify ..) grown
  | push name item => exact absurd (length_withLink _ _ fun _ _ => List.length_modify ..) grown
  | hangUp name => exact absurd (length_withLink _ _ fun _ _ => List.length_modify ..) grown
  | sleep millis =>
      refine absurd ?_ grown
      exact @Timed.pass_keeps _ timed (fun state => state.links.length = rehearsal.links.length)
        (fun instant state same => (length_settle _).trans same) _ _ _ rfl

end Rehearsal

namespace Watch

variable {watch : Watch} {link : Nat} {connection : Link}

theorem Sound.sentOn_apply (sound : watch.Sound) (step : RehearsalStep) (link : Nat) :
    (watch.apply step).rehearsal.sentOn link = watch.rehearsal.sentOn link ++
      ((watch.rehearsal.links[link]?).map (step.touch watch.rehearsal link).offers).getD [] := by
  cases here : watch.rehearsal.links[link]? with
  | none =>
      rw [Rehearsal.sentOn, Rehearsal.sentOn, here, rehearsal_apply]
      cases there : (watch.rehearsal.apply step).links[link]? with
      | none => rfl
      | some connection => exact Rehearsal.new_of_apply here there
  | some connection =>
      obtain ⟨later, there, -, does⟩ := sound.step step here
      rw [Rehearsal.sentOn, Rehearsal.sentOn, here, there]
      change later.sent = connection.sent ++ (step.touch watch.rehearsal link).offers connection
      rcases does with touched | ⟨rfl, still, -⟩
      · exact touched.sent
      · rw [still]
        exact (List.append_nil _).symm

theorem Sound.sentOn_play (sound : watch.Sound) (steps : List RehearsalStep) (link : Nat) :
    (watch.play steps).rehearsal.sentOn link =
      watch.rehearsal.sentOn link ++ Rehearsal.offered link watch.rehearsal steps := by
  induction steps generalizing watch with
  | nil => exact (List.append_nil _).symm
  | cons step rest ih =>
      rw [play_cons, ih (sound.apply step), sound.sentOn_apply, rehearsal_apply, Rehearsal.offered, List.append_assoc]

theorem Sound.extends_play (sound : watch.Sound) (here : watch.rehearsal.links[link]? = some connection)
    (steps : List RehearsalStep) :
    ∃ later, (watch.play steps).rehearsal.links[link]? = some later ∧
      Extends (watch.reads link) ((watch.play steps).reads link) ∧
      (Rehearsal.LeavesAlone link watch.rehearsal steps → later.sent = connection.sent ∧
        later.isClosed = connection.isClosed ∧ later.hungUp = connection.hungUp) := by
  induction steps generalizing watch connection with
  | nil => exact ⟨connection, here, .refl _, fun _ => ⟨rfl, rfl, rfl⟩⟩
  | cons step rest ih =>
      obtain ⟨next, here', first, does⟩ := sound.step step here
      obtain ⟨later, there, second, alone⟩ := ih (sound.apply step) here'
      refine ⟨later, there, first.trans second, fun quiet => ?_⟩
      obtain ⟨sent, closed, hungUp⟩ := alone (by rw [rehearsal_apply]; exact quiet.2)
      rcases does with touched | ⟨rfl, -, -⟩
      · obtain ⟨sent', closed', hungUp'⟩ := touched.quiet quiet.1
        exact ⟨sent.trans sent', closed.trans closed', hungUp.trans hungUp'⟩
      · exact ⟨sent, closed, hungUp⟩

theorem now_apply (sound : watch.Sound) (step : RehearsalStep) : watch.rehearsal.now ≤ (watch.apply step).rehearsal.now := by
  by_cases asleep : ∃ millis, step = .sleep millis
  · obtain ⟨millis, rfl⟩ := asleep
    rw [(sound.sleeps millis).2]
    exact Nat.le_add_right ..
  · exact Nat.le_of_eq (sound.touches fun millis same => asleep ⟨millis, same⟩).now.symm

theorem Sound.alone_of_past (sound : watch.Sound) {due : Nat} (past : due ≤ watch.rehearsal.now)
    (steps : List RehearsalStep) : Rehearsal.LeavesAloneUntil link due watch.rehearsal steps := by
  induction steps generalizing watch with
  | nil => trivial
  | cons step rest ih =>
      refine ⟨fun before => absurd past (Nat.not_le.mpr before), ?_⟩
      have next := ih (sound.apply step) (Nat.le_trans past (now_apply sound step))
      rwa [rehearsal_apply] at next

/-- A read with its turn is silent for too long if and only if nothing comes before its deadline. -/
theorem Sound.silent_iff (sound : watch.Sound) (here : watch.rehearsal.links[link]? = some connection)
    (steps : List RehearsalStep) {place due : Nat} {note : ReadNote} (waiting : (watch.reads link)[place]? = some note)
    (waits : note.ending = none) (deadline : note.deadline? = some due)
    (past : due ≤ (watch.play steps).rehearsal.now) :
    ((watch.play steps).reads link)[place]? = some (note.ends due (.error (.idleTimeout note.idle)) none) ↔
      Rehearsal.LeavesAloneUntil link due watch.rehearsal steps := by
  induction steps generalizing watch connection with
  | nil =>
      have ahead := (sound.inTurn link connection here).early (List.mem_of_getElem? waiting) waits deadline
      exact absurd past (Nat.not_le.mpr ahead)
  | cons step rest ih =>
      have inTurn := sound.inTurn link connection here
      have ahead := inTurn.early (List.mem_of_getElem? waiting) waits deadline
      obtain ⟨since, turn, -⟩ := Option.bind_eq_some_iff.mp deadline
      have sound' := sound.apply step
      obtain ⟨next, there, extended, does⟩ := sound.step step here
      obtain ⟨last, -, extended', -⟩ := sound'.extends_play there rest
      -- Once the read has ended, nothing changes its note any more.
      have final {note' : ReadNote} (there' : ((watch.apply step).reads link)[place]? = some note')
          (ended : note'.ending.isSome = true) : ((watch.play (step :: rest)).reads link)[place]? = some note' := by
        obtain ⟨note'', last', later⟩ := extended' place note' there'
        rw [play_cons, last', later.ending ended]
      cases quiet : (step.touch watch.rehearsal link).isQuiet with
      | true =>
          have same : next.sent = connection.sent ∧ next.isClosed = connection.isClosed ∧
              next.hungUp = connection.hungUp := by
            rcases does with touched | ⟨rfl, -, -⟩
            · exact touched.quiet quiet
            · exact ⟨rfl, rfl, rfl⟩
          have still := inTurn.unheard (sound'.inTurn link next there) extended same waiting waits turn
          rw [ReadNote.unheard, deadline] at still
          dsimp only at still
          by_cases passed : due ≤ (watch.apply step).rehearsal.now
          · rw [if_pos passed] at still
            have alone : Rehearsal.LeavesAloneUntil link due (watch.rehearsal.apply step) rest := by
              have alone : Rehearsal.LeavesAloneUntil link due (watch.apply step).rehearsal rest :=
                sound'.alone_of_past passed rest
              rwa [rehearsal_apply] at alone
            exact iff_of_true (final still rfl) ⟨fun _ => quiet, alone⟩
          · rw [if_neg passed] at still
            rw [play_cons, ih sound' there still past, rehearsal_apply, Rehearsal.LeavesAloneUntil]
            exact (and_iff_right fun _ => quiet).symm
      | false =>
          refine iff_of_false (fun timedOut => ?_) fun alone => ?_
          · rcases does with touched | ⟨-, untouched, -⟩
            · obtain ⟨result, taken, ended⟩ := touched.ends_first quiet inTurn waiting waits turn
              have both := (final ended rfl).symm.trans timedOut
              have times : watch.rehearsal.now = due :=
                congrArg ReadEnding.time (Option.some.inj (congrArg ReadNote.ending (Option.some.inj both)))
              exact absurd times (Nat.ne_of_lt ahead)
            · rw [untouched] at quiet
              cases quiet
          · rw [alone.1 ahead] at quiet
            cases quiet

end Watch

theorem InTurn.items_eq {now : Nat} {connection : Link} {reads : List ReadNote} (inTurn : InTurn now connection reads) :
    reads.filterMap ReadNote.item? = connection.sent.take connection.taken := by
  have each : ∀ note ∈ reads, note.item? = note.place?.bind fun place => connection.sent[place]? := by
    intro note member
    cases ended : note.ending with
    | none => rw [ReadNote.item?, ReadNote.place?, ended]; rfl
    | some ending =>
        rw [ReadNote.item?, ReadNote.place?, ended, Option.bind_some, Option.bind_some]
        obtain ⟨-, -, fate⟩ := inTurn.fates note member ending ended
        cases fate with
        | item took queued => rw [took, Option.map_some, Option.bind_some, queued]
        | ceased took => rw [took]; rfl
        | silence took => rw [took]; rfl
  have first (count : Nat) : (List.range count).filterMap (fun place => connection.sent[place]?) =
      connection.sent.take count := by
    induction count with
    | zero => rfl
    | succ count ih =>
        rw [List.range_succ, List.filterMap_append, ih, List.take_add_one, List.filterMap_cons, List.filterMap_nil]
        cases connection.sent[count]? <;> rfl
  rw [List.filterMap_congr each, ← first, ← inTurn.items, List.filterMap_filterMap]

/-- Whatever is done to the connections of the in-memory transport, and however many calls wait at the same time,
watching it changes nothing, and the notes are those of the reads. For each connection:
- what was put into its queue is what was offered until it was hung up, and the items that its reads took are the
  first ones of it, in the order in which the reads began and each of them once;
- every read that ended took an item, found the connection closed or at its end, or was silent for exactly as long as
  its deadline says, counted from its turn; those that wait do so in line, and the turn of a read comes when it has
  begun and the one before it has ended (`InTurn`);
- a step does what `Touched` says, to this connection alone: an item goes to the read whose turn it is;
- a close ends every read that waits, and from then on every read is told at once and no item is returned;
- once it is hung up, the reads that wait end, and until a close each later one gets the next item of the queue at
  once, or learns that there is none;
- as long as nothing comes a read with its turn waits until its deadline and then leaves without an item, and it leaves
  like this only if nothing came before. -/
theorem reads_share_a_lossless_queue (steps : List RehearsalStep) :
    let watch := Watch.fresh.play steps
    watch.rehearsal = steps.foldl Rehearsal.apply Rehearsal.fresh ∧
      List.Forall₂ Agrees watch.notes watch.rehearsal.calls ∧
      ∀ link connection, watch.rehearsal.links[link]? = some connection →
        let now := watch.rehearsal.now
        let reads := watch.reads link
        connection.sent = Rehearsal.offered link Rehearsal.fresh steps ∧
          reads.filterMap ReadNote.item? = connection.sent.take connection.taken ∧
          InTurn now connection reads ∧
          (∀ step, (∀ millis, step ≠ .sleep millis) → ∃ later,
            (watch.apply step).rehearsal.links[link]? = some later ∧
              Touched link now connection reads (step.touch watch.rehearsal link) later ((watch.apply step).reads link)) ∧
          (∀ number, watch.rehearsal.dialled? number = some link → ∀ more,
            ∃ later new, ((watch.apply (.close number)).play more).rehearsal.links[link]? = some later ∧
              later.taken = connection.taken ∧
              ((watch.apply (.close number)).play more).reads link = reads.map (ReadNote.ceased now) ++ new ∧
              ∀ note ∈ new, note.AtOnce (.error .closed) none) ∧
          (∀ name, Link.lastNamed? watch.rehearsal.links name = some link → ∀ more later,
            ((watch.apply (.hangUp name)).play more).rehearsal.links[link]? = some later → later.isClosed = false →
              later.sent = connection.sent ∧
              ∃ new, ((watch.apply (.hangUp name)).play more).reads link = reads.map (ReadNote.ceased now) ++ new ∧
                ∀ (place : Nat) (note : ReadNote), new[place]? = some note →
                  note.AtOnce (connection.sent[connection.taken + place]?.getD (.error .closed))
                    (connection.sent[connection.taken + place]?.map fun _ => connection.taken + place)) ∧
          (∀ more, Rehearsal.LeavesAlone link watch.rehearsal more →
            ∀ (place since : Nat) (note : ReadNote), reads[place]? = some note → note.ending = none →
              note.turn = some since →
                ((watch.play more).reads link)[place]? = some (note.unheard (watch.play more).rehearsal.now)) ∧
          (∀ (more : List RehearsalStep) (place due : Nat) (note : ReadNote), reads[place]? = some note →
            note.ending = none → note.deadline? = some due → due ≤ (watch.play more).rehearsal.now →
              (((watch.play more).reads link)[place]? = some (note.ends due (.error (.idleTimeout note.idle)) none) ↔
                Rehearsal.LeavesAloneUntil link due watch.rehearsal more)) := by
  intro watch
  have sound : watch.Sound := Watch.fresh_sound.play steps
  refine ⟨Watch.rehearsal_play .fresh steps, sound.agrees, fun link connection here => ?_⟩
  intro now reads
  have inTurn := sound.inTurn link connection here
  refine ⟨?_, inTurn.items_eq, inTurn, fun step awake => ?_, fun number found more => sound.close here found more,
    fun name found more later there isOpen => sound.hangUp here found more there isOpen,
    fun more alone place since note here' waits turn => ?_,
    fun more place due note waiting waits deadline past => sound.silent_iff here more waiting waits deadline past⟩
  · have sent := Watch.fresh_sound.sentOn_play steps link
    rwa [Rehearsal.sentOn, here] at sent
  · obtain ⟨later, there, touched, -⟩ := (sound.touches awake).touched link connection here
    exact ⟨later, there, touched⟩
  · obtain ⟨later, there, extended, same⟩ := sound.extends_play here more
    exact inTurn.unheard ((sound.play more).inTurn link later there) extended (same alone) here' waits turn

/-- Of three reads in line the first one leaves after ten milliseconds, for nothing comes before, and hands the turn
to the second, which gets the item that comes then. A close ends the third. -/
theorem reads_share_a_lossless_queue_in_line :
    let watch := Watch.fresh.play [.queue (.connect "a"), .dial "x", .read 0 (.ofMillis 10), .read 0 (.ofMillis 25),
      .read 0 .zero]
    let first : ReadNote := { link := 0, idle := .ofMillis 10, begun := 0, turn := some 0, ending := none }
    let later := (watch.play [.sleep 20]).play [.push "a" (.ok [7]), .close 0]
    Rehearsal.LeavesAloneUntil 0 10 watch.rehearsal [.sleep 20] ∧
      ((watch.play [.sleep 20]).reads 0)[0]? = some (first.ends 10 (.error (.idleTimeout (.ofMillis 10))) none) ∧
      (later.reads 0).map (fun note => (note.turn, note.ending.map ReadEnding.time)) =
        [(some 0, some 10), (some 10, some 20), (some 20, some 20)] ∧
      (later.reads 0).filterMap ReadNote.place? = [0] := by
  intro watch first later
  have alone : Rehearsal.LeavesAloneUntil 0 10 watch.rehearsal [.sleep 20] := ⟨fun _ => rfl, trivial⟩
  have waiting : (watch.reads 0)[0]? = some first := rfl
  have here : ∃ connection, watch.rehearsal.links[0]? = some connection := ⟨_, rfl⟩
  have deadline : first.deadline? = some 10 := by decide +kernel
  have past : 10 ≤ (watch.play [.sleep 20]).rehearsal.now := by decide +kernel
  obtain ⟨connection, here⟩ := here
  obtain ⟨-, -, connections⟩ := reads_share_a_lossless_queue
    [.queue (.connect "a"), .dial "x", .read 0 (.ofMillis 10), .read 0 (.ofMillis 25), .read 0 .zero]
  obtain ⟨-, -, -, -, -, -, -, silent⟩ := connections 0 connection here
  have timedOut := (silent [.sleep 20] 0 10 first waiting rfl deadline past).mpr alone
  refine ⟨alone, timedOut, ?_, ?_⟩ <;> decide +kernel

/-- A timer runs for thirty years at most: a read with a deadline of three million years is silent for too long
after thirty. -/
theorem deadline_passes_after_thirty_years :
    let idle := Duration.ofMillis 100000000000000000
    let begun : List RehearsalStep := [.queue (.connect "a"), .dial "x", .read 0 idle]
    let short : List RehearsalStep := [.sleep 946079999999]
    let long : List RehearsalStep := [.sleep 946079999999, .sleep 1]
    (begun.foldl Rehearsal.apply Rehearsal.fresh).now = 0 ∧
      (begun.foldl Rehearsal.apply Rehearsal.fresh).calls[1]? = some (.inl (.read 0 idle (some 0))) ∧
      ((begun ++ short).foldl Rehearsal.apply Rehearsal.fresh).calls[1]? = some (.inl (.read 0 idle (some 0))) ∧
      ((begun ++ long).foldl Rehearsal.apply Rehearsal.fresh).now = 946080000000 ∧
      ((begun ++ long).foldl Rehearsal.apply Rehearsal.fresh).calls[1]? =
        some (.inr (.read (.error (.idleTimeout idle)))) ∧
      946080000000 < idle.millis := by
  refine ⟨rfl, rfl, rfl, rfl, rfl, ?_⟩
  decide

end SequencedFeed
