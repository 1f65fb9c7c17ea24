import SequencedFeed.Proofs.ReadNotes
set_option autoImplicit false

/-!
# Reads that take turns

The reads of one connection form a line. Those that have ended stand in front, in the order in which they began, and
behind them those that wait, the first of them with its turn. An item goes to the read whose turn it is; one that
waits too long leaves empty-handed and hands the turn on. `InTurn` says what is known of the reads of a connection at
any time, and the lemmas on `attend` what one look at them does.
-/

namespace SequencedFeed

/-! ### What a connection gives -/

namespace Link

variable {link : Link}

theorem read?_closed (closed : link.isClosed = true) : link.read? = some (.error .closed, link) :=
  if_pos closed

theorem read?_item {item : ReadResult} (isOpen : link.isClosed = false) (queued : link.sent[link.taken]? = some item) :
    link.read? = some (item, { link with taken := link.taken + 1 }) := by
  rw [read?, if_neg (ne_true_of_eq_false isOpen), queued]

theorem read?_drained (isOpen : link.isClosed = false) (drained : link.sent[link.taken]? = none) :
    link.read? = if link.hungUp then some (.error .closed, link) else none := by
  rw [read?, if_neg (ne_true_of_eq_false isOpen), drained]

theorem read?_eq_none : link.read? = none ↔
    link.isClosed = false ∧ link.sent[link.taken]? = none ∧ link.hungUp = false := by
  cases isOpen : link.isClosed with
  | true => simp [read?_closed isOpen]
  | false =>
      cases queued : link.sent[link.taken]? with
      | some item => simp [read?_item isOpen queued]
      | none => simp [read?_drained isOpen queued]

theorem read?_eq_some {result : ReadResult} {later : Link} (found : link.read? = some (result, later)) :
    (link.isClosed = false ∧ link.sent[link.taken]? = some result ∧ later = { link with taken := link.taken + 1 }) ∨
      (result = .error .closed ∧ later = link ∧
        (link.isClosed = true ∨ link.hungUp = true ∧ link.sent.length ≤ link.taken)) := by
  cases isOpen : link.isClosed with
  | true =>
      rw [read?_closed isOpen] at found
      cases found
      exact .inr ⟨rfl, rfl, .inl rfl⟩
  | false =>
      cases queued : link.sent[link.taken]? with
      | some item =>
          rw [read?_item isOpen queued] at found
          cases found
          exact .inl ⟨rfl, rfl, rfl⟩
      | none =>
          rw [read?_drained isOpen queued] at found
          split at found
          · next hungUp =>
              cases found
              exact .inr ⟨rfl, rfl, .inr ⟨hungUp, List.getElem?_eq_none_iff.mp queued⟩⟩
          · cases found

structure Grows (link later : Link) : Prop where
  sent : link.sent <+: later.sent
  taken : link.taken ≤ later.taken
  closed : link.isClosed = true → later.isClosed = true
  hungUp : link.hungUp = true → later.hungUp = true ∧ later.sent = link.sent

theorem Grows.refl (link : Link) : link.Grows link :=
  ⟨List.prefix_refl _, Nat.le_refl _, id, fun hungUp => ⟨hungUp, rfl⟩⟩

theorem Grows.take (link : Link) : link.Grows { link with taken := link.taken + 1 } :=
  ⟨List.prefix_refl _, Nat.le_succ _, id, fun hungUp => ⟨hungUp, rfl⟩⟩

end Link

/-! ### Reads and their order -/

namespace ReadNote

/-- Why a read ended as it did: it took an item, the connection was closed or at its end, or it was silent for too
long. Only in the last case had its time run out. -/
inductive Fate (connection : Link) (note : ReadNote) (ending : ReadEnding) : Prop
  | item {place : Nat} (took : ending.place = some place) (queued : connection.sent[place]? = some ending.result)
      (early : ∀ due, note.deadline? = some due → ending.time < due)
  | ceased (took : ending.place = none) (closed : ending.result = .error .closed)
      (finished : connection.isClosed = true ∨ connection.hungUp = true ∧ connection.sent.length ≤ connection.taken)
      (early : ∀ due, note.deadline? = some due → ending.time < due)
  | silence (took : ending.place = none) (timedOut : ending.result = .error (.idleTimeout note.idle))
      (due : note.deadline? = some ending.time)

theorem Fate.mono {connection later : Link} {note : ReadNote} {ending : ReadEnding} (fate : note.Fate connection ending)
    (grows : connection.Grows later) : note.Fate later ending := by
  cases fate with
  | item took queued early =>
      obtain ⟨more, sent⟩ := grows.sent
      refine .item took ?_ early
      rw [← sent, List.getElem?_append_left (List.getElem?_eq_some_iff.mp queued).1]
      exact queued
  | ceased took closed finished early =>
      refine .ceased took closed ?_ early
      rcases finished with isClosed | ⟨hungUp, drained⟩
      · exact .inl (grows.closed isClosed)
      · obtain ⟨hungUp', sent⟩ := grows.hungUp hungUp
        exact .inr ⟨hungUp', by rw [sent]; exact Nat.le_trans drained grows.taken⟩
  | silence took timedOut due => exact .silence took timedOut due

theorem Fate.ends {connection : Link} {note : ReadNote} {ending : ReadEnding} (fate : note.Fate connection ending) :
    ReadNote.Fate connection { note with ending := some ending } ending := by
  cases fate with
  | item took queued early => exact .item took queued early
  | ceased took closed finished early => exact .ceased took closed finished early
  | silence took timedOut due => exact .silence took timedOut due

/-- When the turn is free again behind a read. -/
def frees (free : Nat) (note : ReadNote) : Nat :=
  (note.ending.map ReadEnding.time).getD free

/-- Reads whose turn came as soon as both they and the turn were there, and that ended in order. The turn was `free`
before the first of them. -/
def InOrder : Nat → List ReadNote → Prop
  | _, [] => True
  | free, note :: rest =>
      (∀ since, note.turn = some since → since = max note.begun free) ∧
        (∀ ending, note.ending = some ending → free ≤ ending.time) ∧ InOrder (note.frees free) rest

theorem inOrder_append {free : Nat} {before after : List ReadNote} :
    InOrder free (before ++ after) ↔ InOrder free before ∧ InOrder (before.foldl frees free) after := by
  induction before generalizing free with
  | nil => exact (iff_of_eq (true_and _)).symm
  | cons note rest ih =>
      rw [List.cons_append, InOrder, ih, InOrder, List.foldl_cons]
      simp only [and_assoc]

theorem foldl_frees_le {now free : Nat} {notes : List ReadNote} (past : free ≤ now)
    (ended : ∀ note ∈ notes, ∀ ending, note.ending = some ending → ending.time ≤ now) : notes.foldl frees free ≤ now := by
  induction notes generalizing free with
  | nil => exact past
  | cons note rest ih =>
      refine ih ?_ fun note member => ended note (List.mem_cons_of_mem _ member)
      cases here : note.ending with
      | none => rwa [frees, here]
      | some ending =>
          rw [frees, here]
          exact ended note (List.mem_cons_self ..) ending here

/-- A read that still waits ends because the connection is at its end. -/
def ceased (now : Nat) (note : ReadNote) : ReadNote :=
  if note.ending.isSome then note else note.ends now (.error .closed) none

theorem map_ceased {now : Nat} {notes : List ReadNote} (past : ∀ note ∈ notes, note.ending.isSome = true) :
    notes.map (ceased now) = notes :=
  (List.map_congr_left fun note member => if_pos (past note member)).trans (List.map_id notes)

def callNext (now : Nat) : List ReadNote → List ReadNote
  | [] => []
  | first :: rest => { first with turn := some now } :: rest

end ReadNote

open ReadNote

/-- Reads that wait. Nothing is there for them, the first of them has its turn, and its time has not run out. -/
inductive Line (now : Nat) (connection : Link) : List ReadNote → Prop
  | nil : Line now connection []
  | cons {first : ReadNote} {rest : List ReadNote} {since : Nat} (nothing : connection.read? = none)
      (waits : first.ending = none) (turn : first.turn = some since)
      (early : ∀ due, first.deadline? = some due → now < due)
      (behind : ∀ note ∈ rest, note.ending = none ∧ note.turn = none) : Line now connection (first :: rest)

/-- The reads of a connection at some instant: the items taken are the first ones of the queue and went to the reads
in order, every read that has ended has its reason, and those that wait do so in line. -/
structure InTurn (now : Nat) (connection : Link) (reads : List ReadNote) : Prop where
  items : reads.filterMap ReadNote.place? = List.range connection.taken
  begun : ∀ note ∈ reads, note.begun ≤ now
  fates : ∀ note ∈ reads, ∀ ending, note.ending = some ending →
    note.begun ≤ ending.time ∧ ending.time ≤ now ∧ note.Fate connection ending
  order : InOrder 0 reads
  line : ∃ ended line, reads = ended ++ line ∧ (∀ note ∈ ended, note.ending.isSome = true) ∧ Line now connection line

theorem InTurn.untouched {now : Nat} {connection : Link} (untaken : connection.taken = 0) : InTurn now connection [] where
  items := by rw [untaken]; rfl
  begun _ member := by cases member
  fates _ member := by cases member
  order := trivial
  line := ⟨[], [], rfl, fun _ member => (by cases member), .nil⟩

section

variable {now instant : Nat} {connection later : Link} {ended line rest : List ReadNote}
  {first : ReadNote} {place : Option Nat} {busy : Bool} {result : ReadResult}

theorem Line.waits (waiting : Line now connection line) : ∀ note ∈ line, note.ending = none := by
  cases waiting with
  | nil => exact fun _ member => by cases member
  | cons _ waits _ _ behind =>
      exact List.forall_mem_cons.mpr ⟨waits, fun note member => (behind note member).1⟩

theorem Line.places (waiting : Line now connection line) : line.filterMap ReadNote.place? = [] := by
  rw [List.filterMap_eq_nil_iff]
  intro note member
  rw [place?, waiting.waits note member]
  rfl

theorem Line.early (waiting : Line now connection line) :
    ∀ note ∈ line, ∀ due, note.deadline? = some due → now < due := by
  cases waiting with
  | nil => exact fun _ member => by cases member
  | cons _ _ _ early behind =>
      refine List.forall_mem_cons.mpr ⟨early, fun note member due here => ?_⟩
      rw [deadline?, (behind note member).2] at here
      cases here

/-- Some of the reads in line end, and the others go on waiting. -/
theorem InTurn.advance (inTurn : InTurn now connection (ended ++ line)) (done line' : List ReadNote)
    (past : ∀ note ∈ ended, note.ending.isSome = true) (waiting : Line now connection line)
    (grows : connection.Grows later) (passes : now ≤ instant)
    (items : List.range later.taken = List.range connection.taken ++ done.filterMap ReadNote.place?)
    (fates : ∀ note ∈ done, note.begun ≤ instant ∧ ∃ ending, note.ending = some ending ∧ ending.time = instant ∧
      note.Fate later ending)
    (begun : ∀ note ∈ line', note.begun ≤ instant)
    (order : ∀ free, free ≤ now → InOrder free line → InOrder free (done ++ line'))
    (still : Line instant later line') : InTurn instant later (ended ++ (done ++ line')) where
  items := by
    have before := inTurn.items
    rw [List.filterMap_append, waiting.places, List.append_nil] at before
    rw [List.filterMap_append, before, List.filterMap_append, still.places, List.append_nil, items]
  begun := by
    intro note member
    rcases List.mem_append.mp member with earlier | new
    · exact Nat.le_trans (inTurn.begun note (List.mem_append_left _ earlier)) passes
    · rcases List.mem_append.mp new with new | new
      · exact (fates note new).1
      · exact begun note new
  fates := by
    intro note member ending here
    rcases List.mem_append.mp member with earlier | new
    · obtain ⟨begun, inTime, fate⟩ := inTurn.fates note (List.mem_append_left _ earlier) ending here
      exact ⟨begun, Nat.le_trans inTime passes, fate.mono grows⟩
    · rcases List.mem_append.mp new with new | new
      · obtain ⟨begun, ending', here', time, fate⟩ := fates note new
        obtain rfl : ending' = ending := Option.some.inj (here'.symm.trans here)
        exact ⟨time ▸ begun, Nat.le_of_eq time, fate⟩
      · rw [still.waits note new] at here
        cases here
  order := by
    obtain ⟨before, after⟩ := inOrder_append.mp inTurn.order
    refine inOrder_append.mpr ⟨before, order _ (foldl_frees_le (Nat.zero_le _) ?_) after⟩
    intro note member ending here
    exact (inTurn.fates note (List.mem_append_left _ member) ending here).2.1
  line := by
    refine ⟨ended ++ done, line', (List.append_assoc ..).symm, fun note member => ?_, still⟩
    rcases List.mem_append.mp member with earlier | new
    · exact past note earlier
    · obtain ⟨-, ending, here, -⟩ := fates note new
      exact Option.isSome_of_eq_some here

/-! ### Looks -/

theorem attend_append (past : ∀ note ∈ ended, note.ending.isSome = true) (line : List ReadNote) :
    attend now place busy connection (ended ++ line) =
      (ended ++ (attend now place busy connection line).1, (attend now place busy connection line).2) := by
  induction ended with
  | nil => rfl
  | cons note rest ih =>
      rw [List.cons_append, attend_cons, attendOne_ended (past note (List.mem_cons_self ..))]
      dsimp only
      rw [ih fun note member => past note (List.mem_cons_of_mem _ member)]
      rfl

theorem attend_done (past : ∀ note ∈ ended, note.ending.isSome = true) :
    attend now place busy connection ended = (ended, connection) := by
  have looked : attend now place busy connection (ended ++ []) = (ended ++ [], connection) := attend_append past []
  rwa [List.append_nil] at looked

theorem attend_behind (isOpen : connection.isClosed = false) (notes : List ReadNote) :
    attend now place true connection notes = (notes, connection) := by
  induction notes with
  | nil => rfl
  | cons note rest ih =>
      rw [attend_cons, attendOne_behind isOpen]
      dsimp only
      rw [ih]

theorem attend_ceased (ceased : connection.read? = some (.error .closed, connection))
    (waits : ∀ note ∈ line, note.ending = none) :
    attend now place false connection line = (line.map fun note => note.ends now (.error .closed) place, connection) := by
  induction line with
  | nil => rfl
  | cons note rest ih =>
      rw [attend_cons, attendOne_found (waits note (List.mem_cons_self ..)) (fun busy => by cases busy) ceased]
      dsimp only
      rw [ih fun note member => waits note (List.mem_cons_of_mem _ member)]
      rfl

theorem not_late (idle : Duration) : ¬(idle.millis ≠ 0 ∧ expiry now idle.millis ≤ now) :=
  fun late => Nat.not_lt.mpr late.2 (lt_expiry (Nat.pos_of_ne_zero late.1))

theorem attend_next (nothing : connection.read? = none) (waits : ∀ note ∈ line, note.ending = none ∧ note.turn = none) :
    attend now place false connection line = (callNext now line, connection) := by
  cases line with
  | nil => rfl
  | cons first rest =>
      obtain ⟨waiting, turn⟩ := waits first (List.mem_cons_self ..)
      have early : ¬(first.idle.millis ≠ 0 ∧ expiry (first.turn.getD now) first.idle.millis ≤ now) := by
        rw [turn]
        exact not_late first.idle
      rw [attend_cons, attendOne_first waiting (fun busy => by cases busy) nothing early, turn]
      dsimp only
      rw [attend_behind (Link.read?_eq_none.mp nothing).1]
      rfl

/-- If the first read in line ends and nothing is left after that, the turn passes on. -/
theorem attend_turn {note : ReadNote} (one : attendOne now place false connection first = (note, false, later))
    (nothing : later.read? = none) (behind : ∀ note ∈ rest, note.ending = none ∧ note.turn = none) :
    attend now place false connection (first :: rest) = (note :: callNext now rest, later) := by
  rw [attend_cons, one]
  dsimp only
  rw [attend_next nothing behind]

theorem attend_wait {since : Nat} (nothing : connection.read? = none) (waits : first.ending = none)
    (turn : first.turn = some since) (early : ∀ due, first.deadline? = some due → now < due) (rest : List ReadNote) :
    attend now place false connection (first :: rest) = (first :: rest, connection) := by
  have ahead : ¬(first.idle.millis ≠ 0 ∧ expiry (first.turn.getD now) first.idle.millis ≤ now) := by
    rw [turn]
    intro late
    have due : first.deadline? = some (expiry since first.idle.millis) := by
      rw [deadline?, turn, Option.bind_some, if_neg late.1]
    exact Nat.not_lt.mpr late.2 (early _ due)
  rw [attend_cons, attendOne_first waits (fun busy => by cases busy) nothing ahead, turn]
  dsimp only
  rw [attend_behind (Link.read?_eq_none.mp nothing).1, Option.getD_some, ← turn]

end

/-! ### What a look does -/

section

variable {now instant : Nat} {connection : Link} {reads : List ReadNote} {place : Option Nat} {result : ReadResult}

/-- Looking again at the same instant changes nothing. -/
theorem InTurn.again (inTurn : InTurn now connection reads) :
    attend now place false connection reads = (reads, connection) := by
  obtain ⟨ended, line, rfl, past, waiting⟩ := inTurn.line
  rw [attend_append past]
  cases waiting with
  | nil => rfl
  | cons nothing waits turn early behind => rw [attend_wait nothing waits turn early]

theorem inOrder_behind {line : List ReadNote} (free : Nat) (behind : ∀ note ∈ line, note.ending = none ∧ note.turn = none) :
    InOrder free line := by
  induction line generalizing free with
  | nil => trivial
  | cons note rest ih =>
      obtain ⟨⟨waits, turn⟩, others⟩ := List.forall_mem_cons.mp behind
      refine ⟨fun since here => ?_, fun ending here => ?_, ih _ others⟩
      · rw [turn] at here
        cases here
      · rw [waits] at here
        cases here

theorem inOrder_ends {free : Nat} {line : List ReadNote} (past : free ≤ now) (behind : ∀ note ∈ line, note.turn = none) :
    InOrder free (line.map fun note => note.ends now result place) := by
  induction line generalizing free with
  | nil => trivial
  | cons note rest ih =>
      obtain ⟨turn, others⟩ := List.forall_mem_cons.mp behind
      refine ⟨fun since here => ?_, fun ending here => ?_, ih (Nat.le_refl now) others⟩
      · rw [show (note.ends now result place).turn = none from turn] at here
        cases here
      · obtain rfl := Option.some.inj here
        exact past

theorem inOrder_callNext {line : List ReadNote} (begun : ∀ note ∈ line, note.begun ≤ now)
    (behind : ∀ note ∈ line, note.ending = none ∧ note.turn = none) : InOrder now (callNext now line) := by
  cases line with
  | nil => trivial
  | cons first rest =>
      obtain ⟨⟨waits, -⟩, others⟩ := List.forall_mem_cons.mp behind
      refine ⟨fun since here => ?_, fun ending here => ?_, inOrder_behind _ others⟩
      · obtain rfl : now = since := Option.some.inj here
        exact (Nat.max_eq_right (begun first (List.mem_cons_self ..))).symm
      · rw [show ({ first with turn := some now } : ReadNote).ending = none from waits] at here
        cases here

theorem line_callNext {line : List ReadNote} (nothing : connection.read? = none)
    (behind : ∀ note ∈ line, note.ending = none ∧ note.turn = none) : Line now connection (callNext now line) := by
  cases line with
  | nil => exact .nil
  | cons first rest =>
      obtain ⟨⟨waits, -⟩, others⟩ := List.forall_mem_cons.mp behind
      refine .cons nothing waits rfl (fun due here => ?_) others
      change (if first.idle.millis = 0 then none else some (expiry now first.idle.millis)) = some due at here
      split at here
      · cases here
      · next timed =>
          obtain rfl := Option.some.inj here
          exact lt_expiry (Nat.pos_of_ne_zero timed)

theorem begun_callNext {line : List ReadNote} (begun : ∀ note ∈ line, note.begun ≤ now) :
    ∀ note ∈ callNext now line, note.begun ≤ now := by
  cases line with
  | nil => exact begun
  | cons first rest =>
      obtain ⟨here, others⟩ := List.forall_mem_cons.mp begun
      exact List.forall_mem_cons.mpr ⟨here, others⟩

section

variable {later : Link} {ended rest : List ReadNote} {first : ReadNote}

theorem InTurn.handOn (inTurn : InTurn now connection (ended ++ first :: rest))
    (past : ∀ note ∈ ended, note.ending.isSome = true) (waiting : Line now connection (first :: rest))
    (grows : connection.Grows later) (passes : now ≤ instant) (nothing : later.read? = none)
    (items : List.range later.taken = List.range connection.taken ++ place.toList)
    (fate : first.Fate later ⟨instant, result, place⟩) :
    InTurn instant later (ended ++ first.ends instant result place :: callNext instant rest) := by
  have behind : ∀ note ∈ rest, note.ending = none ∧ note.turn = none := by
    cases waiting with
    | cons _ _ _ _ behind => exact behind
  have begun : ∀ note ∈ first :: rest, note.begun ≤ instant := fun note member =>
    Nat.le_trans (inTurn.begun note (List.mem_append_right _ member)) passes
  obtain ⟨begins, others⟩ := List.forall_mem_cons.mp begun
  refine inTurn.advance [first.ends instant result place] (callNext instant rest) past waiting grows passes ?_ ?_
    (begun_callNext others) ?_ (line_callNext nothing behind)
  · rw [items]
    cases place <;> rfl
  · intro note member
    obtain rfl := List.mem_singleton.mp member
    exact ⟨begins, _, rfl, rfl, fate.ends⟩
  · intro free free_le order
    refine ⟨order.1, fun ending here => ?_, inOrder_callNext others behind⟩
    obtain rfl := Option.some.inj here
    exact Nat.le_trans free_le passes

end

/-- At a later instant that no deadline lies before, a read whose deadline has come is silent for too long. -/
theorem InTurn.wake (inTurn : InTurn now connection reads) (passes : now ≤ instant)
    (early : ∀ note ∈ reads, note.ending = none → ∀ due, note.deadline? = some due → instant ≤ due) :
    ∃ reads', attend instant none false connection reads = (reads', connection) ∧ InTurn instant connection reads' := by
  obtain ⟨ended, line, rfl, past, waiting⟩ := inTurn.line
  have aged (still : Line instant connection line) : InTurn instant connection (ended ++ line) := by
    have begun : ∀ note ∈ line, note.begun ≤ instant := fun note member =>
      Nat.le_trans (inTurn.begun note (List.mem_append_right _ member)) passes
    exact inTurn.advance [] line past waiting (.refl _) passes (List.append_nil _).symm
      (fun note member => by cases member) begun (fun _ _ order => order) still
  cases waiting with
  | nil => exact ⟨ended ++ [], attend_append past [], aged .nil⟩
  | @cons first rest since nothing waits turn ahead behind =>
      by_cases due : first.deadline? = some instant
      · have timed : first.idle.millis ≠ 0 := by
          intro zero
          rw [deadline?, turn, Option.bind_some, if_pos zero] at due
          cases due
        have late : first.idle.millis ≠ 0 ∧ expiry (first.turn.getD instant) first.idle.millis ≤ instant := by
          refine ⟨timed, ?_⟩
          rw [deadline?, turn, Option.bind_some, if_neg timed] at due
          rw [turn]
          exact Nat.le_of_eq (Option.some.inj due)
        have leaves : first.Fate connection ⟨instant, .error (.idleTimeout first.idle), none⟩ := .silence rfl rfl due
        refine ⟨_, ?_, inTurn.handOn past (.cons nothing waits turn ahead behind) (.refl _) passes nothing
          (List.append_nil _).symm leaves⟩
        rw [attend_append past,
          attend_turn (attendOne_late waits (fun busy => by cases busy) nothing late) nothing behind]
      · have before : ∀ due, first.deadline? = some due → instant < due := fun deadline here =>
          Nat.lt_of_le_of_ne (early first (List.mem_append_right _ (List.mem_cons_self ..)) waits deadline here)
            fun same => due (same ▸ here)
        refine ⟨_, ?_, aged (.cons nothing waits turn before behind)⟩
        rw [attend_append past, attend_wait nothing waits turn before]

theorem InTurn.ceased (inTurn : InTurn now connection reads) {ceased : Link} (grows : connection.Grows ceased)
    (same : ceased.taken = connection.taken) (ends : ceased.read? = some (.error .closed, ceased))
    (finished : ceased.isClosed = true ∨ ceased.hungUp = true ∧ ceased.sent.length ≤ ceased.taken) :
    attend now none false ceased reads = (reads.map (ReadNote.ceased now), ceased) ∧
      InTurn now ceased (reads.map (ReadNote.ceased now)) := by
  obtain ⟨ended, line, rfl, past, waiting⟩ := inTurn.line
  have closes : line.map (ReadNote.ceased now) = line.map fun note => note.ends now (.error .closed) none := by
    refine List.map_congr_left fun note member => ?_
    exact if_neg (by rw [waiting.waits note member]; decide)
  rw [List.map_append, map_ceased past, closes]
  refine ⟨by rw [attend_append past, attend_ceased ends waiting.waits], ?_⟩
  have advanced := inTurn.advance (line.map fun note => note.ends now (.error .closed) none) [] past
    waiting grows (Nat.le_refl now) ?_ ?_ (fun note member => by cases member) ?_ .nil
  · rwa [List.append_nil] at advanced
  · rw [same, List.filterMap_map, List.filterMap_eq_nil_iff.mpr, List.append_nil]
    exact fun note _ => rfl
  · intro note member
    obtain ⟨waited, earlier, rfl⟩ := List.mem_map.mp member
    exact ⟨inTurn.begun waited (List.mem_append_right _ earlier), _, rfl, rfl,
      .ceased rfl rfl finished (waiting.early waited earlier)⟩
  · intro free free_le order
    rw [List.append_nil]
    cases waiting with
    | nil => trivial
    | cons nothing waits turn early behind =>
        refine ⟨order.1, fun ending here => ?_, inOrder_ends (Nat.le_refl now) fun note member => (behind note member).2⟩
        obtain rfl := Option.some.inj here
        exact free_le

theorem InTurn.early (inTurn : InTurn now connection reads) {note : ReadNote} (member : note ∈ reads)
    (waits : note.ending = none) {due : Nat} (deadline : note.deadline? = some due) : now < due := by
  obtain ⟨ended, line, rfl, past, waiting⟩ := inTurn.line
  rcases List.mem_append.mp member with gone | inLine
  · have ended := past note gone
    rw [waits] at ended
    cases ended
  · exact waiting.early note inLine due deadline

theorem InTurn.taken_le (inTurn : InTurn now connection reads) : connection.taken ≤ connection.sent.length := by
  cases taken : connection.taken with
  | zero => exact Nat.zero_le _
  | succ last =>
      have member : last ∈ reads.filterMap ReadNote.place? := by
        rw [inTurn.items, taken]
        exact List.mem_range.mpr (Nat.lt_succ_self last)
      obtain ⟨note, here, placed⟩ := List.mem_filterMap.mp member
      obtain ⟨ending, ended, took⟩ := Option.bind_eq_some_iff.mp placed
      obtain ⟨-, -, fate⟩ := inTurn.fates note here ending ended
      cases fate with
      | item took' queued =>
          obtain rfl := Option.some.inj (took'.symm.trans took)
          exact (List.getElem?_eq_some_iff.mp queued).1
      | ceased took' => cases took'.symm.trans took
      | silence took' => cases took'.symm.trans took

theorem InTurn.drained (inTurn : InTurn now connection reads) (nothing : connection.read? = none) :
    connection.taken = connection.sent.length :=
  Nat.le_antisymm inTurn.taken_le (List.getElem?_eq_none_iff.mp (Link.read?_eq_none.mp nothing).2.1)

section

variable {ended rest : List ReadNote} {first : ReadNote} {item : ReadResult}

theorem InTurn.unread (inTurn : InTurn now connection reads) (past : ∀ note ∈ reads, note.ending.isSome = true)
    {later : Link} (grows : connection.Grows later) (same : later.taken = connection.taken) : InTurn now later reads := by
  have whole : InTurn now connection (reads ++ []) := by rwa [List.append_nil]
  have advanced := whole.advance [] [] past .nil grows (Nat.le_refl now)
    (by rw [same, List.filterMap_nil, List.append_nil]) (fun note member => by cases member)
    (fun note member => by cases member) (fun _ _ order => order) .nil
  rwa [List.append_nil, List.append_nil] at advanced

theorem InTurn.push_awaited (inTurn : InTurn now connection (ended ++ first :: rest))
    (past : ∀ note ∈ ended, note.ending.isSome = true) (waiting : Line now connection (first :: rest))
    (item : ReadResult) :
    let later : Link := { connection.push item with taken := connection.taken + 1 }
    let reads := ended ++ first.ends now item (some connection.taken) :: callNext now rest
    attend now (some connection.taken) false (connection.push item) (ended ++ first :: rest) = (reads, later) ∧
      InTurn now later reads := by
  intro later reads
  cases waiting with
  | @cons _ _ since nothing waits turn early behind =>
      obtain ⟨isOpen, -, going⟩ := Link.read?_eq_none.mp nothing
      have drained := inTurn.drained nothing
      have pushed : connection.push item = { connection with sent := connection.sent ++ [item] } :=
        if_neg (ne_true_of_eq_false going)
      have last : (connection.push item).sent[(connection.push item).taken]? = some item := by
        rw [pushed]
        dsimp only
        rw [drained, List.getElem?_concat_length]
      have isOpen' : (connection.push item).isClosed = false := by rw [pushed]; exact isOpen
      have found := Link.read?_item isOpen' last
      have same : { connection.push item with taken := (connection.push item).taken + 1 } = later := by
        rw [show (connection.push item).taken = connection.taken by rw [pushed]]
      rw [same] at found
      have nothing' : later.read? = none := by
        refine Link.read?_eq_none.mpr ⟨isOpen', ?_, ?_⟩
        · rw [show later.sent = connection.sent ++ [item] by simp only [later, pushed], List.getElem?_eq_none_iff,
            List.length_append, ← drained]
          exact Nat.le_refl _
        · rw [show later.hungUp = connection.hungUp by simp only [later, pushed], going]
      have grows : connection.Grows later := by
        refine ⟨?_, Nat.le_succ _, ?_, fun hungUp => by rw [going] at hungUp; cases hungUp⟩
        · rw [show later.sent = connection.sent ++ [item] by simp only [later, pushed]]
          exact List.prefix_append ..
        · rw [isOpen]
          exact fun closed => by cases closed
      refine ⟨?_, inTurn.handOn past (.cons nothing waits turn early behind) grows (Nat.le_refl now) nothing' List.range_succ
        (.item rfl ?_ early)⟩
      · rw [attend_append past,
          attend_turn (attendOne_found waits (fun busy => by cases busy) found) nothing' behind]
      · rw [← last]
        simp only [later, pushed]

theorem InTurn.begin_behind (inTurn : InTurn now connection (ended ++ first :: rest))
    (past : ∀ note ∈ ended, note.ending.isSome = true) (waiting : Line now connection (first :: rest))
    (link : Nat) (idle : Duration) :
    let reads := ended ++ first :: (rest ++ [.begin link idle now])
    attend now place false connection reads = (reads, connection) ∧ InTurn now connection reads := by
  intro reads
  have begun : ∀ note ∈ first :: (rest ++ [.begin link idle now]), note.begun ≤ now := by
    intro note member
    rcases List.mem_append.mp (List.cons_append .. ▸ member : note ∈ (first :: rest) ++ [.begin link idle now]) with
      earlier | new
    · exact inTurn.begun note (List.mem_append_right _ earlier)
    · obtain rfl := List.mem_singleton.mp new
      exact Nat.le_refl now
  cases waiting with
  | cons nothing waits turn early behind =>
      have behind' : ∀ note ∈ rest ++ [ReadNote.begin link idle now], note.ending = none ∧ note.turn = none := by
        intro note member
        rcases List.mem_append.mp member with earlier | new
        · exact behind note earlier
        · obtain rfl := List.mem_singleton.mp new
          exact ⟨rfl, rfl⟩
      refine ⟨by rw [attend_append past, attend_wait nothing waits turn early], ?_⟩
      exact inTurn.advance [] (first :: (rest ++ [.begin link idle now])) past (.cons nothing waits turn early behind) (.refl _) (Nat.le_refl now)
        (List.append_nil _).symm (fun note member => by cases member) begun
        (fun free _ order => ⟨order.1, order.2.1, inOrder_behind _ behind'⟩) (.cons nothing waits turn early behind')

theorem InTurn.begin_first (inTurn : InTurn now connection reads) (past : ∀ note ∈ reads, note.ending.isSome = true)
    (nothing : connection.read? = none) (link : Nat) (idle : Duration) :
    let reads' := reads ++ callNext now [.begin link idle now]
    attend now place false connection (reads ++ [.begin link idle now]) = (reads', connection) ∧
      InTurn now connection reads' := by
  intro reads'
  have fresh : ∀ note ∈ [ReadNote.begin link idle now], note.ending = none ∧ note.turn = none := by
    intro note member
    obtain rfl := List.mem_singleton.mp member
    exact ⟨rfl, rfl⟩
  have begun : ∀ note ∈ [ReadNote.begin link idle now], note.begun ≤ now := by
    intro note member
    obtain rfl := List.mem_singleton.mp member
    exact Nat.le_refl now
  have whole : InTurn now connection (reads ++ []) := by rwa [List.append_nil]
  refine ⟨by rw [attend_append past, attend_next nothing fresh], ?_⟩
  refine whole.advance [] _ past .nil (.refl _) (Nat.le_refl now) (List.append_nil _).symm
    (fun note member => by cases member) (begun_callNext begun) (fun free free_le _ => ?_) (line_callNext nothing fresh)
  refine ⟨fun since here => ?_, fun ending here => ?_, trivial⟩
  · obtain rfl : now = since := Option.some.inj here
    exact (Nat.max_eq_left free_le).symm
  · cases here

theorem InTurn.begin_found (inTurn : InTurn now connection reads) (past : ∀ note ∈ reads, note.ending.isSome = true)
    {later : Link} (found : connection.read? = some (result, later)) (link : Nat) (idle : Duration) :
    let reads' := reads ++ [(ReadNote.begin link idle now).ends now result (gone? connection later)]
    attend now (gone? connection later) false connection (reads ++ [.begin link idle now]) = (reads', later) ∧
      InTurn now later reads' := by
  intro reads'
  have whole : InTurn now connection (reads ++ []) := by rwa [List.append_nil]
  have ends : ∀ fate : (ReadNote.begin link idle now).Fate later ⟨now, result, gone? connection later⟩,
      connection.Grows later → List.range later.taken = List.range connection.taken ++ (gone? connection later).toList →
        InTurn now later reads' := by
    intro fate grows items
    have advanced := whole.advance [(ReadNote.begin link idle now).ends now result (gone? connection later)]
      [] past .nil grows (Nat.le_refl now) ?_ ?_ (fun note member => by cases member) ?_ .nil
    · rwa [List.append_nil] at advanced
    · rw [items]
      cases gone? connection later <;> rfl
    · intro note member
      obtain rfl := List.mem_singleton.mp member
      exact ⟨Nat.le_refl now, _, rfl, rfl, fate.ends⟩
    · intro free free_le _
      refine ⟨fun since here => ?_, fun ending here => ?_, trivial⟩
      · cases here
      · obtain rfl := Option.some.inj here
        exact free_le
  refine ⟨by rw [attend_append past, attend_cons, attendOne_found rfl (fun busy => by cases busy) found]; rfl, ?_⟩
  rcases Link.read?_eq_some found with ⟨isOpen, queued, rfl⟩ | ⟨rfl, same, finished⟩
  · have gone : gone? connection { connection with taken := connection.taken + 1 } = some connection.taken :=
      gone?_succ rfl
    refine ends (.item gone queued fun due here => ?_) (.take connection) ?_
    · cases here
    · rw [gone]
      exact List.range_succ
  · have gone : gone? connection later = none := gone?_of_eq (congrArg Link.taken same)
    refine ends (.ceased gone rfl (same ▸ finished) fun due here => ?_) (same ▸ .refl _) ?_
    · cases here
    · rw [gone, same]
      exact (List.append_nil _).symm

end

end

/-! ### Everything that can happen to a connection -/

/-- What a step does to a connection, apart from letting its reads look again. -/
inductive Touch
  | nothing
  | read (idle : Duration)
  | push (item : ReadResult)
  | close
  | hangUp

namespace Touch

def change (touch : Touch) (connection : Link) : Link :=
  match touch with
  | .push item => connection.push item
  | .close => connection.close
  | .hangUp => connection.hangUp
  | .nothing | .read _ => connection

def begun (touch : Touch) (link now : Nat) : List ReadNote :=
  match touch with
  | .read idle => [.begin link idle now]
  | .nothing | .push _ | .close | .hangUp => []

end Touch

/-- What becomes of a connection and its reads when it is touched. -/
inductive Touched (link now : Nat) (connection : Link) (reads : List ReadNote) : Touch → Link → List ReadNote → Prop
  | untouched : Touched link now connection reads .nothing connection reads
  | closed : Touched link now connection reads .close connection.close (reads.map (ReadNote.ceased now))
  | hungUp : Touched link now connection reads .hangUp connection.hangUp (reads.map (ReadNote.ceased now))
  | refused {item : ReadResult} (gone : connection.hungUp = true) :
      Touched link now connection reads (.push item) connection reads
  | queued {item : ReadResult} (going : connection.hungUp = false)
      (past : ∀ note ∈ reads, note.ending.isSome = true) :
      Touched link now connection reads (.push item) (connection.push item) reads
  | handed {item : ReadResult} {ended rest : List ReadNote} {first : ReadNote} (going : connection.hungUp = false)
      (split : reads = ended ++ first :: rest) (past : ∀ note ∈ ended, note.ending.isSome = true)
      (waits : first.ending = none) :
      Touched link now connection reads (.push item) { connection.push item with taken := connection.taken + 1 }
        (ended ++ first.ends now item (some connection.taken) :: callNext now rest)
  | found {idle : Duration} {result : ReadResult} {later : Link} (past : ∀ note ∈ reads, note.ending.isSome = true)
      (found : connection.read? = some (result, later)) :
      Touched link now connection reads (.read idle) later
        (reads ++ [(ReadNote.begin link idle now).ends now result (gone? connection later)])
  | first {idle : Duration} (nothing : connection.read? = none) (past : ∀ note ∈ reads, note.ending.isSome = true) :
      Touched link now connection reads (.read idle) connection
        (reads ++ [{ ReadNote.begin link idle now with turn := some now }])
  | behind {idle : Duration} {ahead : ReadNote} (nothing : connection.read? = none) (waits : ahead ∈ reads)
      (pending : ahead.ending = none) :
      Touched link now connection reads (.read idle) connection (reads ++ [.begin link idle now])

theorem InTurn.hangsUp {now : Nat} {connection : Link} {reads : List ReadNote} (inTurn : InTurn now connection reads) :
    attend now none false connection.hangUp reads = (reads.map (ReadNote.ceased now), connection.hangUp) ∧
      InTurn now connection.hangUp (reads.map (ReadNote.ceased now)) := by
  have grows : connection.Grows connection.hangUp :=
    ⟨List.prefix_refl _, Nat.le_refl _, id, fun _ => ⟨rfl, rfl⟩⟩
  obtain ⟨ended, line, rfl, past, waiting⟩ := inTurn.line
  cases waiting with
  | nil =>
      rw [List.append_nil] at inTurn ⊢
      rw [map_ceased past]
      exact ⟨attend_done past, inTurn.unread past grows rfl⟩
  | cons nothing =>
      obtain ⟨isOpen, drained, -⟩ := Link.read?_eq_none.mp nothing
      have ends : connection.hangUp.read? = some (.error .closed, connection.hangUp) :=
        Link.read?_drained isOpen drained
      exact inTurn.ceased grows rfl ends (.inr ⟨rfl, List.getElem?_eq_none_iff.mp drained⟩)

theorem InTurn.pushes {now : Nat} {connection : Link} {reads : List ReadNote} (inTurn : InTurn now connection reads)
    (going : connection.hungUp = false) (link : Nat) (item : ReadResult) :
    ∃ later reads', attend now (gone? connection later) false (connection.push item) reads = (reads', later) ∧
      InTurn now later reads' ∧ Touched link now connection reads (.push item) later reads' := by
  have pushed : connection.push item = { connection with sent := connection.sent ++ [item] } :=
    if_neg (ne_true_of_eq_false going)
  obtain ⟨ended, line, rfl, past, waiting⟩ := inTurn.line
  cases waiting with
  | nil =>
      rw [List.append_nil] at inTurn ⊢
      refine ⟨connection.push item, ended, attend_done past, inTurn.unread past ?_ ?_, .queued going past⟩
      · rw [pushed]
        exact ⟨List.prefix_append .., Nat.le_refl _, id, fun hungUp => absurd hungUp (ne_true_of_eq_false going)⟩
      · rw [pushed]
  | @cons first rest since nothing waits turn early behind =>
      obtain ⟨looked, handed⟩ := inTurn.push_awaited past (.cons nothing waits turn early behind) item
      refine ⟨_, _, ?_, handed, .handed going rfl past waits⟩
      rw [gone?_succ rfl]
      exact looked

theorem InTurn.begins {now : Nat} {connection : Link} {reads : List ReadNote} (inTurn : InTurn now connection reads)
    (link : Nat) (idle : Duration) :
    ∃ later reads', attend now (gone? connection later) false connection (reads ++ [.begin link idle now]) =
        (reads', later) ∧
      InTurn now later reads' ∧ Touched link now connection reads (.read idle) later reads' := by
  obtain ⟨ended, line, rfl, past, waiting⟩ := inTurn.line
  cases waiting with
  | nil =>
      rw [List.append_nil] at inTurn ⊢
      cases look : connection.read? with
      | none =>
          obtain ⟨looked, begun⟩ := inTurn.begin_first past look link idle
          exact ⟨_, _, looked, begun, .first look past⟩
      | some found =>
          obtain ⟨looked, begun⟩ := inTurn.begin_found past look link idle
          exact ⟨_, _, looked, begun, .found past look⟩
  | @cons first rest since nothing waits turn early behind =>
      obtain ⟨looked, begun⟩ := inTurn.begin_behind past (.cons nothing waits turn early behind) link idle
      rw [← List.cons_append, ← List.append_assoc] at looked begun
      exact ⟨_, _, looked, begun, .behind nothing (List.mem_append_right _ (List.mem_cons_self ..)) waits⟩

/-- What a look does after a connection was touched. -/
theorem InTurn.touch {now : Nat} {connection : Link} {reads : List ReadNote} (inTurn : InTurn now connection reads)
    (link : Nat) (touch : Touch) :
    ∃ later reads', attend now (gone? connection later) false (touch.change connection) (reads ++ touch.begun link now) =
        (reads', later) ∧
      InTurn now later reads' ∧ Touched link now connection reads touch later reads' ∧ Extends reads reads' := by
  suffices looked : ∃ later reads', attend now (gone? connection later) false (touch.change connection)
      (reads ++ touch.begun link now) = (reads', later) ∧
      InTurn now later reads' ∧ Touched link now connection reads touch later reads' by
    obtain ⟨later, reads', looked, inTurn, touched⟩ := looked
    refine ⟨later, reads', looked, inTurn, touched, (Extends.more reads (touch.begun link now)).trans ?_⟩
    have each := attend_later now (gone? connection later) false (touch.change connection) (reads ++ touch.begun link now)
    rw [looked] at each
    exact .of_later each
  cases touch with
  | nothing =>
      refine ⟨connection, _, ?_, inTurn, .untouched⟩
      rw [Touch.begun, List.append_nil]
      exact inTurn.again
  | close =>
      have grows : connection.Grows connection.close :=
        ⟨List.prefix_refl _, Nat.le_refl _, fun _ => decide_eq_true (Nat.succ_pos _), fun hungUp => ⟨hungUp, rfl⟩⟩
      have isClosed : connection.close.isClosed = true := decide_eq_true (Nat.succ_pos _)
      obtain ⟨looked, ends⟩ := inTurn.ceased grows rfl (Link.read?_closed isClosed) (.inl isClosed)
      refine ⟨connection.close, _, ?_, ends, .closed⟩
      rw [gone?_of_eq (show connection.close.taken = connection.taken from rfl), Touch.begun, List.append_nil]
      exact looked
  | hangUp =>
      obtain ⟨looked, ends⟩ := inTurn.hangsUp
      refine ⟨connection.hangUp, _, ?_, ends, .hungUp⟩
      rw [gone?_of_eq (show connection.hangUp.taken = connection.taken from rfl), Touch.begun, List.append_nil]
      exact looked
  | push item =>
      rw [Touch.begun, List.append_nil]
      by_cases going : connection.hungUp = false
      · exact inTurn.pushes going link item
      · have same : connection.push item = connection := if_pos (by simpa using going)
        refine ⟨connection, _, ?_, inTurn, .refused (by simpa using going)⟩
        rw [Touch.change, same]
        exact inTurn.again
  | read idle => exact inTurn.begins link idle

end SequencedFeed
