import Mathlib.Data.List.Forall2
import SequencedFeed.Rehearsal
import SequencedFeed.Proofs.Time
set_option autoImplicit false

/-!
# A rehearsal that is watched

A call that has ended no longer says which connection it read from or when it ended. Somebody who watches the
rehearsal at every instant notes down both, and which item is gone from the queue. What becomes of the reads of one
connection depends on this connection and on them alone (`attend`), however many calls and connections there are
besides.
-/

namespace SequencedFeed

/-! ### Notes -/

/-- How a read ended: when, with what, and the place in the queue of the item that was gone then. -/
structure ReadEnding where
  time : Nat
  result : ReadResult
  place : Option Nat

/-- What is known of a read. Its turn is noted if it had to wait from then on. -/
structure ReadNote where
  link : Nat
  idle : Duration
  begun : Nat
  turn : Option Nat
  ending : Option ReadEnding

namespace ReadNote

def begin (link : Nat) (idle : Duration) (now : Nat) : ReadNote :=
  { link, idle, begun := now, turn := none, ending := none }

def ends (note : ReadNote) (now : Nat) (result : ReadResult) (place : Option Nat) : ReadNote :=
  { note with ending := some { time := now, result, place } }

def look (now : Nat) (place : Option Nat) (note : ReadNote) (call : WaitingCall ⊕ CallResult) : ReadNote :=
  match note.ending, call with
  | none, .inl (.read _ _ turn) => { note with turn }
  | none, .inr (.read result) => note.ends now result place
  | _, _ => note

def place? (note : ReadNote) : Option Nat :=
  note.ending.bind ReadEnding.place

def item? (note : ReadNote) : Option ReadResult :=
  note.ending.bind fun ending => ending.place.map fun _ => ending.result

def deadline? (note : ReadNote) : Option Nat :=
  note.turn.bind fun since => if note.idle.millis = 0 then none else some (expiry since note.idle.millis)

theorem look_ended {now : Nat} {place : Option Nat} {note : ReadNote} {ending : ReadEnding}
    (ended : note.ending = some ending) (call : WaitingCall ⊕ CallResult) : note.look now place call = note := by
  unfold look
  rw [ended]

theorem look_waiting {now : Nat} {place : Option Nat} {note : ReadNote} (waits : note.ending = none)
    (link : Nat) (idle : Duration) (turn : Option Nat) :
    note.look now place (.inl (.read link idle turn)) = { note with turn } := by
  unfold look
  rw [waits]

theorem look_result {now : Nat} {place : Option Nat} {note : ReadNote} (waits : note.ending = none)
    (result : ReadResult) : note.look now place (.inr (.read result)) = note.ends now result place := by
  unfold look
  rw [waits]

@[simp]
theorem look_link (now : Nat) (place : Option Nat) (note : ReadNote) (call : WaitingCall ⊕ CallResult) :
    (note.look now place call).link = note.link := by
  unfold look
  split <;> rfl

end ReadNote

/-- The notes of the reads of one connection, in the order in which the reads began. -/
def readsOf (link : Nat) (notes : List (Option ReadNote)) : List ReadNote :=
  notes.filterMap fun note => note.filter fun note => note.link == link

theorem readsOf_append (link : Nat) (before after : List (Option ReadNote)) :
    readsOf link (before ++ after) = readsOf link before ++ readsOf link after :=
  List.filterMap_append

theorem readsOf_nones {α : Type} (link : Nat) (others : List α) : readsOf link (others.map fun _ => none) = [] := by
  induction others with
  | nil => rfl
  | cons _ rest ih => exact ih

theorem readsOf_here {link : Nat} {note : ReadNote} (here : note.link = link) (rest : List (Option ReadNote)) :
    readsOf link (some note :: rest) = note :: readsOf link rest := by
  subst here
  simp [readsOf, Option.filter]

theorem readsOf_elsewhere {link : Nat} {note : ReadNote} (elsewhere : note.link ≠ link)
    (rest : List (Option ReadNote)) : readsOf link (some note :: rest) = readsOf link rest := by
  simp [readsOf, Option.filter, elsewhere]

theorem mem_readsOf {link : Nat} {notes : List (Option ReadNote)} {note : ReadNote} :
    note ∈ readsOf link notes ↔ some note ∈ notes ∧ note.link = link := by
  simp [readsOf, List.mem_filterMap, Option.filter_eq_some_iff]

def gone? (before after : Link) : Option Nat :=
  if before.taken < after.taken then some before.taken else none

theorem gone?_of_eq {before after : Link} (same : after.taken = before.taken) : gone? before after = none :=
  if_neg (by rw [same]; exact Nat.lt_irrefl _)

theorem gone?_succ {before after : Link} (next : after.taken = before.taken + 1) : gone? before after = some before.taken :=
  if_pos (by rw [next]; exact Nat.lt_succ_self _)

def takenPlace? (before after : List Link) (link : Nat) : Option Nat :=
  (before[link]?).bind fun before => (after[link]?).bind (gone? before)

/-! ### The watch -/

/-- A rehearsal with a note of every call that is a read. -/
structure Watch where
  rehearsal : Rehearsal
  notes : List (Option ReadNote)

namespace Watch

def fresh : Watch :=
  { rehearsal := Rehearsal.fresh, notes := [] }

def reads (watch : Watch) (link : Nat) : List ReadNote :=
  readsOf link watch.notes

def see (watch : Watch) (begun : List (Option ReadNote)) (after : Rehearsal) : Watch :=
  let look (note : Option ReadNote) (call : WaitingCall ⊕ CallResult) : Option ReadNote :=
    note.map fun note => note.look after.now (takenPlace? watch.rehearsal.links after.links note.link) call
  { rehearsal := after, notes := List.zipWith look (watch.notes ++ begun) after.calls }

def begun (rehearsal : Rehearsal) : RehearsalStep → List (Option ReadNote)
  | .dial _ => [none]
  | .read dial idle => ((rehearsal.dialled? dial).map fun link => some (.begin link idle rehearsal.now)).toList
  | .waitClosed name => ((Link.lastNamed? rehearsal.links name).map fun _ => none).toList
  | .queue _ | .close _ | .push _ _ | .hangUp _ | .sleep _ => []

def timed : Timed Watch where
  due? watch := Rehearsal.timed.due? watch.rehearsal
  wake instant watch := watch.see [] (Rehearsal.timed.wake instant watch.rehearsal)

def apply (watch : Watch) : RehearsalStep → Watch
  | .sleep millis => timed.pass watch.rehearsal.now (watch.rehearsal.now + millis) watch
  | step => watch.see (begun watch.rehearsal step) (watch.rehearsal.apply step)

def play (watch : Watch) (steps : List RehearsalStep) : Watch :=
  steps.foldl apply watch

theorem rehearsal_apply (watch : Watch) (step : RehearsalStep) :
    (watch.apply step).rehearsal = watch.rehearsal.apply step := by
  cases step with
  | sleep millis =>
      exact @Timed.pass_alike Watch timed Rehearsal Rehearsal.timed (fun watch rehearsal => watch.rehearsal = rehearsal)
        (fun same => congrArg Rehearsal.timed.due? same)
        (fun instant {_ _} same => congrArg (Rehearsal.timed.wake instant) same) _ _ _ _ rfl
  | _ => rfl

theorem rehearsal_play (watch : Watch) (steps : List RehearsalStep) :
    (watch.play steps).rehearsal = steps.foldl Rehearsal.apply watch.rehearsal := by
  induction steps generalizing watch with
  | nil => rfl
  | cons step rest ih =>
      rw [play, List.foldl_cons, List.foldl_cons, ← rehearsal_apply]
      exact ih (watch.apply step)

end Watch

/-! ### The reads of one connection -/

/-- The next read of a connection has its look at it, unless the reader ahead of it is `busy`. -/
def attendOne (now : Nat) (place : Option Nat) (busy : Bool) (link : Link) (note : ReadNote) : ReadNote × Bool × Link :=
  if note.ending.isSome ∨ (busy ∧ ¬link.isClosed) then (note, busy, link)
  else
    match link.read? with
    | some (result, link) => (note.ends now result place, busy, link)
    | none =>
        if note.idle.millis ≠ 0 ∧ expiry (note.turn.getD now) note.idle.millis ≤ now then
          (note.ends now (.error (.idleTimeout note.idle)) place, busy, link)
        else ({ note with turn := some (note.turn.getD now) }, true, link)

/-- The reads of a connection have their looks one after the other. -/
def attend (now : Nat) (place : Option Nat) : Bool → Link → List ReadNote → List ReadNote × Link
  | _, link, [] => ([], link)
  | busy, link, note :: rest =>
      let (note, busy, link) := attendOne now place busy link note
      let (rest, link) := attend now place busy link rest
      (note :: rest, link)

theorem attend_cons (now : Nat) (place : Option Nat) (busy : Bool) (link : Link) (note : ReadNote)
    (rest : List ReadNote) :
    attend now place busy link (note :: rest) =
      let one := attendOne now place busy link note
      let others := attend now place one.2.1 one.2.2 rest
      (one.1 :: others.1, others.2) :=
  rfl

section

variable {now : Nat} {place : Option Nat} {busy : Bool} {link rest : Link} {note : ReadNote} {result : ReadResult}

theorem attendOne_ended (ended : note.ending.isSome) : attendOne now place busy link note = (note, busy, link) :=
  if_pos (.inl ended)

theorem attendOne_behind (isOpen : link.isClosed = false) :
    attendOne now place true link note = (note, true, link) :=
  if_pos (.inr ⟨rfl, ne_true_of_eq_false isOpen⟩)

theorem attendOne_found (waits : note.ending = none) (free : busy = true → link.isClosed = true)
    (found : link.read? = some (result, rest)) :
    attendOne now place busy link note = (note.ends now result place, busy, rest) := by
  rw [attendOne, if_neg (by simpa [waits] using free), found]

theorem attendOne_late (waits : note.ending = none) (free : busy = true → link.isClosed = true) (nothing : link.read? = none)
    (late : note.idle.millis ≠ 0 ∧ expiry (note.turn.getD now) note.idle.millis ≤ now) :
    attendOne now place busy link note = (note.ends now (.error (.idleTimeout note.idle)) place, busy, link) := by
  rw [attendOne, if_neg (by simpa [waits] using free), nothing]
  exact if_pos late

theorem attendOne_first (waits : note.ending = none) (free : busy = true → link.isClosed = true) (nothing : link.read? = none)
    (early : ¬(note.idle.millis ≠ 0 ∧ expiry (note.turn.getD now) note.idle.millis ≤ now)) :
    attendOne now place busy link note = ({ note with turn := some (note.turn.getD now) }, true, link) := by
  rw [attendOne, if_neg (by simpa [waits] using free), nothing]
  exact if_neg early

end

theorem attendOne_snd (now : Nat) (place place' : Option Nat) (busy : Bool) (link : Link) (note : ReadNote) :
    (attendOne now place busy link note).2 = (attendOne now place' busy link note).2 := by
  unfold attendOne
  split
  · rfl
  · split
    · rfl
    · split <;> rfl

theorem attend_snd (now : Nat) (place place' : Option Nat) (busy : Bool) (link : Link) (notes : List ReadNote) :
    (attend now place busy link notes).2 = (attend now place' busy link notes).2 := by
  induction notes generalizing busy link with
  | nil => rfl
  | cons note rest ih =>
      rw [attend_cons, attend_cons]
      dsimp only
      rw [attendOne_snd now place place', ih]

/-- A later note of the same read. An end is final, and so is the instant of a turn. -/
structure ReadNote.Later (note later : ReadNote) : Prop where
  link : later.link = note.link
  idle : later.idle = note.idle
  begun : later.begun = note.begun
  turn : note.turn.isSome = true → later.turn = note.turn
  ending : note.ending.isSome = true → later = note

theorem ReadNote.Later.refl (note : ReadNote) : note.Later note :=
  ⟨rfl, rfl, rfl, fun _ => rfl, fun _ => rfl⟩

theorem ReadNote.Later.trans {note later last : ReadNote} (first : note.Later later) (second : later.Later last) :
    note.Later last where
  link := second.link.trans first.link
  idle := second.idle.trans first.idle
  begun := second.begun.trans first.begun
  turn had := (second.turn (by rwa [first.turn had])).trans (first.turn had)
  ending ended := by
    have same := first.ending ended
    subst same
    exact second.ending ended

theorem attendOne_later (now : Nat) (place : Option Nat) (busy : Bool) (link : Link) (note : ReadNote) :
    note.Later (attendOne now place busy link note).1 := by
  unfold attendOne
  split
  · exact .refl note
  · next waits =>
      have pending (ended : note.ending.isSome = true) : False := waits (.inl ended)
      split
      · exact ⟨rfl, rfl, rfl, fun _ => rfl, fun ended => (pending ended).elim⟩
      · split
        · exact ⟨rfl, rfl, rfl, fun _ => rfl, fun ended => (pending ended).elim⟩
        · refine ⟨rfl, rfl, rfl, fun had => ?_, fun ended => (pending ended).elim⟩
          obtain ⟨since, turn⟩ := Option.isSome_iff_exists.mp had
          rw [turn]
          rfl

theorem attend_later (now : Nat) (place : Option Nat) (busy : Bool) (link : Link) (notes : List ReadNote) :
    List.Forall₂ ReadNote.Later notes (attend now place busy link notes).1 := by
  induction notes generalizing busy link with
  | nil => exact .nil
  | cons note rest ih => exact .cons (attendOne_later ..) (ih _ _)

def Extends (reads later : List ReadNote) : Prop :=
  ∀ (place : Nat) (note : ReadNote), reads[place]? = some note →
    ∃ note', later[place]? = some note' ∧ note.Later note'

namespace Extends

variable {reads reads' : List ReadNote}

theorem trans {reads'' : List ReadNote} (first : Extends reads reads') (second : Extends reads' reads'') :
    Extends reads reads'' := by
  intro place note here
  obtain ⟨note', there, later⟩ := first place note here
  obtain ⟨note'', there', later'⟩ := second place note' there
  exact ⟨note'', there', later.trans later'⟩

theorem more (reads new : List ReadNote) : Extends reads (reads ++ new) := by
  intro place note here
  rw [List.getElem?_append_left (List.getElem?_eq_some_iff.mp here).1]
  exact ⟨note, here, .refl note⟩

theorem of_later (each : List.Forall₂ ReadNote.Later reads reads') : Extends reads reads' := by
  induction each with
  | nil => exact fun _ _ here => by cases here
  | cons first _ ih =>
      intro place note here
      cases place with
      | zero =>
          obtain rfl := Option.some.inj here
          exact ⟨_, rfl, first⟩
      | succ place => exact ih place note here

theorem refl (reads : List ReadNote) : Extends reads reads :=
  of_later (List.forall₂_same.mpr fun note _ => .refl note)

theorem split {ended rest : List ReadNote} {note : ReadNote} (past : ∀ note ∈ ended, note.ending.isSome = true)
    (extends_ : Extends (ended ++ note :: rest) reads') :
    ∃ note' rest', reads' = ended ++ note' :: rest' ∧ note.Later note' := by
  induction ended generalizing reads' with
  | nil =>
      obtain ⟨note', there, later⟩ := extends_ 0 note rfl
      cases reads' with
      | nil => cases there
      | cons first rest' =>
          obtain rfl := Option.some.inj there
          exact ⟨first, rest', rfl, later⟩
  | cons first ended ih =>
      obtain ⟨first', there, later⟩ := extends_ 0 first rfl
      cases reads' with
      | nil => cases there
      | cons head others =>
          obtain rfl := Option.some.inj there
          obtain rfl := later.ending (past first (List.mem_cons_self ..))
          obtain ⟨note', rest', rfl, kept⟩ := ih (fun note member => past note (List.mem_cons_of_mem _ member))
            fun place note here => extends_ (place + 1) note here
          exact ⟨note', rest', rfl, kept⟩

end Extends

/-! ### Calls and their notes -/

def isRead : WaitingCall ⊕ CallResult → Bool
  | .inl (.read ..) => true
  | .inr (.read _) => true
  | _ => false

/-- A note that is up to date with its call. -/
inductive Agrees : Option ReadNote → WaitingCall ⊕ CallResult → Prop
  | waits {note : ReadNote} (waits : note.ending = none) : Agrees (some note) (.inl (.read note.link note.idle note.turn))
  | ended {note : ReadNote} {ending : ReadEnding} (ended : note.ending = some ending) :
      Agrees (some note) (.inr (.read ending.result))
  | other {call : WaitingCall ⊕ CallResult} (other : isRead call = false) : Agrees none call

namespace Rehearsal

variable {now : Nat} {busy : List Nat} {links : List Link}

def resumeOne (now : Nat) (call : WaitingCall ⊕ CallResult) (busy : List Nat) (links : List Link) :
    (WaitingCall ⊕ CallResult) × List Nat × List Link :=
  match call with
  | .inr result => (Sum.inr result, busy, links)
  | .inl .dial => (.inl .dial, busy, links)
  | .inl (.untilClosed link) =>
      if isClosed links link then (.inr .closed, busy, links)
      else (.inl (.untilClosed link), busy, links)
  | .inl (.read link idle turn) =>
      if link ∈ busy ∧ !isClosed links link then (.inl (.read link idle turn), busy, links)
      else
        match resumeRead now links link idle turn with
        | (.inr result, links) => (.inr result, busy, links)
        | (.inl waiting, links) => (.inl waiting, link :: busy, links)

theorem resumeAll_cons (call : WaitingCall ⊕ CallResult) (rest : List (WaitingCall ⊕ CallResult)) :
    resumeAll now (call :: rest) busy links =
      let one := resumeOne now call busy links
      let others := resumeAll now rest one.2.1 one.2.2
      (one.1 :: others.1, others.2) :=
  rfl

theorem resumeOne_other {call : WaitingCall ⊕ CallResult} (other : isRead call = false) :
    (resumeOne now call busy links).2 = (busy, links) ∧ isRead (resumeOne now call busy links).1 = false := by
  unfold resumeOne
  split
  · exact ⟨rfl, other⟩
  · exact ⟨rfl, rfl⟩
  · split
    · exact ⟨rfl, rfl⟩
    · exact ⟨rfl, rfl⟩
  · cases other

variable {link : Nat} {connection : Link}

theorem isClosed_of_links (here : links[link]? = some connection) : isClosed links link = connection.isClosed := by
  rw [isClosed, here]
  rfl

section

variable {idle : Duration} {turn : Option Nat} {result : ReadResult} {rest : Link}

theorem resumeOne_behind (behind : link ∈ busy ∧ !isClosed links link) :
    resumeOne now (.inl (.read link idle turn)) busy links = (.inl (.read link idle turn), busy, links) :=
  if_pos behind

theorem resumeOne_found (ahead : ¬(link ∈ busy ∧ !isClosed links link))
    (found : (links[link]?).bind Link.read? = some (result, rest)) :
    resumeOne now (.inl (.read link idle turn)) busy links = (.inr (.read result), busy, links.set link rest) := by
  rw [resumeOne, if_neg ahead, resumeRead, found]

theorem resumeOne_late (ahead : ¬(link ∈ busy ∧ !isClosed links link)) (nothing : (links[link]?).bind Link.read? = none)
    (late : idle.millis ≠ 0 ∧ expiry (turn.getD now) idle.millis ≤ now) :
    resumeOne now (.inl (.read link idle turn)) busy links = (.inr (.read (.error (.idleTimeout idle))), busy, links) := by
  rw [resumeOne, if_neg ahead, resumeRead, nothing]
  simp only [if_pos late]

theorem resumeOne_first (ahead : ¬(link ∈ busy ∧ !isClosed links link)) (nothing : (links[link]?).bind Link.read? = none)
    (early : ¬(idle.millis ≠ 0 ∧ expiry (turn.getD now) idle.millis ≤ now)) :
    resumeOne now (.inl (.read link idle turn)) busy links =
      (.inl (.read link idle (some (turn.getD now))), link :: busy, links) := by
  rw [resumeOne, if_neg ahead, resumeRead, nothing]
  simp only [if_neg early]

/-- A read waits behind another, finds something, has waited for too long, or is the first in line. -/
theorem resumeOne_cases (now : Nat) (busy : List Nat) (links : List Link) (link : Nat) (idle : Duration)
    (turn : Option Nat) :
    resumeOne now (.inl (.read link idle turn)) busy links = (.inl (.read link idle turn), busy, links) ∨
      (∃ result rest, resumeOne now (.inl (.read link idle turn)) busy links =
        (.inr (.read result), busy, links.set link rest)) ∨
      (∃ result, resumeOne now (.inl (.read link idle turn)) busy links = (.inr (.read result), busy, links)) ∨
      ∃ since, resumeOne now (.inl (.read link idle turn)) busy links =
        (.inl (.read link idle (some since)), link :: busy, links) := by
  by_cases behind : link ∈ busy ∧ !isClosed links link
  · exact .inl (resumeOne_behind behind)
  · cases look : (links[link]?).bind Link.read? with
    | some found => exact .inr (.inl ⟨found.1, found.2, resumeOne_found behind look⟩)
    | none =>
        by_cases late : idle.millis ≠ 0 ∧ expiry (turn.getD now) idle.millis ≤ now
        · exact .inr (.inr (.inl ⟨_, resumeOne_late behind look late⟩))
        · exact .inr (.inr (.inr ⟨_, resumeOne_first behind look late⟩))

end

theorem resumeOne_elsewhere {other : Nat} (elsewhere : other ≠ link) (idle : Duration) (turn : Option Nat) :
    let one := resumeOne now (.inl (.read other idle turn)) busy links
    one.2.2[link]? = links[link]? ∧ (link ∈ one.2.1 ↔ link ∈ busy) := by
  rcases resumeOne_cases now busy links other idle turn with behind | ⟨result, rest, found⟩ | ⟨result, late⟩ |
    ⟨since, first⟩
  · rw [behind]
    exact ⟨rfl, Iff.rfl⟩
  · rw [found]
    exact ⟨List.getElem?_set_ne elsewhere, Iff.rfl⟩
  · rw [late]
    exact ⟨rfl, Iff.rfl⟩
  · rw [first]
    exact ⟨rfl, by simp [Ne.symm elsewhere]⟩

theorem resumeOne_agrees {note : Option ReadNote} {call : WaitingCall ⊕ CallResult} (agrees : Agrees note call)
    (place : ReadNote → Option Nat) :
    Agrees (note.map fun note => note.look now (place note) (resumeOne now call busy links).1)
      (resumeOne now call busy links).1 := by
  cases agrees with
  | other other => exact .other (resumeOne_other other).2
  | ended ended =>
      rw [Option.map_some, ReadNote.look_ended ended]
      exact .ended ended
  | @waits note waits =>
      have seen (turn : Option Nat) : Agrees (some (note.look now (place note) (.inl (.read note.link note.idle turn))))
          (.inl (.read note.link note.idle turn)) := by
        rw [ReadNote.look_waiting waits]
        exact @Agrees.waits { note with turn } waits
      have read (result : ReadResult) : Agrees (some (note.look now (place note) (.inr (.read result))))
          (.inr (.read result)) := by
        rw [ReadNote.look_result waits]
        exact @Agrees.ended (note.ends now result (place note)) _ rfl
      rw [Option.map_some]
      rcases resumeOne_cases now busy links note.link note.idle note.turn with behind | ⟨result, rest, found⟩ |
        ⟨result, late⟩ | ⟨since, first⟩
      · rw [behind]
        exact seen note.turn
      · rw [found]
        exact read result
      · rw [late]
        exact read result
      · rw [first]
        exact seen (some since)

theorem resumeOne_here {note : ReadNote} (waits : note.ending = none) (here : links[note.link]? = some connection)
    (place : Option Nat) :
    let one := resumeOne now (.inl (.read note.link note.idle note.turn)) busy links
    let attended := attendOne now place (decide (note.link ∈ busy)) connection note
    note.look now place one.1 = attended.1 ∧ decide (note.link ∈ one.2.1) = attended.2.1 ∧
      one.2.2[note.link]? = some attended.2.2 := by
  have bound : note.link < links.length := (List.getElem?_eq_some_iff.mp here).1
  have closed := isClosed_of_links here
  by_cases behind : note.link ∈ busy ∧ !isClosed links note.link
  · have isOpen : connection.isClosed = false := by simpa [closed] using behind.2
    rw [resumeOne_behind behind, decide_eq_true behind.1, attendOne_behind isOpen]
    exact ⟨ReadNote.look_waiting waits .., decide_eq_true behind.1, here⟩
  · have free : decide (note.link ∈ busy) = true → connection.isClosed = true := by simpa [closed] using behind
    have same : (links[note.link]?).bind Link.read? = connection.read? := by rw [here, Option.bind_some]
    cases look : connection.read? with
    | some found =>
        rw [resumeOne_found behind (same.trans look), attendOne_found waits free look]
        exact ⟨ReadNote.look_result waits found.1, rfl, List.getElem?_set_self bound⟩
    | none =>
        by_cases late : note.idle.millis ≠ 0 ∧ expiry (note.turn.getD now) note.idle.millis ≤ now
        · rw [resumeOne_late behind (same.trans look) late, attendOne_late waits free look late]
          exact ⟨ReadNote.look_result waits _, rfl, here⟩
        · rw [resumeOne_first behind (same.trans look) late, attendOne_first waits free look late]
          exact ⟨ReadNote.look_waiting waits .., decide_eq_true (List.mem_cons_self ..), here⟩

theorem resumeAll_agrees {notes : List (Option ReadNote)} {calls : List (WaitingCall ⊕ CallResult)}
    (agrees : List.Forall₂ Agrees notes calls) (place : ReadNote → Option Nat) :
    List.Forall₂ Agrees
      (List.zipWith (fun note call => note.map fun note => note.look now (place note) call) notes
        (resumeAll now calls busy links).1)
      (resumeAll now calls busy links).1 := by
  induction agrees generalizing busy links with
  | nil => exact .nil
  | cons first rest ih =>
      rw [resumeAll_cons]
      exact .cons (resumeOne_agrees first place) ih

/-- What becomes of the reads of one connection depends on this connection and on them alone. -/
theorem resumeAll_attend {notes : List (Option ReadNote)} {calls : List (WaitingCall ⊕ CallResult)}
    (agrees : List.Forall₂ Agrees notes calls) (place : Nat → Option Nat) (here : links[link]? = some connection) :
    let resumed := resumeAll now calls busy links
    let attended := attend now (place link) (decide (link ∈ busy)) connection (readsOf link notes)
    readsOf link
        (List.zipWith (fun note call => note.map fun note => note.look now (place note.link) call) notes resumed.1) =
        attended.1 ∧
      resumed.2[link]? = some attended.2 := by
  induction agrees generalizing busy links connection with
  | nil => exact ⟨rfl, here⟩
  | @cons note call notes calls first _ ih =>
      rw [resumeAll_cons]
      dsimp only
      cases first with
      | other other =>
          rw [(resumeOne_other other).1]
          exact ih here
      | @ended note ending ended =>
          rw [List.zipWith_cons_cons, Option.map_some, ReadNote.look_ended ended]
          by_cases mine : note.link = link
          · rw [readsOf_here mine, readsOf_here mine, attend_cons, attendOne_ended (Option.isSome_of_eq_some ended)]
            obtain ⟨reads, links'⟩ := ih here
            exact ⟨congrArg (List.cons note) reads, links'⟩
          · rw [readsOf_elsewhere mine, readsOf_elsewhere mine]
            exact ih here
      | @waits note waits =>
          rw [List.zipWith_cons_cons, Option.map_some]
          by_cases mine : note.link = link
          · subst mine
            obtain ⟨seen, taken, left⟩ := resumeOne_here waits here (place note.link)
            obtain ⟨reads, links'⟩ := ih left
            rw [readsOf_here (ReadNote.look_link ..), readsOf_here rfl, attend_cons]
            dsimp only
            rw [seen, ← taken]
            exact ⟨congrArg (List.cons _) reads, links'⟩
          · obtain ⟨left, taken⟩ := resumeOne_elsewhere mine note.idle note.turn
            rw [readsOf_elsewhere (by rwa [ReadNote.look_link]), readsOf_elsewhere mine]
            obtain ⟨reads, links'⟩ := ih (left.trans here)
            rw [decide_eq_decide.mpr taken] at reads links'
            exact ⟨reads, links'⟩

end Rehearsal

end SequencedFeed
