import SequencedFeed.Proofs.ReadersInLine
set_option autoImplicit false

/-!
# Rehearsals, step by step

Every step touches at most one connection, and what becomes of a connection and its reads is what `Touched` says
(`Sound.touches`). While time passes every read whose deadline comes leaves at that very instant (`Sound.sleeps`).
-/

namespace SequencedFeed

def RehearsalStep.touch (rehearsal : Rehearsal) (link : Nat) : RehearsalStep → Touch
  | .read number idle => if rehearsal.dialled? number = some link then .read idle else .nothing
  | .close number => if rehearsal.dialled? number = some link then .close else .nothing
  | .push name item => if Link.lastNamed? rehearsal.links name = some link then .push item else .nothing
  | .hangUp name => if Link.lastNamed? rehearsal.links name = some link then .hangUp else .nothing
  | .queue _ | .dial _ | .waitClosed _ | .sleep _ => .nothing

namespace Rehearsal

/-- Every number of a connection that is around belongs to a connection. -/
structure Linked (rehearsal : Rehearsal) : Prop where
  script : ∀ link, .connect link ∈ rehearsal.script → link < rehearsal.links.length
  dials : ∀ dial ∈ rehearsal.dials, ∀ link, dial.link = some link → link < rehearsal.links.length

theorem Linked.dialled {rehearsal : Rehearsal} (linked : rehearsal.Linked) {dial link : Nat}
    (here : rehearsal.dialled? dial = some link) : link < rehearsal.links.length := by
  obtain ⟨begun, found, connected⟩ := Option.bind_eq_some_iff.mp here
  exact linked.dials begun (List.mem_of_getElem? found) link connected

theorem dial_eq (rehearsal : Rehearsal) (url : String) : ∃ (script : List DialEnd) (begun : RehearsedDial)
    (call : WaitingCall ⊕ CallResult),
      rehearsal.dial url = { rehearsal with script, dials := rehearsal.dials ++ [begun] }.call call ∧
        (∀ outcome ∈ script, outcome ∈ rehearsal.script) ∧
        (∀ link, begun.link = some link → .connect link ∈ rehearsal.script) ∧ isRead call = false := by
  obtain ⟨now, script, links, dials, calls⟩ := rehearsal
  cases script with
  | nil => exact ⟨_, _, _, rfl, fun _ member => member, fun _ connected => (by cases connected), rfl⟩
  | cons outcome script =>
      have rest : ∀ other ∈ script, other ∈ outcome :: script := fun _ => List.mem_cons_of_mem outcome
      cases outcome with
      | connect link =>
          refine ⟨_, _, _, rfl, rest, fun other same => ?_, rfl⟩
          rw [← Option.some.inj same]
          exact List.mem_cons_self ..
      | fail error => exact ⟨_, _, _, rfl, rest, fun _ connected => (by cases connected), rfl⟩

theorem lastNamed_lt {links : List Link} {name : String} {link : Nat} (found : Link.lastNamed? links name = some link) :
    link < links.length := by
  have member := List.mem_of_find?_eq_some found
  rwa [List.mem_reverse, List.mem_range] at member

theorem length_resumeAll (now : Nat) (calls : List (WaitingCall ⊕ CallResult)) (busy : List Nat) (links : List Link) :
    (resumeAll now calls busy links).2.length = links.length := by
  induction calls generalizing busy links with
  | nil => rfl
  | cons call rest ih =>
      rw [resumeAll_cons]
      dsimp only
      rw [ih]
      cases call with
      | inr result => rfl
      | inl waiting =>
          cases waiting with
          | dial => rfl
          | untilClosed link => rw [(resumeOne_other rfl).1]
          | read link idle turn =>
              rcases resumeOne_cases now busy links link idle turn with here | ⟨result, rest, here⟩ | ⟨result, here⟩ |
                ⟨since, here⟩ <;> rw [here]
              exact List.length_set

end Rehearsal

namespace Watch

/-- A watch at rest: its notes are up to date, and the reads of every connection take turns. -/
structure Sound (watch : Watch) : Prop where
  linked : watch.rehearsal.Linked
  agrees : List.Forall₂ Agrees watch.notes watch.rehearsal.calls
  known : ∀ note, some note ∈ watch.notes → note.link < watch.rehearsal.links.length
  inTurn : ∀ link connection, watch.rehearsal.links[link]? = some connection →
    InTurn watch.rehearsal.now connection (watch.reads link)

theorem fresh_sound : fresh.Sound where
  linked := ⟨fun _ member => (by cases member), fun _ member => (by cases member)⟩
  agrees := .nil
  known _ member := by cases member
  inTurn _ _ here := by cases here

variable {watch : Watch} {begun : List (Option ReadNote)} {changed after : Rehearsal} {link : Nat}
  {connection later : Link} {reads : List ReadNote}

/-! ### Looking at all calls -/

theorem notes_see (watch : Watch) (begun : List (Option ReadNote)) (after : Rehearsal) :
    (watch.see begun after).notes = List.zipWith (fun note call => note.map fun note =>
      note.look after.now (takenPlace? watch.rehearsal.links after.links note.link) call) (watch.notes ++ begun)
      after.calls :=
  rfl

theorem see_settle (agrees : List.Forall₂ Agrees (watch.notes ++ begun) changed.calls)
    {before : Link} (old : watch.rehearsal.links[link]? = some before) (here : changed.links[link]? = some connection)
    (looked : attend changed.now (gone? before later) false connection (readsOf link (watch.notes ++ begun)) =
      (reads, later)) :
    (watch.see begun changed.settle).rehearsal.links[link]? = some later ∧
      (watch.see begun changed.settle).reads link = reads := by
  obtain ⟨seen, left⟩ := @Rehearsal.resumeAll_attend changed.now [] _ _ _ _ _ agrees
    (takenPlace? watch.rehearsal.links changed.settle.links) here
  have same (place : Option Nat) :
      (attend changed.now place false connection (readsOf link (watch.notes ++ begun))).2 = later :=
    (attend_snd ..).trans (congrArg Prod.snd looked)
  have left' : changed.settle.links[link]? = some later := left.trans (congrArg some (same _))
  have place : takenPlace? watch.rehearsal.links changed.settle.links link = gone? before later := by
    rw [takenPlace?, old, left']
    rfl
  refine ⟨left', ?_⟩
  rw [place] at seen
  exact seen.trans (congrArg Prod.fst looked)

theorem zipWith_look {notes : List (Option ReadNote)} {calls : List (WaitingCall ⊕ CallResult)}
    (agrees : List.Forall₂ Agrees notes calls) (now : Nat) (place : ReadNote → Option Nat)
    (more : List (WaitingCall ⊕ CallResult)) :
    List.zipWith (fun note call => note.map fun note => note.look now (place note) call)
      (notes ++ more.map fun _ => none) (calls ++ more) = notes ++ more.map fun _ => none := by
  induction agrees with
  | nil =>
      rw [List.nil_append, List.nil_append]
      induction more with
      | nil => rfl
      | cons call more ih => exact congrArg (List.cons none) ih
  | cons first _ ih =>
      refine congrArg₂ List.cons ?_ ih
      cases first with
      | waits waits => exact congrArg some (ReadNote.look_waiting waits ..)
      | ended ended => exact congrArg some (ReadNote.look_ended ended _)
      | other => rfl

theorem notes_see_still (agrees : List.Forall₂ Agrees watch.notes watch.rehearsal.calls)
    {more : List (WaitingCall ⊕ CallResult)} (same : after.calls = watch.rehearsal.calls ++ more) :
    (watch.see (more.map fun _ => none) after).notes = watch.notes ++ more.map fun _ => none := by
  rw [notes_see, same]
  exact zipWith_look agrees ..

theorem mem_notes_see {note : ReadNote} (member : some note ∈ (watch.see begun after).notes) :
    ∃ old, some old ∈ watch.notes ++ begun ∧ note.link = old.link := by
  rw [notes_see] at member
  obtain ⟨place, bound, here⟩ := List.mem_iff_getElem.mp member
  rw [List.getElem_zipWith, Option.map_eq_some_iff] at here
  obtain ⟨old, found, rfl⟩ := here
  exact ⟨old, found ▸ List.getElem_mem _, ReadNote.look_link ..⟩

/-- What a step does to the connections, apart from the passing of time. -/
structure Touches (watch : Watch) (touch : Nat → Touch) (seen : Watch) : Prop where
  sound : seen.Sound
  now : seen.rehearsal.now = watch.rehearsal.now
  touched : ∀ link connection, watch.rehearsal.links[link]? = some connection →
    ∃ later, seen.rehearsal.links[link]? = some later ∧
      Touched link watch.rehearsal.now connection (watch.reads link) (touch link) later (seen.reads link) ∧
      Extends (watch.reads link) (seen.reads link)

theorem Sound.still (sound : watch.Sound) (links : List Link) (calls : List (WaitingCall ⊕ CallResult))
    (linked : after.Linked) (now : after.now = watch.rehearsal.now)
    (more : after.links = watch.rehearsal.links ++ links) (fresh : ∀ link ∈ links, link.taken = 0)
    (same : after.calls = watch.rehearsal.calls ++ calls) (others : ∀ call ∈ calls, isRead call = false) :
    watch.Touches (fun _ => .nothing) (watch.see (calls.map fun _ => none) after) := by
  have notes : (watch.see (calls.map fun _ => none) after).notes = watch.notes ++ calls.map fun _ => none :=
    notes_see_still sound.agrees same
  have reads (link : Nat) : (watch.see (calls.map fun _ => none) after).reads link = watch.reads link := by
    rw [Watch.reads, notes, readsOf_append, readsOf_nones, List.append_nil]
    rfl
  have old {link : Nat} (bound : link < watch.rehearsal.links.length) :
      after.links[link]? = watch.rehearsal.links[link]? := by
    rw [more, List.getElem?_append_left bound]
  refine ⟨⟨linked, ?_, ?_, ?_⟩, now, fun link connection here => ?_⟩
  · rw [notes]
    change List.Forall₂ Agrees _ after.calls
    rw [same]
    exact List.rel_append sound.agrees
      (List.forall₂_map_left_iff.mpr (List.forall₂_same.mpr fun call member => .other (others call member)))
  · intro note member
    rw [notes] at member
    change note.link < after.links.length
    rw [more, List.length_append]
    rcases List.mem_append.mp member with old | new
    · exact Nat.lt_of_lt_of_le (sound.known note old) (Nat.le_add_right ..)
    · obtain ⟨_, _, absurd⟩ := List.mem_map.mp new
      cases absurd
  · intro link connection here
    rw [reads]
    change InTurn after.now connection _
    rw [now]
    by_cases bound : link < watch.rehearsal.links.length
    · exact sound.inTurn link connection ((old bound).symm.trans here)
    · have unread : watch.reads link = [] := by
        rw [List.eq_nil_iff_forall_not_mem]
        intro note member
        obtain ⟨known, rfl⟩ := mem_readsOf.mp member
        exact bound (sound.known note known)
      have untaken : connection.taken = 0 := by
        have here' : (watch.rehearsal.links ++ links)[link]? = some connection := more ▸ here
        rw [List.getElem?_append_right (Nat.le_of_not_lt bound)] at here'
        exact fresh connection (List.mem_of_getElem? here')
      rw [unread]
      exact .untouched untaken
  · refine ⟨connection, (old (List.getElem?_eq_some_iff.mp here).1).trans here, ?_⟩
    rw [reads]
    exact ⟨.untouched, .refl _⟩

theorem Sound.unmet (sound : watch.Sound) : watch.Touches (fun _ => .nothing) (watch.see [] watch.rehearsal) :=
  sound.still [] [] sound.linked rfl (List.append_nil _).symm (fun _ member => by cases member)
    (List.append_nil _).symm (fun _ member => by cases member)

/-- Every call has its look, whatever happened before. What the looks at one connection do is left open. -/
theorem Sound.looks (sound : watch.Sound) (begun : List (Option ReadNote)) (changed : Rehearsal)
    (does : Nat → Link → Link → List ReadNote → Prop) (linked : changed.Linked)
    (agrees : List.Forall₂ Agrees (watch.notes ++ begun) changed.calls)
    (length : changed.links.length = watch.rehearsal.links.length)
    (known : ∀ note, some note ∈ begun → note.link < watch.rehearsal.links.length)
    (looks : ∀ link connection, watch.rehearsal.links[link]? = some connection → ∃ touched later reads,
      changed.links[link]? = some touched ∧
        attend changed.now (gone? connection later) false touched (readsOf link (watch.notes ++ begun)) = (reads, later) ∧
        InTurn changed.now later reads ∧ does link connection later reads) :
    (watch.see begun changed.settle).Sound ∧ ∀ link connection, watch.rehearsal.links[link]? = some connection →
      ∃ later, (watch.see begun changed.settle).rehearsal.links[link]? = some later ∧
        does link connection later ((watch.see begun changed.settle).reads link) := by
  have size : changed.settle.links.length = watch.rehearsal.links.length :=
    (Rehearsal.length_resumeAll ..).trans length
  have each {link : Nat} {connection : Link} (here : watch.rehearsal.links[link]? = some connection) :
      ∃ later, (watch.see begun changed.settle).rehearsal.links[link]? = some later ∧
        InTurn changed.now later ((watch.see begun changed.settle).reads link) ∧
        does link connection later ((watch.see begun changed.settle).reads link) := by
    obtain ⟨touched, later, reads, here', looked, inTurn, done⟩ := looks link connection here
    obtain ⟨there, same⟩ := see_settle agrees here here' looked
    exact ⟨later, there, same ▸ inTurn, same ▸ done⟩
  refine ⟨⟨⟨?_, ?_⟩, Rehearsal.resumeAll_agrees agrees _, fun note member => ?_, fun link connection here => ?_⟩,
    fun link connection here => ?_⟩
  · exact fun link member => size.trans length.symm ▸ linked.script link member
  · exact fun dial member link here => size.trans length.symm ▸ linked.dials dial member link here
  · obtain ⟨old, member, same⟩ := mem_notes_see member
    change note.link < changed.settle.links.length
    rw [size, same]
    rcases List.mem_append.mp member with earlier | new
    · exact sound.known old earlier
    · exact known old new
  · have bound : link < watch.rehearsal.links.length := size ▸ (List.getElem?_eq_some_iff.mp here).1
    obtain ⟨later, there, inTurn, -⟩ := each (List.getElem?_eq_getElem bound)
    obtain rfl := Option.some.inj (there.symm.trans here)
    exact inTurn
  · obtain ⟨later, there, -, done⟩ := each here
    exact ⟨later, there, done⟩

theorem Sound.settles (sound : watch.Sound) (touch : Nat → Touch) (linked : changed.Linked)
    (agrees : List.Forall₂ Agrees (watch.notes ++ begun) changed.calls)
    (now : changed.now = watch.rehearsal.now) (length : changed.links.length = watch.rehearsal.links.length)
    (known : ∀ note, some note ∈ begun → note.link < watch.rehearsal.links.length)
    (touches : ∀ link connection, watch.rehearsal.links[link]? = some connection →
      changed.links[link]? = some ((touch link).change connection) ∧
        readsOf link begun = (touch link).begun link watch.rehearsal.now) :
    watch.Touches touch (watch.see begun changed.settle) := by
  obtain ⟨seen, touched⟩ := sound.looks begun changed (fun link connection later reads =>
    Touched link watch.rehearsal.now connection (watch.reads link) (touch link) later reads ∧
      Extends (watch.reads link) reads) linked agrees length known fun link connection here => by
    obtain ⟨here', begins⟩ := touches link connection here
    obtain ⟨later, reads, looked, inTurn, touched⟩ := (sound.inTurn link connection here).touch link (touch link)
    refine ⟨_, later, reads, here', ?_, now ▸ inTurn, touched⟩
    rw [now, readsOf_append, begins]
    exact looked
  exact ⟨seen, now, touched⟩

theorem Sound.changesLink (sound : watch.Sound) {target : Option Nat}
    (inside : ∀ link, target = some link → link < watch.rehearsal.links.length) {touch : Touch}
    (unread : ∀ link, touch.begun link watch.rehearsal.now = []) :
    watch.Touches (fun link => if target = some link then touch else .nothing)
      (watch.see [] (watch.rehearsal.withLink target fun link state => state.changeLink link touch.change)) := by
  cases target with
  | none => exact sound.unmet
  | some link =>
      have length : (watch.rehearsal.changeLink link touch.change).links.length = watch.rehearsal.links.length :=
        List.length_modify ..
      refine sound.settles _ ⟨?_, ?_⟩ ?_ rfl length (fun note member => by cases member) fun other connection there => ?_
      · exact fun link member => length ▸ sound.linked.script link member
      · exact fun dial member link connected => length ▸ sound.linked.dials dial member link connected
      · rw [List.append_nil]
        exact sound.agrees
      · by_cases same : link = other
        · subst same
          rw [if_pos rfl]
          refine ⟨?_, (unread link).symm⟩
          change (watch.rehearsal.links.modify link touch.change)[link]? = _
          rw [List.getElem?_modify_eq, there]
          rfl
        · rw [if_neg (fun equal => same (Option.some.inj equal))]
          refine ⟨?_, rfl⟩
          change (watch.rehearsal.links.modify link touch.change)[other]? = _
          rw [List.getElem?_modify_ne _ _ same, there]
          rfl

theorem Sound.calls (sound : watch.Sound) {call : WaitingCall ⊕ CallResult} {note : Option ReadNote} {touch : Nat → Touch}
    (agrees : Agrees note call) (known : ∀ read ∈ note, read.link < watch.rehearsal.links.length)
    (touches : ∀ link connection, (touch link).change connection = connection ∧
      readsOf link [note] = (touch link).begun link watch.rehearsal.now) :
    watch.Touches touch (watch.see [note] (watch.rehearsal.call call).settle) := by
  refine sound.settles touch ⟨sound.linked.script, sound.linked.dials⟩
    (List.rel_append sound.agrees (.cons agrees .nil)) rfl rfl (fun read member => ?_) fun link connection there => ?_
  · exact known read (List.mem_singleton.mp member).symm
  · obtain ⟨same, begins⟩ := touches link connection
    exact ⟨there.trans (congrArg some same.symm), begins⟩

theorem Sound.dials (sound : watch.Sound) (url : String) :
    watch.Touches (fun _ => .nothing) (watch.see [none] (watch.rehearsal.dial url)) := by
  obtain ⟨script, begun, call, dial, rest, connects, other⟩ := watch.rehearsal.dial_eq url
  rw [dial]
  refine sound.still [] [call] ⟨fun link member => sound.linked.script link (rest _ member), ?_⟩ rfl
    (List.append_nil _).symm (fun _ member => by cases member) rfl
    fun call' member => by rwa [List.mem_singleton.mp member]
  intro dial member link connected
  rcases List.mem_append.mp member with old | new
  · exact sound.linked.dials dial old link connected
  · obtain rfl := List.mem_singleton.mp new
    exact sound.linked.script link (connects link connected)

/-- An outcome that is put into the script is of no concern to the reads that wait. -/
theorem Sound.queues (sound : watch.Sound) (outcome : RehearsedOutcome) :
    watch.Touches (fun link => (RehearsalStep.queue outcome).touch watch.rehearsal link) (watch.apply (.queue outcome)) := by
  cases outcome with
  | connect name =>
      have linked : (watch.rehearsal.queue (.connect name)).Linked := by
        refine ⟨fun link member => ?_, fun dial member link connected => ?_⟩
        · change link < (watch.rehearsal.links ++ [Link.ofName name]).length
          rw [List.length_append]
          rcases List.mem_append.mp member with old | new
          · exact Nat.lt_succ_of_lt (sound.linked.script link old)
          · obtain rfl := DialEnd.connect.inj (List.mem_singleton.mp new)
            exact Nat.lt_succ_self _
        · change link < (watch.rehearsal.links ++ [Link.ofName name]).length
          rw [List.length_append]
          exact Nat.lt_succ_of_lt (sound.linked.dials dial member link connected)
      exact sound.still [.ofName name] [] linked rfl rfl
        (fun link member => by rw [List.mem_singleton.mp member]; rfl) (List.append_nil _).symm
        (fun _ member => by cases member)
  | fail error =>
      refine sound.still [] [] ⟨fun link member => ?_, sound.linked.dials⟩ rfl (List.append_nil _).symm
        (fun _ member => by cases member) (List.append_nil _).symm (fun _ member => by cases member)
      rcases List.mem_append.mp member with old | new
      · exact sound.linked.script link old
      · cases List.mem_singleton.mp new
  | failNext count =>
      refine sound.still [] [] ⟨fun link member => ?_, sound.linked.dials⟩ rfl (List.append_nil _).symm
        (fun _ member => by cases member) (List.append_nil _).symm (fun _ member => by cases member)
      rcases List.mem_append.mp member with old | new
      · exact sound.linked.script link old
      · cases List.eq_of_mem_replicate new

theorem Sound.touches (sound : watch.Sound) {step : RehearsalStep} (awake : ∀ millis, step ≠ .sleep millis) :
    watch.Touches (fun link => step.touch watch.rehearsal link) (watch.apply step) := by
  cases step with
  | sleep millis => exact absurd rfl (awake millis)
  | queue outcome => exact sound.queues outcome
  | dial url => exact sound.dials url
  | read number idle =>
      change watch.Touches (fun link => if watch.rehearsal.dialled? number = some link then .read idle else .nothing)
        (watch.see (((watch.rehearsal.dialled? number).map fun link => some (.begin link idle watch.rehearsal.now)).toList)
          (watch.rehearsal.withLink (watch.rehearsal.dialled? number) fun link state =>
            state.call (.inl (.read link idle none))))
      cases found : watch.rehearsal.dialled? number with
      | none => exact sound.unmet
      | some link =>
          refine sound.calls (@Agrees.waits (.begin link idle watch.rehearsal.now) rfl) (fun read member => ?_)
            fun other connection => ?_
          · obtain rfl := Option.some.inj member
            exact sound.linked.dialled found
          · by_cases same : link = other
            · subst same
              rw [if_pos rfl]
              exact ⟨rfl, readsOf_here rfl []⟩
            · rw [if_neg fun equal => same (Option.some.inj equal)]
              exact ⟨rfl, readsOf_elsewhere same []⟩
  | waitClosed name =>
      change watch.Touches (fun _ => .nothing)
        (watch.see (((Link.lastNamed? watch.rehearsal.links name).map fun _ => none).toList)
          (watch.rehearsal.withLink (Link.lastNamed? watch.rehearsal.links name) fun link state =>
            state.call (.inl (.untilClosed link))))
      cases Link.lastNamed? watch.rehearsal.links name with
      | none => exact sound.unmet
      | some link =>
          exact sound.calls (.other rfl) (fun read member => by cases member) fun other connection => ⟨rfl, rfl⟩
  | close number => exact sound.changesLink (fun _ => sound.linked.dialled) fun _ => rfl
  | push name item => exact sound.changesLink (fun _ => Rehearsal.lastNamed_lt) fun _ => rfl
  | hangUp name => exact sound.changesLink (fun _ => Rehearsal.lastNamed_lt) fun _ => rfl

/-! ### The passing of time -/

/-- The deadline of a read that waits. -/
def noteDue? (note : Option ReadNote) : Option Nat :=
  note.bind fun note => if note.ending.isSome then none else note.deadline?

theorem dues_eq {notes : List (Option ReadNote)} {calls : List (WaitingCall ⊕ CallResult)}
    (agrees : List.Forall₂ Agrees notes calls) : calls.map Rehearsal.callDue? = notes.map noteDue? := by
  induction agrees with
  | nil => rfl
  | @cons note call _ _ first _ ih =>
      refine congrArg₂ List.cons ?_ ih
      cases first with
      | @waits note waits =>
          rw [noteDue?, Option.bind_some, waits]
          change _ = note.deadline?
          rw [ReadNote.deadline?]
          cases note.turn <;> rfl
      | ended ended =>
          rw [noteDue?, Option.bind_some, ended]
          rfl
      | other other =>
          unfold Rehearsal.callDue?
          split
          · cases other
          · rfl

theorem due_eq (sound : watch.Sound) : timed.due? watch = earliest? (watch.notes.map noteDue?) :=
  congrArg earliest? (dues_eq sound.agrees)

theorem Sound.early (sound : watch.Sound) {instant : Nat} (early : ∀ due, timed.due? watch = some due → instant ≤ due)
    {note : ReadNote} (member : note ∈ watch.reads link) (waits : note.ending = none) {due : Nat}
    (deadline : note.deadline? = some due) : instant ≤ due := by
  have waiting : some due ∈ watch.notes.map noteDue? := by
    refine List.mem_map.mpr ⟨some note, (mem_readsOf.mp member).1, ?_⟩
    rw [noteDue?, Option.bind_some, waits]
    exact deadline
  obtain ⟨first, least, le⟩ := earliest?_le waiting
  exact Nat.le_trans (early first ((due_eq sound).trans least)) le

theorem Sound.ahead (sound : watch.Sound) {due : Nat} (waits : timed.due? watch = some due) : watch.rehearsal.now < due := by
  rw [due_eq sound] at waits
  obtain ⟨note, member, here⟩ := List.mem_map.mp (mem_of_earliest? waits)
  obtain ⟨note, rfl, deadline⟩ := Option.bind_eq_some_iff.mp here
  have bound := sound.known note member
  have mine : note ∈ watch.reads note.link := mem_readsOf.mpr ⟨member, rfl⟩
  have inTurn := sound.inTurn note.link _ (List.getElem?_eq_getElem bound)
  cases waits : note.ending with
  | none =>
      rw [waits] at deadline
      exact inTurn.early mine waits deadline
  | some ending =>
      rw [waits] at deadline
      cases deadline

theorem forall₂_later_trans {first second third : List ReadNote} (before : List.Forall₂ ReadNote.Later first second)
    (after : List.Forall₂ ReadNote.Later second third) : List.Forall₂ ReadNote.Later first third := by
  induction before generalizing third with
  | nil =>
      cases after
      exact .nil
  | cons one _ ih =>
      cases after with
      | cons other rest => exact .cons (one.trans other) (ih rest)

variable {later : Watch}

/-- What time does to the connections: nothing, and to the reads only that some of them end. -/
structure Passes (watch later : Watch) : Prop where
  sound : later.Sound
  kept : ∀ link connection, watch.rehearsal.links[link]? = some connection →
    later.rehearsal.links[link]? = some connection ∧ List.Forall₂ ReadNote.Later (watch.reads link) (later.reads link)

theorem Sound.wake (sound : watch.Sound) {instant : Nat} (passes : watch.rehearsal.now ≤ instant)
    (early : ∀ due, timed.due? watch = some due → instant ≤ due) : watch.Passes (timed.wake instant watch) := by
  have agrees : List.Forall₂ Agrees (watch.notes ++ []) watch.rehearsal.calls := by
    rw [List.append_nil]
    exact sound.agrees
  obtain ⟨seen, kept⟩ := sound.looks [] { watch.rehearsal with now := instant }
    (fun link connection later reads => later = connection ∧ List.Forall₂ ReadNote.Later (watch.reads link) reads)
    ⟨sound.linked.script, sound.linked.dials⟩ agrees rfl (fun note member => by cases member)
    fun link connection here => by
      obtain ⟨reads, looked, inTurn⟩ := (sound.inTurn link connection here).wake passes
        fun note member waits due deadline => sound.early early member waits deadline
      refine ⟨connection, connection, reads, here, ?_, inTurn, rfl, ?_⟩
      · rw [gone?_of_eq rfl, List.append_nil]
        exact looked
      · have later := attend_later instant none false connection (watch.reads link)
        rwa [looked] at later
  refine ⟨seen, fun link connection here => ?_⟩
  obtain ⟨later, there, rfl, reads⟩ := kept link connection here
  exact ⟨there, reads⟩

theorem Passes.trans {last : Watch} (first : watch.Passes later) (second : later.Passes last) : watch.Passes last := by
  refine ⟨second.sound, fun link connection here => ?_⟩
  obtain ⟨there, reads⟩ := first.kept link connection here
  obtain ⟨there', reads'⟩ := second.kept link connection there
  exact ⟨there', forall₂_later_trans reads reads'⟩

theorem Sound.sleeps (sound : watch.Sound) (millis : Nat) :
    watch.Passes (watch.apply (.sleep millis)) ∧
      (watch.apply (.sleep millis)).rehearsal.now = watch.rehearsal.now + millis := by
  have wakes (instant : Nat) (later : Watch) (passed : watch.Passes later) (passes : later.rehearsal.now ≤ instant)
      (early : ∀ due, timed.due? later = some due → instant ≤ due) :
      watch.Passes (timed.wake instant later) ∧ (timed.wake instant later).rehearsal.now = instant :=
    ⟨passed.trans (passed.sound.wake passes early), rfl⟩
  have start : watch.Passes watch :=
    ⟨sound, fun link connection here => ⟨here, List.forall₂_same.mpr fun note _ => .refl note⟩⟩
  exact Timed.pass_through timed (fun later => watch.Passes later) (fun later => later.rehearsal.now) wakes
    (fun later due passed => passed.sound.ahead) start (Nat.le_add_right ..)

theorem Sound.apply (sound : watch.Sound) (step : RehearsalStep) : (watch.apply step).Sound := by
  cases step with
  | sleep millis => exact (sound.sleeps millis).1.sound
  | _ => exact (sound.touches fun millis same => by cases same).sound

theorem Sound.play (sound : watch.Sound) (steps : List RehearsalStep) : (watch.play steps).Sound := by
  induction steps generalizing watch with
  | nil => exact sound
  | cons step rest ih => exact ih (sound.apply step)

end Watch

end SequencedFeed
