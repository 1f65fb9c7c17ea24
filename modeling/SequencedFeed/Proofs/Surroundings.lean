import SequencedFeed.Scenario
set_option autoImplicit false

/-!
# The surroundings of clients

What the connections, the dial scripts and the channel of a stage show to a proof, and how each operation
on a stage changes that. What happens outside of clients (`Stage.Grows`) closes no connection, takes no
item, and only adds to what was sent.
-/

namespace SequencedFeed

namespace Stage

variable {stage later : Stage} {link other : Nat}

/-! ### Views of connections -/

def closesOf (stage : Stage) (link : Nat) : Nat :=
  (stage.links[link]?.map Link.closes).getD 0

def sentOn (stage : Stage) (link : Nat) : List ReadResult :=
  (stage.links[link]?.map Link.sent).getD []

def takenFrom (stage : Stage) (link : Nat) : Nat :=
  (stage.links[link]?.map Link.taken).getD 0

def hungUpOn (stage : Stage) (link : Nat) : Bool :=
  (stage.links[link]?.map Link.hungUp).getD false

private theorem view_changeLink {α : Type} (view : Link → α) (default : α) (stage : Stage)
    (link other : Nat) (change : Link → Link) :
    ((stage.changeLink link change).links[other]?.map view).getD default =
      if other = link then (stage.links[other]?.map fun held => view (change held)).getD default
      else (stage.links[other]?.map view).getD default := by
  simp only [changeLink, List.getElem?_modify]
  by_cases same : other = link
  · subst same
    cases stage.links[other]? <;> simp
  · cases stage.links[other]? <;> simp [same, Ne.symm same]

private theorem view_changeLink_kept {α : Type} (view : Link → α) (default : α) (stage : Stage)
    (link other : Nat) (change : Link → Link) (kept : ∀ held, view (change held) = view held) :
    ((stage.changeLink link change).links[other]?.map view).getD default =
      (stage.links[other]?.map view).getD default := by
  rw [view_changeLink]
  split
  · simp only [kept]
  · rfl

@[simp] theorem changeLink_length (change : Link → Link) :
    (stage.changeLink link change).links.length = stage.links.length :=
  List.length_modify ..

def names (stage : Stage) : List String :=
  stage.links.map Link.name

theorem length_of_names {other : Stage} (same : stage.names = other.names) :
    stage.links.length = other.links.length := by
  simpa only [names, List.length_map] using congrArg List.length same

theorem names_changeLink {change : Link → Link} (kept : ∀ held, (change held).name = held.name) :
    (stage.changeLink link change).names = stage.names := by
  apply List.ext_getElem?
  intro place
  simp only [names, changeLink, List.getElem?_map, List.getElem?_modify]
  by_cases same : link = place
  · cases stage.links[place]? <;> simp [same, kept]
  · cases stage.links[place]? <;> simp [same]

theorem closesOf_close (inside : link < stage.links.length) :
    (stage.changeLink link Link.close).closesOf other =
      stage.closesOf other + if other = link then 1 else 0 := by
  unfold closesOf
  rw [view_changeLink]
  by_cases same : other = link
  · subst same
    simp [List.getElem?_eq_getElem inside, Link.close]
  · simp [same]

@[simp] theorem sentOn_close : (stage.changeLink link Link.close).sentOn other = stage.sentOn other :=
  view_changeLink_kept Link.sent [] stage link other Link.close fun _ => rfl

@[simp] theorem takenFrom_close :
    (stage.changeLink link Link.close).takenFrom other = stage.takenFrom other :=
  view_changeLink_kept Link.taken 0 stage link other Link.close fun _ => rfl

end Stage

def Link.take (link : Link) : Link :=
  { link with taken := link.taken + 1 }

namespace Stage

variable {stage later : Stage} {link other : Nat}

@[simp] theorem closesOf_take : (stage.changeLink link Link.take).closesOf other = stage.closesOf other :=
  view_changeLink_kept Link.closes 0 stage link other Link.take fun _ => rfl

@[simp] theorem sentOn_take : (stage.changeLink link Link.take).sentOn other = stage.sentOn other :=
  view_changeLink_kept Link.sent [] stage link other Link.take fun _ => rfl

theorem takenFrom_take (inside : link < stage.links.length) :
    (stage.changeLink link Link.take).takenFrom other =
      stage.takenFrom other + if other = link then 1 else 0 := by
  unfold takenFrom
  rw [view_changeLink]
  by_cases same : other = link
  · subst same
    simp [List.getElem?_eq_getElem inside, Link.take]
  · simp [same]

/-! ### Reading -/

/-- What a read gives at once: the end of a closed connection, the next item, or the end of a
connection whose owner has gone. -/
inductive Reads (stage : Stage) (link : Nat) : ReadResult → Stage → Prop
  | closed (closed : 0 < stage.closesOf link) : Reads stage link (.error .closed) stage
  | item {item : ReadResult} (inside : link < stage.links.length) (isOpen : stage.closesOf link = 0)
      (next : (stage.sentOn link)[stage.takenFrom link]? = some item) :
      Reads stage link item (stage.changeLink link Link.take)
  | ended (isOpen : stage.closesOf link = 0)
      (nothing : (stage.sentOn link).length ≤ stage.takenFrom link) (gone : stage.hungUpOn link = true) :
      Reads stage link (.error .closed) stage

theorem Reads.closes {result : ReadResult} (reads : Reads stage link result later) (other : Nat) :
    later.closesOf other = stage.closesOf other := by
  cases reads with
  | closed closed => rfl
  | item inside isOpen next => exact closesOf_take
  | ended isOpen nothing gone => rfl

theorem Reads.links {result : ReadResult} (reads : Reads stage link result later) :
    ∃ links, later = { stage with links } := by
  cases reads with
  | closed closed => exact ⟨stage.links, rfl⟩
  | item inside isOpen next => exact ⟨_, rfl⟩
  | ended isOpen nothing gone => exact ⟨stage.links, rfl⟩

theorem Reads.sent {result : ReadResult} (reads : Reads stage link result later) (other : Nat) :
    later.sentOn other = stage.sentOn other := by
  cases reads with
  | closed closed => rfl
  | item inside isOpen next => exact sentOn_take
  | ended isOpen nothing gone => rfl

theorem Reads.taken {result : ReadResult} (reads : Reads stage link result later) {other : Nat}
    (different : other ≠ link) : later.takenFrom other = stage.takenFrom other := by
  cases reads with
  | closed closed => rfl
  | item inside isOpen next => rw [takenFrom_take inside, if_neg different, Nat.add_zero]
  | ended isOpen nothing gone => rfl

theorem Reads.scripts {result : ReadResult} (reads : Reads stage link result later) :
    later.scripts = stage.scripts := by
  obtain ⟨links, rfl⟩ := reads.links
  rfl

theorem set_eq_changeLink {held rest : Link} (change : Link → Link)
    (found : stage.links[link]? = some held) (changed : rest = change held) :
    { stage with links := stage.links.set link rest } = stage.changeLink link change := by
  have links : stage.links.set link rest = stage.links.modify link change := by
    apply List.ext_getElem?
    intro index
    rw [List.getElem?_modify, List.getElem?_set']
    by_cases same : link = index
    · subst same
      simp [found, changed]
    · simp [same]
  rw [changeLink, links]

private theorem set_eq_self {held : Link} (found : stage.links[link]? = some held) :
    { stage with links := stage.links.set link held } = stage := by
  obtain ⟨inside, rfl⟩ := List.getElem?_eq_some_iff.mp found
  rw [List.set_getElem_self inside]

theorem reads_of_readLink {result : ReadResult} (read : stage.readLink? link = some (result, later)) :
    Reads stage link result later := by
  cases found : stage.links[link]? with
  | none => simp [readLink?, found] at read
  | some held =>
      have closes : stage.closesOf link = held.closes := by simp [closesOf, found]
      have sent : stage.sentOn link = held.sent := by simp [sentOn, found]
      have taken : stage.takenFrom link = held.taken := by simp [takenFrom, found]
      have gone : stage.hungUpOn link = held.hungUp := by simp [hungUpOn, found]
      by_cases closed : 0 < held.closes
      · simp only [readLink?, found, Option.bind_some, Link.read?, Link.isClosed, closed, decide_true,
          if_true, set_eq_self found, Option.some.injEq, Prod.mk.injEq] at read
        obtain ⟨rfl, rfl⟩ := read
        exact .closed (closes ▸ closed)
      · have isOpen : stage.closesOf link = 0 := by omega
        simp only [readLink?, found, Option.bind_some, Link.read?, Link.isClosed, closed, decide_false,
          Bool.false_eq_true, if_false] at read
        cases next : held.sent[held.taken]? with
        | some item =>
            simp only [next, Option.some.injEq, Prod.mk.injEq] at read
            obtain ⟨rfl, rfl⟩ := read
            have inside := (List.getElem?_eq_some_iff.mp found).1
            have result : Reads stage link item (stage.changeLink link Link.take) :=
              .item inside isOpen (by rw [sent, taken]; exact next)
            exact set_eq_changeLink Link.take found rfl ▸ result
        | none =>
            cases hungUp : held.hungUp with
            | false => simp [next, hungUp] at read
            | true =>
                simp only [next, hungUp, if_true, set_eq_self found, Option.some.injEq, Prod.mk.injEq]
                  at read
                obtain ⟨rfl, rfl⟩ := read
                have nothing := List.getElem?_eq_none_iff.mp next
                exact .ended isOpen (by rw [sent, taken]; exact nothing) (gone.trans hungUp)

theorem sentOn_length_le (waits : stage.readLink? link = none) :
    (stage.sentOn link).length ≤ stage.takenFrom link := by
  cases found : stage.links[link]? with
  | none => simp [sentOn, found]
  | some held =>
      have sent : stage.sentOn link = held.sent := by simp [sentOn, found]
      have taken : stage.takenFrom link = held.taken := by simp [takenFrom, found]
      rw [sent, taken, ← List.getElem?_eq_none_iff]
      cases next : held.sent[held.taken]? with
      | none => rfl
      | some item =>
          simp only [readLink?, found, Option.bind_some, Link.read?, next] at waits
          cases closed : held.isClosed <;> simp [closed] at waits

/-! ### Dial scripts -/

/-- The connections that dials may still give. -/
def pending (stage : Stage) : List Nat :=
  stage.scripts.flatMap fun entry => entry.2.outcomes.filterMap Outcome.link?

private def pendingIn (scripts : List (String × DialScript)) : List Nat :=
  scripts.flatMap fun entry => entry.2.outcomes.filterMap Outcome.link?

private theorem next_outcomes (script : DialScript) :
    script.next.1.link?.toList ++ script.next.2.outcomes.filterMap Outcome.link? =
      script.outcomes.filterMap Outcome.link? := by
  obtain ⟨outcomes, beyond⟩ := script
  cases outcomes with
  | nil => cases beyond <;> rfl
  | cons outcome rest =>
      cases given : outcome.link? <;> simp [DialScript.next, given]

private theorem setScript_pending (url : String) (scripts : List (String × DialScript)) :
    let script := (scripts.lookup url).getD DialScript.empty
    (script.next.1.link?.toList ++ pendingIn (setScript url script.next.2 scripts)).Perm
      (pendingIn scripts) := by
  induction scripts with
  | nil => exact .refl _
  | cons entry rest ih =>
      obtain ⟨other, script⟩ := entry
      by_cases same : url = other
      · subst same
        simp only [List.lookup_cons_self, Option.getD_some, setScript, if_true, pendingIn,
          List.flatMap_cons]
        rw [← List.append_assoc, next_outcomes]
      · have missed : (url == other) = false := beq_eq_false_iff_ne.mpr same
        simp only [List.lookup_cons, missed, setScript, if_neg same, pendingIn, List.flatMap_cons]
          at ih ⊢
        exact (List.perm_append_comm_assoc ..).trans (ih.append_left _)

theorem nextOutcome_pending {url : String} {outcome : Outcome}
    (next : stage.nextOutcome url = (outcome, later)) :
    (outcome.link?.toList ++ later.pending).Perm stage.pending := by
  have result : (stage.nextOutcome url).1 = outcome ∧ (stage.nextOutcome url).2 = later := by
    rw [next]
    exact ⟨rfl, rfl⟩
  obtain ⟨rfl, rfl⟩ := result
  exact setScript_pending url stage.scripts

end Stage

/-! ### Connections by name -/

namespace Link

theorem lastNamed_eq {links others : List Link} (same : links.map Link.name = others.map Link.name) (name : String) :
    lastNamed? links name = lastNamed? others name := by
  have length : links.length = others.length := by
    simpa only [List.length_map] using congrArg List.length same
  unfold lastNamed?
  simp only [← List.getElem?_map, same, length]

private theorem find?_reverse_range (count : Nat) (p : Nat → Bool) (number : Nat) :
    (List.range count).reverse.find? p = some number ↔
      number < count ∧ p number = true ∧ ∀ later, number < later → later < count → p later = false := by
  induction count with
  | zero => simp
  | succ count ih =>
      rw [List.range_succ, List.reverse_append, List.reverse_singleton, List.singleton_append, List.find?_cons]
      cases last : p count with
      | true =>
          constructor
          · rintro ⟨⟩
            exact ⟨Nat.lt_succ_self _, last, fun later above below => absurd below (Nat.not_lt_of_le above)⟩
          · rintro ⟨inside, -, none⟩
            rcases Nat.lt_succ_iff_lt_or_eq.mp inside with below | rfl
            · exact absurd ((none count below (Nat.lt_succ_self _)).symm.trans last) Bool.false_ne_true
            · rfl
      | false =>
          rw [ih]
          constructor
          · rintro ⟨inside, holds, none⟩
            refine ⟨Nat.lt_succ_of_lt inside, holds, fun later above below => ?_⟩
            rcases Nat.lt_succ_iff_lt_or_eq.mp below with below | rfl
            · exact none later above below
            · exact last
          · rintro ⟨inside, holds, none⟩
            rcases Nat.lt_succ_iff_lt_or_eq.mp inside with below | rfl
            · exact ⟨below, holds, fun later above under => none later above (Nat.lt_succ_of_lt under)⟩
            · exact absurd (last.symm.trans holds) Bool.false_ne_true

theorem lastNamed_eq_some {links : List Link} {name : String} {number : Nat} :
    lastNamed? links name = some number ↔
      links[number]?.map Link.name = some name ∧ ∀ later, number < later → links[later]?.map Link.name ≠ some name := by
  rw [lastNamed?, find?_reverse_range]
  simp only [beq_iff_eq, beq_eq_false_iff_ne]
  constructor
  · rintro ⟨inside, named, none⟩
    refine ⟨named, fun later above => ?_⟩
    by_cases below : later < links.length
    · exact none later above below
    · simp [List.getElem?_eq_none (Nat.le_of_not_lt below)]
  · rintro ⟨named, none⟩
    refine ⟨?_, named, fun later above _ => none later above⟩
    obtain ⟨link, found, -⟩ := Option.map_eq_some_iff.mp named
    exact (List.getElem?_eq_some_iff.mp found).1

theorem lastNamed_eq_none {links : List Link} {name : String} :
    lastNamed? links name = none ↔ ∀ number : Nat, links[number]?.map Link.name ≠ some name := by
  rw [lastNamed?, List.find?_eq_none]
  simp only [List.mem_reverse, List.mem_range, beq_iff_eq]
  refine forall_congr' fun number => ⟨fun none named => ?_, fun none _ => none⟩
  obtain ⟨link, found, -⟩ := Option.map_eq_some_iff.mp named
  exact none (List.getElem?_eq_some_iff.mp found).1 named

end Link

/-! ### What happens outside of clients -/

/-- A change of a connection by its owner: items may be added, and nothing else of what a client sees
changes. -/
structure Link.OnlySends (change : Link → Link) : Prop where
  name : ∀ link, (change link).name = link.name
  closes : ∀ link, (change link).closes = link.closes
  taken : ∀ link, (change link).taken = link.taken
  sent : ∀ link, link.sent <+: (change link).sent

namespace Link

theorem push_onlySends (item : ReadResult) : OnlySends (push item) where
  name link := by unfold push; split <;> rfl
  closes link := by unfold push; split <;> rfl
  taken link := by unfold push; split <;> rfl
  sent link := by
    unfold push
    split
    · exact List.prefix_rfl
    · exact List.prefix_append ..

theorem hangUp_onlySends : OnlySends hangUp where
  name _ := rfl
  closes _ := rfl
  taken _ := rfl
  sent _ := List.prefix_rfl

theorem repeat_onlySends {change : Link → Link} (once : OnlySends change) (times : Nat) :
    OnlySends (Nat.repeat change times) := by
  induction times with
  | zero => exact ⟨fun _ => rfl, fun _ => rfl, fun _ => rfl, fun _ => List.prefix_rfl⟩
  | succ times ih =>
      exact
        { name := fun link => (once.name _).trans (ih.name link)
          closes := fun link => (once.closes _).trans (ih.closes link)
          taken := fun link => (once.taken _).trans (ih.taken link)
          sent := fun link => (ih.sent link).trans (once.sent _) }

end Link

namespace Stage

/-- What may happen to a stage outside of its clients. The clock may stand at any instant afterwards, so
that nothing proved of such changes rests on time. -/
inductive Changes (stage : Stage) : Stage → Prop
  | push (name : String) (item : ReadResult) (times : Nat) : Changes stage (stage.push name item times)
  | hangUp (name : String) : Changes stage (stage.hangUp name)
  | receive (most : Option Nat) : Changes stage (stage.receive most).2
  | closeReceiver : Changes stage stage.closeReceiver
  | time (instant : Nat) : Changes stage { stage with now := instant }

/-- Nothing was closed or taken, more may have been sent, and the dials to come are the same. -/
structure Grows (earlier later : Stage) : Prop where
  names : later.names = earlier.names
  closes : ∀ link, later.closesOf link = earlier.closesOf link
  taken : ∀ link, later.takenFrom link = earlier.takenFrom link
  sent : ∀ link, earlier.sentOn link <+: later.sentOn link
  scripts : later.scripts = earlier.scripts
  token : later.tokenCancelled = earlier.tokenCancelled

variable {stage later : Stage} {link other : Nat}

theorem Grows.of_links (links : later.links = stage.links) (scripts : later.scripts = stage.scripts)
    (token : later.tokenCancelled = stage.tokenCancelled) : Grows stage later where
  names := congrArg (List.map Link.name) links
  closes _ := by simp only [closesOf, links]
  taken _ := by simp only [takenFrom, links]
  sent _ := by simp only [sentOn, links, List.prefix_rfl]
  scripts := scripts
  token := token

theorem changeLink_grows {change : Link → Link} (sends : Link.OnlySends change) (link : Nat) :
    Grows stage (stage.changeLink link change) where
  names := names_changeLink sends.name
  closes other := view_changeLink_kept Link.closes 0 stage link other change sends.closes
  taken other := view_changeLink_kept Link.taken 0 stage link other change sends.taken
  sent other := by
    unfold sentOn
    rw [view_changeLink]
    split
    · cases stage.links[other]? with
      | none => exact List.prefix_rfl
      | some held => exact sends.sent held
    · exact List.prefix_rfl
  scripts := rfl
  token := rfl

theorem changeNamed_links (stage : Stage) (name : String) (change : Link → Link) :
    ∃ links, stage.changeNamed name change = { stage with links } := by
  unfold changeNamed
  split <;> exact ⟨_, rfl⟩

theorem changeNamed_now (stage : Stage) (name : String) (change : Link → Link) :
    (stage.changeNamed name change).now = stage.now := by
  obtain ⟨links, same⟩ := stage.changeNamed_links name change
  rw [same]

theorem receive_channel (stage : Stage) (most : Option Nat) :
    ∃ channel, (stage.receive most).2 = { stage with channel } := by
  unfold Stage.receive
  split <;> exact ⟨_, rfl⟩

theorem receive_now (stage : Stage) (most : Option Nat) : (stage.receive most).2.now = stage.now := by
  obtain ⟨channel, same⟩ := stage.receive_channel most
  rw [same]

theorem changeNamed_grows {change : Link → Link} (sends : Link.OnlySends change)
    (name : String) : Grows stage (stage.changeNamed name change) := by
  unfold changeNamed
  split
  · exact .of_links rfl rfl rfl
  · exact changeLink_grows sends _

theorem Changes.grows (changes : Changes stage later) : Grows stage later := by
  cases changes with
  | push name item times =>
      exact changeNamed_grows (Link.repeat_onlySends (Link.push_onlySends item) times) name
  | hangUp name => exact changeNamed_grows Link.hangUp_onlySends name
  | receive most =>
      obtain ⟨channel, same⟩ := receive_channel stage most
      rw [same]
      exact .of_links rfl rfl rfl
  | closeReceiver => exact .of_links rfl rfl rfl
  | time instant => exact .of_links rfl rfl rfl

/-- What happens outside of clients shows in nothing but the clock, the connections and the channel. -/
theorem Changes.elsewhere (changes : Changes stage later) :
    ∃ now links channel, later = { stage with now, links, channel } := by
  cases changes with
  | push name item times =>
      obtain ⟨links, same⟩ := stage.changeNamed_links name (Nat.repeat (Link.push item) times)
      exact ⟨_, links, _, same⟩
  | hangUp name =>
      obtain ⟨links, same⟩ := stage.changeNamed_links name Link.hangUp
      exact ⟨_, links, _, same⟩
  | receive most =>
      obtain ⟨channel, same⟩ := stage.receive_channel most
      exact ⟨_, _, channel, same⟩
  | closeReceiver => exact ⟨_, _, _, rfl⟩
  | time instant => exact ⟨instant, _, _, rfl⟩

theorem Changes.asked (changes : Changes stage later) : later.stopAsked = stage.stopAsked := by
  obtain ⟨now, links, channel, rfl⟩ := changes.elsewhere
  rfl

theorem Changes.moves (changes : Changes stage later) : later.moves = stage.moves := by
  obtain ⟨now, links, channel, rfl⟩ := changes.elsewhere
  rfl

/-! ### Before anything has happened -/

/-- A stage on which nothing has happened yet: dials will go as planned, or every dial to an address
will be refused. -/
inductive Opening : Stage → Prop
  | planned (plans : List (String × List PlannedDial)) (capacity : Option Nat) :
      Opening (Stage.planned plans capacity)
  | refusing (url : String) (error : TransportError) (capacity : Option Nat) :
      Opening (Stage.refusing url error capacity)

theorem allOutcomes_links (link : Nat) (plans : List PlannedDial) :
    (PlannedDial.allOutcomes link plans).1.filterMap Outcome.link? =
      List.range' link (PlannedDial.allOutcomes link plans).2.length := by
  induction plans generalizing link with
  | nil => rfl
  | cons plan rest ih =>
      have first : (plan.outcomes link).1.filterMap Outcome.link? =
          List.range' link (plan.outcomes link).2.length := by
        cases ends : plan.ends <;> simp [PlannedDial.outcomes, ends, Outcome.link?]
      simp only [PlannedDial.allOutcomes, List.filterMap_append, List.length_append, first, ih,
        List.range'_append_1]

private theorem plannedScripts_links (link : Nat) (plans : List (String × List PlannedDial)) :
    pendingIn (plannedScripts link plans).1 =
      List.range' link (plannedScripts link plans).2.length := by
  induction plans generalizing link with
  | nil => rfl
  | cons entry rest ih =>
      obtain ⟨url, plan⟩ := entry
      have rest := ih (link + (PlannedDial.allOutcomes link plan).2.length)
      simp only [pendingIn] at rest
      simp only [plannedScripts, pendingIn, List.flatMap_cons, List.length_append, allOutcomes_links,
        rest, List.range'_append_1]

theorem Opening.pending_nodup (opening : Opening stage) : stage.pending.Nodup := by
  cases opening with
  | planned plans capacity =>
      change (pendingIn (plannedScripts 0 plans).1).Nodup
      rw [plannedScripts_links]
      exact List.nodup_range' ..
  | refusing url error capacity => exact List.nodup_nil

theorem Opening.pending_inside (opening : Opening stage) :
    ∀ link ∈ stage.pending, link < stage.links.length := by
  intro link member
  cases opening with
  | planned plans capacity =>
      change link ∈ pendingIn (plannedScripts 0 plans).1 at member
      change link < ((plannedScripts 0 plans).2.map Link.ofName).length
      rw [plannedScripts_links, List.mem_range'_1] at member
      rw [List.length_map]
      omega
  | refusing url error capacity => cases member

private theorem Opening.fresh (opening : Opening stage) :
    ∃ names : List String, stage.links = names.map Link.ofName := by
  cases opening with
  | planned plans capacity => exact ⟨_, rfl⟩
  | refusing url error capacity => exact ⟨_, rfl⟩

theorem Opening.closesOf (opening : Opening stage) (link : Nat) : stage.closesOf link = 0 := by
  obtain ⟨names, links⟩ := opening.fresh
  rw [Stage.closesOf, links, List.getElem?_map]
  cases names[link]? <;> rfl

theorem Opening.takenFrom (opening : Opening stage) (link : Nat) : stage.takenFrom link = 0 := by
  obtain ⟨names, links⟩ := opening.fresh
  rw [Stage.takenFrom, links, List.getElem?_map]
  cases names[link]? <;> rfl

end Stage

end SequencedFeed
