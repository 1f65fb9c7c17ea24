import Mathlib.Data.List.Pairwise
import Mathlib.Data.List.Perm.Basic
import SequencedFeed.Proofs.Json.Records
set_option autoImplicit false

/-!
# Writing a record another way

The same record can be written in many ways: its members in another order, members of other names among them,
some left out, or all as a list. If its fields are independent of each other, none of this changes what it means.
-/

namespace SequencedFeed.Json

/-- What is known about the members of a record: their names in the declared order, the values that say as much
as leaving a member out, and how the value of a member may be written another way. -/
structure Format where
  names : List String
  omitted : String → Tree → Prop
  inner : String → Tree → Tree → Prop

/-- One step of writing a record another way. -/
inductive Format.Step (format : Format) : Tree → Tree → Prop
  | reorder {members others : List (Spelling × Tree)} (perm : members.Perm others) :
      Step format (.object members) (.object others)
  | unknown {members : List (Spelling × Tree)} {key : Spelling} {name : String} (value : Tree)
      (isName : key.text? = some name) (new : name ∉ format.names) :
      Step format (.object members) (.object ((key, value) :: members))
  | omitted {members : List (Spelling × Tree)} {key : Spelling} {name : String} {value : Tree}
      (isName : key.text? = some name) (omitted : format.omitted name value)
      (absent : ∀ member ∈ members, member.1.text? ≠ some name) :
      Step format (.object members) (.object ((key, value) :: members))
  | positional {members : List (Spelling × Tree)}
      (complete : members.map (fun member => member.1.text?) = format.names.map some) :
      Step format (.object members) (.list (members.map Prod.snd))
  | member {before after : List (Spelling × Tree)} {key : Spelling} {name : String} {value other : Tree}
      (isName : key.text? = some name) (step : format.inner name value other) :
      Step format (.object (before ++ (key, value) :: after)) (.object (before ++ (key, other) :: after))
  | item {before after : List Tree} {name : String} {value other : Tree}
      (isName : format.names[before.length]? = some name) (step : format.inner name value other) :
      Step format (.list (before ++ value :: after)) (.list (before ++ other :: after))

variable {σ ρ : Type}

def Entry.add (entry : Entry σ) (draft : σ) (tree : Tree) : Option σ :=
  if entry.field.isHeld draft then none else entry.fill draft tree

/-- Filling one of the fields does nothing to the other. -/
structure Entry.Apart (entry other : Entry σ) : Prop where
  keeps : ∀ {draft filled tree}, entry.fill draft tree = some filled →
    other.field.isHeld filled = other.field.isHeld draft
  kept : ∀ {draft filled tree}, other.fill draft tree = some filled →
    entry.field.isHeld filled = entry.field.isHeld draft
  commutes : ∀ draft tree second, (entry.fill draft tree).bind (other.fill · second) =
    (other.fill draft second).bind (entry.fill · tree)

instance : Std.Symm (@Entry.Apart σ) where
  symm _ _ apart := {
    keeps := apart.kept
    kept := apart.keeps
    commutes := fun draft tree second => (apart.commutes draft second tree).symm }

namespace Layout

def names (layout : Layout σ ρ) : List String :=
  layout.entries.map (·.field.name)

/-- Fields that are filled independently of each other, each at most once. -/
structure Independent (layout : Layout σ ρ) : Prop where
  distinct : layout.names.Nodup
  blank : ∀ entry ∈ layout.entries, entry.field.isHeld layout.shape.blank = false
  holds : ∀ entry ∈ layout.entries, ∀ {draft filled tree}, entry.fill draft tree = some filled →
    entry.field.isHeld filled = true
  pairs : layout.entries.Pairwise Entry.Apart

variable {layout : Layout σ ρ}

theorem mem_of_find {name : String} {entry : Entry σ} (found : layout.find? name = some entry) :
    entry ∈ layout.entries ∧ entry.field.name = name :=
  ⟨List.mem_of_find?_eq_some found, by simpa using List.find?_some found⟩

theorem Independent.find_mem (independent : layout.Independent) {entry : Entry σ} (member : entry ∈ layout.entries) :
    layout.find? entry.field.name = some entry := by
  have distinct := independent.distinct
  rw [names] at distinct
  rw [find?]
  generalize layout.entries = entries at member distinct
  induction entries with
  | nil => cases member
  | cons first others ih =>
      rw [List.map_cons, List.nodup_cons] at distinct
      rcases List.mem_cons.mp member with rfl | later
      · simp
      · have different : first.field.name ≠ entry.field.name := by
          intro same
          apply distinct.1
          rw [same]
          exact List.mem_map_of_mem later
        rw [List.find?_cons_of_neg (by simpa using different)]
        exact ih later distinct.2

theorem Independent.apart (independent : layout.Independent) {entry other : Entry σ} (member : entry ∈ layout.entries)
    (memberOther : other ∈ layout.entries) (different : entry.field.name ≠ other.field.name) : entry.Apart other := by
  apply independent.pairs.forall member memberOther
  rintro rfl
  exact different rfl

theorem find_none {name : String} (new : name ∉ layout.names) : layout.find? name = none := by
  rw [find?, List.find?_eq_none]
  intro entry member same
  apply new
  rw [← beq_iff_eq.mp same]
  exact List.mem_map_of_mem member

theorem addMember_known {draft : σ} {member : Spelling × Tree} {name : String} {entry : Entry σ}
    (isName : member.1.text? = some name) (found : layout.find? name = some entry) :
    layout.addMember draft member = entry.add draft member.2 := by
  simp [addMember, isName, found, Entry.add]

theorem addMember_unknown {draft : σ} {member : Spelling × Tree} {name : String}
    (isName : member.1.text? = some name) (new : layout.find? name = none) :
    layout.addMember draft member = some draft := by
  simp [addMember, isName, new]

theorem addMember_cases (layout : Layout σ ρ) (member : Spelling × Tree) :
    (∀ draft, layout.addMember draft member = none) ∨ (∀ draft, layout.addMember draft member = some draft) ∨
      ∃ entry ∈ layout.entries, ∀ draft, layout.addMember draft member = entry.add draft member.2 := by
  cases isName : member.1.text? with
  | none => exact .inl fun draft => by simp [addMember, isName]
  | some name =>
      cases found : layout.find? name with
      | none => exact .inr (.inl fun draft => addMember_unknown isName found)
      | some entry =>
          exact .inr (.inr ⟨entry, (mem_of_find found).1, fun draft => addMember_known isName found⟩)

section

variable (independent : layout.Independent) {entry other : Entry σ} (member : entry ∈ layout.entries)
  (memberOther : other ∈ layout.entries) (draft : σ) (tree second : Tree)
include independent member

theorem Independent.add_twice : (entry.add draft tree).bind (entry.add · second) = none := by
  rw [Option.bind_eq_none_iff]
  intro filled added
  rw [Entry.add] at added
  split_ifs at added
  rw [Entry.add, if_pos (independent.holds entry member added)]

include memberOther

theorem Independent.add_held (different : entry.field.name ≠ other.field.name)
    (held : entry.field.isHeld draft = true) : (other.add draft second).bind (entry.add · tree) = none := by
  rw [Option.bind_eq_none_iff]
  intro filled added
  rw [Entry.add] at added
  split_ifs at added
  rw [Entry.add, (independent.apart memberOther member (Ne.symm different)).keeps added, if_pos held]

theorem Independent.add_free (different : entry.field.name ≠ other.field.name)
    (free : entry.field.isHeld draft = false) (freeOther : other.field.isHeld draft = false) :
    (entry.add draft tree).bind (other.add · second) = (entry.fill draft tree).bind (other.fill · second) := by
  rw [Entry.add, if_neg (Bool.eq_false_iff.mp free)]
  apply Option.bind_congr
  intro filled fills
  have kept := (independent.apart member memberOther different).keeps fills
  rw [Entry.add, kept, if_neg (Bool.eq_false_iff.mp freeOther)]

theorem Independent.add_comm :
    (entry.add draft tree).bind (other.add · second) = (other.add draft second).bind (entry.add · tree) := by
  by_cases same : entry.field.name = other.field.name
  · have found := independent.find_mem member
    rw [same, independent.find_mem memberOther] at found
    obtain rfl := Option.some.inj found
    rw [independent.add_twice memberOther, independent.add_twice memberOther]
  cases held : entry.field.isHeld draft with
  | true =>
      have first : entry.add draft tree = none := by rw [Entry.add, if_pos held]
      rw [first, independent.add_held member memberOther draft tree second same held]
      rfl
  | false =>
      cases heldOther : other.field.isHeld draft with
      | true =>
          have first : other.add draft second = none := by rw [Entry.add, if_pos heldOther]
          rw [first, independent.add_held memberOther member draft second tree (Ne.symm same) heldOther]
          rfl
      | false =>
          rw [independent.add_free member memberOther draft tree second same held heldOther,
            independent.add_free memberOther member draft second tree (Ne.symm same) heldOther held]
          exact (independent.apart member memberOther same).commutes draft tree second

end

theorem Independent.addMember_comm (independent : layout.Independent) (draft : σ) (first second : Spelling × Tree) :
    (layout.addMember draft first).bind (layout.addMember · second) =
      (layout.addMember draft second).bind (layout.addMember · first) := by
  have last (found : Option σ) : (found.bind fun _ => (none : Option σ)) = none := by
    cases found <;> rfl
  rcases layout.addMember_cases first with fails | ignores | ⟨entry, member, adds⟩
  · simp only [fails, Option.bind_none, last]
  · simp only [ignores, Option.bind_some, Option.bind_fun_some]
  · rcases layout.addMember_cases second with fails | ignores | ⟨other, memberOther, addsOther⟩
    · simp only [fails, Option.bind_none, last]
    · simp only [ignores, Option.bind_some, Option.bind_fun_some]
    · simp only [adds, addsOther]
      exact independent.add_comm member memberOther draft first.2 second.2

theorem Independent.foldlM_perm (independent : layout.Independent) {members others : List (Spelling × Tree)}
    (perm : members.Perm others) (draft : σ) :
    members.foldlM layout.addMember draft = others.foldlM layout.addMember draft := by
  induction perm generalizing draft with
  | nil => rfl
  | cons member _ ih =>
      simp only [List.foldlM_cons]
      apply Option.bind_congr
      intro filled _
      exact ih filled
  | swap first second members =>
      simp only [List.foldlM_cons]
      have swapped := congrArg (Option.bind · (members.foldlM layout.addMember))
        (independent.addMember_comm draft second first)
      simpa only [Option.bind_assoc, Option.bind_eq_bind] using swapped
  | trans _ _ ih ihOther => exact (ih draft).trans (ihOther draft)

theorem Independent.isHeld_of_foldlM (independent : layout.Independent) {entry : Entry σ}
    (member : entry ∈ layout.entries) {members : List (Spelling × Tree)}
    (absent : ∀ member ∈ members, member.1.text? ≠ some entry.field.name) {draft final : σ}
    (folds : members.foldlM layout.addMember draft = some final) :
    entry.field.isHeld final = entry.field.isHeld draft := by
  induction members generalizing draft with
  | nil => rw [Option.some.inj folds]
  | cons first members ih =>
      rw [List.foldlM_cons] at folds
      obtain ⟨filled, adds, folds⟩ := Option.bind_eq_some_iff.mp folds
      rw [ih (fun member isMember => absent member (List.mem_cons_of_mem first isMember)) folds]
      cases isName : first.1.text? with
      | none => simp [addMember, isName] at adds
      | some name =>
          cases found : layout.find? name with
          | none =>
              rw [addMember_unknown isName found] at adds
              rw [Option.some.inj adds]
          | some other =>
              obtain ⟨memberOther, named⟩ := mem_of_find found
              rw [addMember_known isName found, Entry.add] at adds
              split_ifs at adds
              refine (independent.apart memberOther member ?_).keeps adds
              intro same
              apply absent first List.mem_cons_self
              rw [isName, ← named, same]

/-- Values that stand for leaving a member out. -/
def Omits (layout : Layout σ ρ) (omitted : String → Tree → Prop) : Prop :=
  ∀ name value, omitted name value → ∃ entry, layout.find? name = some entry ∧
    ∀ draft, entry.field.isHeld draft = false →
      ∃ filled, entry.fill draft value = some filled ∧ layout.finish? filled = layout.finish? draft

/-- Ways of writing a value that no field tells apart. -/
def Agrees (layout : Layout σ ρ) (inner : String → Tree → Tree → Prop) : Prop :=
  ∀ name value other, inner name value other → ∀ entry ∈ layout.entries, entry.field.name = name →
    ∀ draft, entry.fill draft value = entry.fill draft other

theorem Independent.fillFrom_eq (independent : layout.Independent) {entries : List (Entry σ)}
    (part : ∀ entry ∈ entries, entry ∈ layout.entries) (distinct : (entries.map (·.field.name)).Nodup)
    {members : List (Spelling × Tree)}
    (complete : members.map (fun member => member.1.text?) = entries.map (fun entry => some entry.field.name))
    {draft : σ} (unheld : ∀ entry ∈ entries, entry.field.isHeld draft = false) :
    members.foldlM layout.addMember draft = fillFrom entries (members.map Prod.snd) draft := by
  induction entries generalizing members draft with
  | nil =>
      rw [List.map_nil, List.map_eq_nil_iff] at complete
      rw [complete]
      rfl
  | cons entry entries ih =>
      cases members with
      | nil => cases complete
      | cons member members =>
          rw [List.map_cons, List.map_cons, List.cons.injEq] at complete
          rw [List.map_cons, List.nodup_cons] at distinct
          have isEntry := part entry List.mem_cons_self
          have free := unheld entry List.mem_cons_self
          rw [List.foldlM_cons, List.map_cons, fillFrom,
            addMember_known complete.1 (independent.find_mem isEntry), Entry.add, if_neg (Bool.eq_false_iff.mp free)]
          apply Option.bind_congr
          intro filled fills
          apply ih (fun other later => part other (List.mem_cons_of_mem entry later)) distinct.2 complete.2
          intro other later
          have different : entry.field.name ≠ other.field.name := by
            intro same
            apply distinct.1
            rw [same]
            exact List.mem_map_of_mem later
          rw [(independent.apart isEntry (part other (List.mem_cons_of_mem entry later)) different).keeps fills]
          exact unheld other (List.mem_cons_of_mem entry later)

theorem fillFrom_item {entries : List (Entry σ)} {before after : List Tree} {value other : Tree} {entry : Entry σ}
    (isEntry : entries[before.length]? = some entry) (same : ∀ draft, entry.fill draft value = entry.fill draft other)
    (draft : σ) : fillFrom entries (before ++ value :: after) draft = fillFrom entries (before ++ other :: after) draft := by
  induction before generalizing entries draft with
  | nil =>
      cases entries with
      | nil => cases isEntry
      | cons first entries =>
          obtain rfl : first = entry := Option.some.inj isEntry
          rw [List.nil_append, List.nil_append, fillFrom, fillFrom, same]
  | cons item before ih =>
      cases entries with
      | nil => cases isEntry
      | cons first entries =>
          rw [List.cons_append, List.cons_append, fillFrom, fillFrom]
          apply Option.bind_congr
          intro filled _
          exact ih isEntry filled

/-- A step changes nothing of what the record means. -/
theorem Independent.inside_eq (independent : layout.Independent) {format : Format} (names : format.names = layout.names)
    (omits : layout.Omits format.omitted) (agrees : layout.Agrees format.inner) {tree other : Tree}
    (step : format.Step tree other) : layout.inside? tree = layout.inside? other := by
  cases step with
  | reorder perm => rw [inside?, inside?, independent.foldlM_perm perm]
  | unknown value isName new =>
      rw [names] at new
      rw [inside?, inside?, List.foldlM_cons, addMember_unknown isName (find_none new)]
      rfl
  | @omitted members key name value isName omitted absent =>
      obtain ⟨entry, found, fills⟩ := omits name value omitted
      obtain ⟨isEntry, rfl⟩ := mem_of_find found
      have last : (members ++ [(key, value)]).Perm ((key, value) :: members) := List.perm_append_singleton _ _
      rw [inside?, inside?, ← independent.foldlM_perm last, List.foldlM_append]
      rw [Option.bind_eq_bind, Option.bind_assoc]
      apply Option.bind_congr
      intro final folds
      have free := (independent.isHeld_of_foldlM isEntry absent folds).trans (independent.blank entry isEntry)
      obtain ⟨filled, fill, finish⟩ := fills final free
      rw [List.foldlM_cons, addMember_known isName found, Entry.add, if_neg (Bool.eq_false_iff.mp free), fill]
      exact finish.symm
  | positional complete =>
      rw [names, Layout.names, List.map_map] at complete
      rw [inside?, inside?, independent.fillFrom_eq (fun _ => id) independent.distinct complete independent.blank]
  | @member before after key name value other isName step =>
      have same (draft : σ) : layout.addMember draft (key, value) = layout.addMember draft (key, other) := by
        cases found : layout.find? name with
        | none => rw [addMember_unknown isName found, addMember_unknown isName found]
        | some entry =>
            obtain ⟨isEntry, named⟩ := mem_of_find found
            rw [addMember_known isName found, addMember_known isName found, Entry.add, Entry.add,
              agrees name value other step entry isEntry named]
      simp only [inside?, List.foldlM_append, List.foldlM_cons, same]
  | @item before after name value other isName step =>
      rw [names, Layout.names, List.getElem?_map, Option.map_eq_some_iff] at isName
      obtain ⟨entry, isEntry, named⟩ := isName
      have member := List.mem_of_getElem? isEntry
      rw [inside?, inside?, fillFrom_item isEntry (agrees name value other step entry member named)]

end Layout

end SequencedFeed.Json
