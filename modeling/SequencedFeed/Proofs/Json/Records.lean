import SequencedFeed.Json.Record
import SequencedFeed.Proofs.Json.Skipping
set_option autoImplicit false

/-!
# Records

A record is read off an object or off a list. The object's members may come in any order, and those that name no
field only have to be trees.
-/

namespace SequencedFeed.Json

variable {σ ρ : Type}

/-- A field with what storing a tree in it does to a draft. -/
structure Entry (σ : Type) where
  field : Field σ
  fill : σ → Tree → Option σ
  reads : ∀ draft, (field.store draft).Reads (fill draft)

/-- A shape with its fields in their declared order. -/
structure Layout (σ ρ : Type) where
  shape : Shape σ ρ
  entries : List (Entry σ)
  fields : shape.fields = entries.map Entry.field

namespace Layout

variable (layout : Layout σ ρ)

def find? (name : String) : Option (Entry σ) :=
  layout.entries.find? (·.field.name == name)

/-- One more member of an object: it fills a field that is not held yet, or names none. -/
def addMember (draft : σ) (member : Spelling × Tree) : Option σ := do
  let key ← member.1.text?
  match layout.find? key with
  | some entry => if entry.field.isHeld draft then none else entry.fill draft member.2
  | none => return draft

def fillFrom : List (Entry σ) → List Tree → σ → Option σ
  | [], [], draft => some draft
  | [], _ :: _, _ => none
  | entry :: entries, [], draft => if entry.field.required then none else fillFrom entries [] draft
  | entry :: entries, item :: items, draft => do
      let draft ← entry.fill draft item
      fillFrom entries items draft

def finish? (draft : σ) : Option ρ :=
  (layout.shape.finish draft).toOption

/-- What a record means whose brackets are inside the budget. -/
def inside? : Tree → Option ρ
  | .list items => (fillFrom layout.entries items layout.shape.blank).bind layout.finish?
  | .object members => (members.foldlM layout.addMember layout.shape.blank).bind layout.finish?
  | _ => none

end Layout

def Tree.record? (budget : Nat) (layout : Nat → Layout σ ρ) (tree : Tree) : Option ρ :=
  if budget ≤ 1 then none else (layout (budget - 1)).inside? tree

/-! ### The inside of a record -/

theorem ofReader_ok {α : Type} {reader : Reader α} {input : List UInt8} {found : α × List UInt8} :
    Inside.ofReader reader input = .ok found ↔ reader input = .ok found := by
  rw [Inside.ofReader]
  cases reader input <;> simp [Except.mapError]

namespace Layout

variable {layout : Layout σ ρ}

theorem find_field (name : String) :
    layout.shape.fields.find? (·.name == name) = (layout.find? name).map Entry.field := by
  rw [layout.fields, List.find?_map]
  rfl

/-- Members that lead to a draft, and where their tokens stand before any other token. -/
def MembersTo (layout : Layout σ ρ) (first : Bool) (draft final : σ) (input mid : List UInt8) : Prop :=
  ∃ members, members.foldlM layout.addMember draft = some final ∧ ∀ {token tokens rest},
    Spaced (token :: tokens) mid rest → Spaced (memberTokens first members ++ token :: tokens) input rest

theorem MembersTo.cons {first : Bool} {draft filled final : σ} {input start behindKey behindColon behind mid : List UInt8}
    {key : String} {tree : Tree} (next : nextKey first input = .ok (true, start))
    (token : stringToken start = .ok (key, behindKey)) (colons : colon behindKey = .ok ((), behindColon))
    (adds : ∀ spelling : Spelling, spelling.text? = some key → layout.addMember draft (spelling, tree) = some filled)
    (spaced : Spaced tree.tokens behindColon behind) (others : layout.MembersTo false filled final behind mid) :
    layout.MembersTo first draft final input mid := by
  obtain ⟨spelling, isText, spacedKey⟩ := key_sound next token colons
  obtain ⟨members, folds, spacedOthers⟩ := others
  refine ⟨(spelling, tree) :: members, ?_, fun closes => ?_⟩
  · rw [List.foldlM_cons, adds spelling isText]
    exact folds
  · have whole := spacedKey (spaced_append.mpr ⟨behind, spaced, spacedOthers closes⟩)
    simpa [memberTokens] using whole

theorem membersWithin_sound {bound input mid : List UInt8} {first : Bool} {draft final : σ}
    (long : input.length < bound.length)
    (read : layout.shape.membersWithin bound first draft input = .ok (final, mid)) :
    layout.MembersTo first draft final input mid := by
  induction bound generalizing first input draft with
  | nil => simp at long
  | cons one bound ih =>
      obtain ⟨⟨more, start⟩, nextRead, read⟩ := bind_ok.mp read
      have next := ofReader_ok.mp nextRead
      cases more with
      | false =>
          obtain rfl := nextKey_end next
          obtain ⟨rfl, rfl⟩ := Prod.mk.inj (Except.ok.inj read)
          exact ⟨[], rfl, fun spaced => spaced_skipBlanks.mp spaced⟩
      | true =>
          obtain ⟨⟨key, behindKey⟩, tokenRead, read⟩ := bind_ok.mp read
          have token := ofReader_ok.mp tokenRead
          have shorter {tree : Tree} {behindColon behind : List UInt8} (colons : colon behindKey = .ok ((), behindColon))
              (spaced : Spaced tree.tokens behindColon behind) : behind.length < bound.length := by
            have keyed := key_length_lt next token colons
            have valued := Tree.length_lt spaced
            rw [List.length_cons] at long
            omega
          simp only [layout.find_field] at read
          cases found : layout.find? key with
          | none =>
              simp only [found, Option.map_none] at read
              obtain ⟨⟨⟨⟩, behindColon⟩, colonRead, read⟩ := bind_ok.mp read
              obtain ⟨⟨⟨⟩, behind⟩, skipRead, goesOn⟩ := bind_ok.mp read
              have colons := ofReader_ok.mp colonRead
              obtain ⟨tree, -, spaced⟩ := skipValue_reads.sound (ofReader_ok.mp skipRead)
              refine .cons next token colons (fun spelling isText => ?_) spaced (ih (shorter colons spaced) goesOn)
              simp [addMember, isText, found]
          | some entry =>
              simp only [found, Option.map_some] at read
              cases held : entry.field.isHeld draft with
              | true => simp [held] at read
              | false =>
                  simp only [held, Bool.false_eq_true, if_false] at read
                  obtain ⟨⟨⟨⟩, behindColon⟩, colonRead, read⟩ := bind_ok.mp read
                  obtain ⟨⟨filled, behind⟩, storeRead, goesOn⟩ := bind_ok.mp read
                  have colons := ofReader_ok.mp colonRead
                  obtain ⟨tree, fills, spaced⟩ := (entry.reads draft).sound (ofReader_ok.mp storeRead)
                  refine .cons next token colons (fun spelling isText => ?_) spaced (ih (shorter colons spaced) goesOn)
                  simp [addMember, isText, found, held, fills]

theorem membersWithin_complete {members : List (Spelling × Tree)} {draft final : σ}
    (folds : members.foldlM layout.addMember draft = some final) {first : Bool} {bound input rest : List UInt8}
    {tokens : List Token} (spaced : Spaced (memberTokens first members ++ .mark .closeObject :: tokens) input rest)
    (ends : EndsWord rest) (long : input.length < bound.length) :
    ∃ mid, layout.shape.membersWithin bound first draft input = .ok (final, mid) ∧
      Spaced (.mark .closeObject :: tokens) mid rest := by
  induction members generalizing first bound input draft with
  | nil =>
      obtain rfl : draft = final := Option.some.inj folds
      cases bound with
      | nil => simp at long
      | cons one bound =>
          refine ⟨skipBlanks input, ?_, spaced_skipBlanks.mpr spaced⟩
          exact bind_ok.mpr ⟨_, ofReader_ok.mpr (nextKey_closes spaced), rfl⟩
  | cons member members ih =>
      obtain ⟨spelling, tree⟩ := member
      rw [List.foldlM_cons] at folds
      obtain ⟨filled, adds, folds⟩ := Option.bind_eq_some_iff.mp folds
      obtain ⟨key, isText, matched⟩ := Option.bind_eq_some_iff.mp adds
      obtain ⟨start, behindKey, mid, behind, next, token, colons, held, stops, spacedOthers, shorter⟩ :=
        member_complete isText spaced ends
      cases bound with
      | nil => simp at long
      | cons one bound =>
          have short : behind.length < bound.length := by
            rw [List.length_cons] at long
            omega
          obtain ⟨last, goesOn, closes⟩ := ih folds spacedOthers short
          refine ⟨last, bind_ok.mpr ⟨_, ofReader_ok.mpr next, bind_ok.mpr ⟨_, ofReader_ok.mpr token, ?_⟩⟩, closes⟩
          simp only [layout.find_field]
          cases found : layout.find? key with
          | none =>
              simp only [found] at matched
              obtain rfl := Option.some.inj matched
              have skips := skipValue_reads.complete rfl held stops
              exact bind_ok.mpr ⟨_, ofReader_ok.mpr colons, bind_ok.mpr ⟨_, ofReader_ok.mpr skips, goesOn⟩⟩
          | some entry =>
              simp only [found] at matched
              cases isHeld : entry.field.isHeld draft with
              | true => simp [isHeld] at matched
              | false =>
                  simp only [isHeld, Bool.false_eq_true, if_false] at matched
                  have stores := (entry.reads draft).complete matched held stops
                  simp only [Option.map_some, isHeld, Bool.false_eq_true, if_false]
                  exact bind_ok.mpr ⟨_, ofReader_ok.mpr colons, bind_ok.mpr ⟨_, ofReader_ok.mpr stores, goesOn⟩⟩

/-- Behind the last item every further field asks for one more, and finds the bracket again. -/
theorem itemsFrom_closed {entries : List (Entry σ)} {count : Nat} {draft final : σ} {input mid behind : List UInt8}
    (closes : skipBlanks input = byte ']' :: behind)
    (read : layout.shape.itemsFrom (entries.map Entry.field) count draft input = .ok (final, mid)) :
    fillFrom entries [] draft = some final ∧
      ∀ {token tokens rest}, Spaced (token :: tokens) mid rest → Spaced (token :: tokens) input rest := by
  induction entries generalizing count input with
  | nil =>
      obtain ⟨rfl, rfl⟩ := Prod.mk.inj (Except.ok.inj read)
      exact ⟨rfl, id⟩
  | cons entry entries ih =>
      obtain ⟨⟨more, start⟩, nextRead, read⟩ := bind_ok.mp read
      have ended : nextItem (count == 0) input = .ok (false, skipBlanks input) := by
        simp only [nextItem, closes, if_true]
      obtain ⟨rfl, rfl⟩ := Prod.mk.inj (Except.ok.inj (ended.symm.trans (ofReader_ok.mp nextRead)))
      cases required : entry.field.required with
      | true => simp [required] at read
      | false =>
          simp only [required, Bool.false_eq_true, if_false] at read
          obtain ⟨fills, spaced⟩ := ih ((skipBlanks_skipBlanks input).trans closes) read
          refine ⟨by simpa [fillFrom, required] using fills, fun closes => ?_⟩
          exact spaced_skipBlanks.mp (spaced closes)

theorem itemsFrom_sound {entries : List (Entry σ)} {count : Nat} {draft final : σ} {input mid : List UInt8}
    (read : layout.shape.itemsFrom (entries.map Entry.field) count draft input = .ok (final, mid)) :
    ∃ items, fillFrom entries items draft = some final ∧ ∀ {token tokens rest}, Spaced (token :: tokens) mid rest →
      Spaced (itemTokens (count == 0) items ++ token :: tokens) input rest := by
  induction entries generalizing count draft input with
  | nil =>
      obtain ⟨rfl, rfl⟩ := Prod.mk.inj (Except.ok.inj read)
      exact ⟨[], rfl, id⟩
  | cons entry entries ih =>
      obtain ⟨⟨more, start⟩, nextRead, read⟩ := bind_ok.mp read
      have next := ofReader_ok.mp nextRead
      cases more with
      | true =>
          obtain ⟨⟨filled, behind⟩, storeRead, goesOn⟩ := bind_ok.mp read
          obtain ⟨tree, stores, spaced⟩ := (entry.reads draft).sound (ofReader_ok.mp storeRead)
          obtain ⟨items, fills, spacedOthers⟩ := ih goesOn
          exact ⟨tree :: items, by rw [fillFrom, stores]; exact fills, fun closes =>
            item_sound next spaced (spacedOthers closes)⟩
      | false =>
          obtain ⟨rfl, behind, closes⟩ := nextItem_end next
          cases required : entry.field.required with
          | true => simp [required] at read
          | false =>
              simp only [required, Bool.false_eq_true, if_false] at read
              obtain ⟨fills, spaced⟩ := itemsFrom_closed ((skipBlanks_skipBlanks input).trans closes) read
              refine ⟨[], by simpa [fillFrom, required] using fills, fun closes => ?_⟩
              exact spaced_skipBlanks.mp (spaced closes)

theorem itemsFrom_complete {entries : List (Entry σ)} {items : List Tree} {count : Nat} {draft final : σ}
    (fills : fillFrom entries items draft = some final) {input rest : List UInt8} {tokens : List Token}
    (spaced : Spaced (itemTokens (count == 0) items ++ .mark .closeList :: tokens) input rest) (ends : EndsWord rest) :
    ∃ mid, layout.shape.itemsFrom (entries.map Entry.field) count draft input = .ok (final, mid) ∧
      Spaced (.mark .closeList :: tokens) mid rest := by
  induction entries generalizing items count draft input with
  | nil =>
      cases items with
      | nil =>
          obtain rfl : draft = final := Option.some.inj fills
          exact ⟨input, rfl, spaced⟩
      | cons item items => cases fills
  | cons entry entries ih =>
      cases items with
      | nil =>
          have ended : nextItem (count == 0) input = .ok (false, skipBlanks input) := nextItem_closes spaced
          cases required : entry.field.required with
          | true => simp [fillFrom, required] at fills
          | false =>
              simp only [fillFrom, required, Bool.false_eq_true, if_false] at fills
              have again : Spaced (itemTokens (count + 1 == 0) [] ++ .mark .closeList :: tokens) (skipBlanks input) rest :=
                spaced_skipBlanks.mpr spaced
              obtain ⟨mid, goesOn, closes⟩ := ih fills again
              refine ⟨mid, bind_ok.mpr ⟨_, ofReader_ok.mpr ended, ?_⟩, closes⟩
              simp only [required, Bool.false_eq_true, if_false]
              exact goesOn
      | cons tree items =>
          rw [fillFrom] at fills
          obtain ⟨filled, stores, fillsOthers⟩ := Option.bind_eq_some_iff.mp fills
          obtain ⟨start, behind, next, taken, stops, others, -⟩ := item_complete spaced ends
          have stored := (entry.reads draft).complete stores taken stops
          have further : Spaced (itemTokens (count + 1 == 0) items ++ .mark .closeList :: tokens) behind rest := others
          obtain ⟨mid, goesOn, closes⟩ := ih fillsOthers further
          refine ⟨mid, bind_ok.mpr ⟨_, ofReader_ok.mpr next, ?_⟩, closes⟩
          exact bind_ok.mpr ⟨_, ofReader_ok.mpr stored, goesOn⟩

theorem closed_eq {inside : Except Refusal (ρ × List UInt8)} {close : List UInt8 → Except Fault Unit × List UInt8}
    {record : ρ} {rest : List UInt8} : Shape.closed inside close = .ok (record, rest) ↔
      ∃ mid, inside = .ok (record, mid) ∧ close mid = (.ok (), rest) := by
  cases inside with
  | ok result =>
      obtain ⟨found, mid⟩ := result
      simp only [Shape.closed, closing_eq, Except.ok.injEq, Prod.mk.injEq]
      constructor
      · rintro ⟨rfl, closes⟩
        exact ⟨mid, ⟨rfl, rfl⟩, closes⟩
      · rintro ⟨mid, ⟨rfl, rfl⟩, closes⟩
        exact ⟨rfl, closes⟩
  | error refusal =>
      cases refusal <;> simp [Shape.closed]

theorem finish_eq {draft : σ} {record : ρ} : layout.finish? draft = some record ↔
    layout.shape.finish draft = .ok record := by
  rw [finish?]
  cases layout.shape.finish draft <;> simp [Except.toOption]

theorem finished_eq {inside : Except Refusal (σ × List UInt8)} {record : ρ} {mid : List UInt8} :
    (do
      let (draft, rest) ← inside
      match layout.shape.finish draft with
      | .ok record => return (record, rest)
      | .error cause => .error (.unplaced cause rest)) = Except.ok (record, mid) ↔
    ∃ draft, inside = .ok (draft, mid) ∧ layout.finish? draft = some record := by
  rw [bind_ok]
  constructor
  · rintro ⟨⟨draft, behind⟩, rfl, finish⟩
    refine ⟨draft, ?_⟩
    rw [finish_eq]
    cases finished : layout.shape.finish draft with
    | ok found =>
        simp only [finished] at finish
        obtain ⟨rfl, rfl⟩ := Prod.mk.inj (Except.ok.inj finish)
        exact ⟨rfl, rfl⟩
    | error cause => simp [finished] at finish
  · rintro ⟨draft, rfl, finish⟩
    refine ⟨_, rfl, ?_⟩
    simp only [finish_eq.mp finish]
    rfl

theorem ofItems_eq {input mid : List UInt8} {record : ρ} : layout.shape.ofItems input = .ok (record, mid) ↔
    ∃ draft, layout.shape.itemsFrom (layout.entries.map Entry.field) 0 layout.shape.blank input = .ok (draft, mid) ∧
      layout.finish? draft = some record := by
  rw [← layout.fields]
  exact finished_eq

theorem ofMembers_eq {input mid : List UInt8} {record : ρ} : layout.shape.ofMembers input = .ok (record, mid) ↔
    ∃ draft, layout.shape.membersWithin (0 :: input) true layout.shape.blank input = .ok (draft, mid) ∧
      layout.finish? draft = some record :=
  finished_eq

/-- A record reads what its brackets hold. -/
theorem reads (budget : Nat) (layout : Nat → Layout σ ρ) :
    (Shape.read budget fun inner => (layout inner).shape).Reads (Tree.record? budget layout) where
  sound {input found rest} read := by
    unfold Shape.read at read
    cases starts : skipBlanks input with
    | nil => simp [starts] at read
    | cons next others =>
        rw [starts] at read
        dsimp only at read
        have long : others.length < ((0 : UInt8) :: others).length := by simp
        by_cases deep : budget ≤ 1
        · split_ifs at read <;> simp [nested, deep] at read
        split_ifs at read with isList isObject
        · simp only [nested, deep, if_false, List.tail_cons] at read
          obtain ⟨mid, inside, closes⟩ := closed_eq.mp read
          obtain ⟨draft, itemsRead, finish⟩ := ofItems_eq.mp inside
          obtain ⟨items, fills, spaced⟩ := itemsFrom_sound itemsRead
          refine ⟨.list items, ?_, others, by rw [starts, isList]; rfl, spaced (closeList_eq.mp closes)⟩
          rw [Tree.record?, if_neg deep, inside?, fills]
          exact finish
        · simp only [nested, deep, if_false, List.tail_cons] at read
          obtain ⟨mid, inside, closes⟩ := closed_eq.mp read
          obtain ⟨draft, membersRead, finish⟩ := ofMembers_eq.mp inside
          obtain ⟨members, folds, spaced⟩ := membersWithin_sound long membersRead
          refine ⟨.object members, ?_, others, by rw [starts, isObject]; rfl, spaced (closeObject_eq.mp closes)⟩
          rw [Tree.record?, if_neg deep, inside?, folds]
          exact finish
  complete {tree found input rest} means spaced ends := by
    rw [Tree.record?] at means
    split_ifs at means with deep
    cases tree with
    | list items =>
        obtain ⟨draft, fills, finish⟩ := Option.bind_eq_some_iff.mp means
        obtain ⟨others, starts, inside⟩ := spaced
        have first : Spaced (itemTokens ((0 : Nat) == 0) items ++ [.mark .closeList]) others rest := inside
        obtain ⟨mid, itemsRead, closes⟩ := itemsFrom_complete fills first ends
        have read := closed_eq.mpr ⟨mid, ofItems_eq.mpr ⟨draft, itemsRead, finish⟩, closeList_eq.mpr closes⟩
        rw [Shape.read, starts]
        exact (if_neg deep).trans read
    | object members =>
        obtain ⟨draft, folds, finish⟩ := Option.bind_eq_some_iff.mp means
        obtain ⟨others, starts, inside⟩ := spaced
        have long : others.length < ((0 : UInt8) :: others).length := by simp
        obtain ⟨mid, membersRead, closes⟩ := membersWithin_complete folds inside ends long
        have read := closed_eq.mpr ⟨mid, ofMembers_eq.mpr ⟨draft, membersRead, finish⟩, closeObject_eq.mpr closes⟩
        rw [Shape.read, starts]
        exact (if_neg deep).trans read
    | word spelled => cases means
    | text spelling => cases means

end Layout

/-! ### What filling keeps -/

def Entry.Keeps (entry : Entry σ) (invariant : σ → Prop) : Prop :=
  ∀ draft filled tree, invariant draft → entry.fill draft tree = some filled → invariant filled

namespace Layout

variable {layout : Layout σ ρ} {invariant : σ → Prop} {draft final : σ}

theorem fillFrom_keeps {entries : List (Entry σ)} (keeps : ∀ entry ∈ entries, entry.Keeps invariant) {items : List Tree}
    (before : invariant draft) (fills : fillFrom entries items draft = some final) : invariant final := by
  induction entries generalizing items draft with
  | nil =>
      cases items with
      | nil => exact Option.some.inj fills ▸ before
      | cons item items => cases fills
  | cons entry entries ih =>
      have others : ∀ other ∈ entries, other.Keeps invariant := fun other member =>
        keeps other (List.mem_cons_of_mem entry member)
      cases items with
      | nil =>
          rw [fillFrom] at fills
          split_ifs at fills
          exact ih others before fills
      | cons item items =>
          rw [fillFrom] at fills
          obtain ⟨filled, stores, fillsOthers⟩ := Option.bind_eq_some_iff.mp fills
          exact ih others (keeps entry List.mem_cons_self draft filled item before stores) fillsOthers

theorem addMember_keeps (keeps : ∀ entry ∈ layout.entries, entry.Keeps invariant) {member : Spelling × Tree}
    (before : invariant draft) (adds : layout.addMember draft member = some final) : invariant final := by
  obtain ⟨key, -, matched⟩ := Option.bind_eq_some_iff.mp adds
  cases found : layout.find? key with
  | none =>
      simp only [found] at matched
      exact Option.some.inj matched ▸ before
  | some entry =>
      simp only [found] at matched
      split_ifs at matched
      exact keeps entry (List.mem_of_find?_eq_some found) draft final member.2 before matched

theorem addMembers_keep (keeps : ∀ entry ∈ layout.entries, entry.Keeps invariant) {members : List (Spelling × Tree)}
    (before : invariant draft) (folds : members.foldlM layout.addMember draft = some final) : invariant final := by
  induction members generalizing draft with
  | nil => exact Option.some.inj folds ▸ before
  | cons member members ih =>
      rw [List.foldlM_cons] at folds
      obtain ⟨filled, adds, foldsOthers⟩ := Option.bind_eq_some_iff.mp folds
      exact ih (addMember_keeps keeps before adds) foldsOthers

theorem exists_draft {budget : Nat} {layout : Nat → Layout σ ρ} {tree : Tree} {record : ρ}
    (means : tree.record? budget layout = some record) (blank : invariant (layout (budget - 1)).shape.blank)
    (keeps : ∀ entry ∈ (layout (budget - 1)).entries, entry.Keeps invariant) :
    ∃ draft, invariant draft ∧ (layout (budget - 1)).finish? draft = some record := by
  unfold Tree.record? at means
  split_ifs at means
  cases tree with
  | list items =>
      obtain ⟨draft, fills, finish⟩ := Option.bind_eq_some_iff.mp means
      exact ⟨draft, fillFrom_keeps keeps blank fills, finish⟩
  | object members =>
      obtain ⟨draft, folds, finish⟩ := Option.bind_eq_some_iff.mp means
      exact ⟨draft, addMembers_keep keeps blank folds, finish⟩
  | word spelled => cases means
  | text spelling => cases means

end Layout

end SequencedFeed.Json
