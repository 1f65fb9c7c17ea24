import SequencedFeed.Proofs.Json.Kinds
import SequencedFeed.Proofs.Json.Written
set_option autoImplicit false

/-!
# Values there and back

Without floating point numbers a value that is read can be written, and what is written is read as the same
value. The two halves meet at the values whose integers are exact, whose keys ascend, and whose nesting is within
some depth.
-/

namespace SequencedFeed.Json

/-- Every key comes before those behind it. -/
def Ascending (members : List (String × Json)) : Prop :=
  members.Pairwise fun first second => first.1 < second.1

/-- The values of integers and texts, with at most this many brackets inside each other. -/
inductive Writable : Nat → Json → Prop
  | null {depth : Nat} : Writable depth .null
  | bool {depth : Nat} (value : Bool) : Writable depth (.bool value)
  | integer {depth : Nat} {value : Int} (exact : IsExact value) : Writable depth (.number (.integer value))
  | string {depth : Nat} (text : String) : Writable depth (.string text)
  | array {depth : Nat} {items : List Json} (inside : ∀ item ∈ items, Writable depth item) :
      Writable (depth + 1) (.array items)
  | object {depth : Nat} {members : List (String × Json)} (ascending : Ascending members)
      (inside : ∀ member ∈ members, Writable depth member.2) : Writable (depth + 1) (.object members)

inductive Floatless : Json → Prop
  | null : Floatless .null
  | bool (value : Bool) : Floatless (.bool value)
  | integer (value : Int) : Floatless (.number (.integer value))
  | string (text : String) : Floatless (.string text)
  | array {items : List Json} (inside : ∀ item ∈ items, Floatless item) : Floatless (.array items)
  | object {members : List (String × Json)} (inside : ∀ member ∈ members, Floatless member.2) :
      Floatless (.object members)

/-! ### Members in order -/

theorem insertMember_last {sorted : List (String × Json)} {key : String} (value : Json)
    (last : ∀ member ∈ sorted, member.1 < key) : insertMember key value sorted = sorted ++ [(key, value)] := by
  induction sorted with
  | nil => rfl
  | cons member sorted ih =>
      obtain ⟨other, held⟩ := member
      have before := last (other, held) List.mem_cons_self
      have different : key ≠ other := by
        rintro rfl
        exact String.lt_irrefl key before
      simp only [insertMember, different, String.lt_asymm before, if_false,
        ih fun member later => last member (List.mem_cons_of_mem _ later), List.cons_append]

theorem ofMembers_ascending {members : List (String × Json)} (ascending : Ascending members) :
    ofMembers members = .object members := by
  have inserts (behind front : List (String × Json)) (sorted : Ascending (front ++ behind)) :
      behind.foldl (fun sorted member => insertMember member.1 member.2 sorted) front = front ++ behind := by
    induction behind generalizing front with
    | nil => rw [List.foldl_nil, List.append_nil]
    | cons member behind ih =>
        obtain ⟨key, value⟩ := member
        have before : ∀ member ∈ front, member.1 < key := fun member early =>
          (List.pairwise_append.mp sorted).2.2 member early (key, value) List.mem_cons_self
        rw [List.foldl_cons]
        dsimp only
        rw [insertMember_last value before, ih _ (by simpa using sorted)]
        simp
  exact congrArg Json.object (inserts members [] ascending)

theorem mem_insertMember {key : String} {value : Json} {sorted : List (String × Json)} {member : String × Json}
    (found : member ∈ insertMember key value sorted) : member = (key, value) ∨ member ∈ sorted := by
  induction sorted with
  | nil => exact .inl (List.mem_singleton.mp found)
  | cons first sorted ih =>
      obtain ⟨other, held⟩ := first
      unfold insertMember at found
      split_ifs at found with same before
      · rcases List.mem_cons.mp found with rfl | later
        · exact .inl rfl
        · exact .inr (List.mem_cons_of_mem _ later)
      · rcases List.mem_cons.mp found with rfl | later
        · exact .inl rfl
        · exact .inr later
      · rcases List.mem_cons.mp found with rfl | later
        · exact .inr List.mem_cons_self
        · rcases ih later with new | old
          · exact .inl new
          · exact .inr (List.mem_cons_of_mem _ old)

theorem ascending_insertMember (key : String) (value : Json) {sorted : List (String × Json)}
    (ascending : Ascending sorted) : Ascending (insertMember key value sorted) := by
  induction sorted with
  | nil => exact List.pairwise_singleton _ _
  | cons first sorted ih =>
      obtain ⟨other, held⟩ := first
      obtain ⟨before, rest⟩ := List.pairwise_cons.mp ascending
      unfold insertMember
      split_ifs with same earlier
      · subst same
        exact List.pairwise_cons.mpr ⟨before, rest⟩
      · refine List.pairwise_cons.mpr ⟨fun member later => ?_, ascending⟩
        rcases List.mem_cons.mp later with rfl | behind
        · exact earlier
        · exact String.lt_trans earlier (before member behind)
      · refine List.pairwise_cons.mpr ⟨fun member later => ?_, ih rest⟩
        rcases mem_insertMember later with rfl | behind
        · by_contra reversed
          exact same (String.le_antisymm (String.not_lt.mp reversed) (String.not_lt.mp earlier))
        · exact before member behind

/-- An object has ascending keys, and its members are among those it was made of. -/
theorem ofMembers_eq (members : List (String × Json)) :
    ∃ sorted, ofMembers members = .object sorted ∧ Ascending sorted ∧ ∀ member ∈ sorted, member ∈ members := by
  have inserts (behind front : List (String × Json)) (ascending : Ascending front) :
      ∃ sorted, behind.foldl (fun sorted member => insertMember member.1 member.2 sorted) front = sorted ∧
        Ascending sorted ∧ ∀ member ∈ sorted, member ∈ front ∨ member ∈ behind := by
    induction behind generalizing front with
    | nil => exact ⟨front, rfl, ascending, fun _ found => .inl found⟩
    | cons member behind ih =>
        obtain ⟨key, value⟩ := member
        obtain ⟨sorted, folds, order, among⟩ := ih _ (ascending_insertMember key value ascending)
        refine ⟨sorted, folds, order, fun member found => ?_⟩
        rcases among member found with inserted | later
        · rcases mem_insertMember inserted with rfl | early
          · exact .inr List.mem_cons_self
          · exact .inl early
        · exact .inr (List.mem_cons_of_mem _ later)
  obtain ⟨sorted, folds, order, among⟩ := inserts members [] List.Pairwise.nil
  refine ⟨sorted, congrArg Json.object folds, order, fun member found => ?_⟩
  rcases among member found with none | member
  · cases none
  · exact member

/-! ### Written values are read -/

theorem exists_entries {τ β : Type} {bytes : τ → List UInt8} {meaning : τ → Option β} {write : β → List Char}
    {values : List β} (all : ∀ value ∈ values, ∃ entry, bytes entry = Utf8.encode (write value) ∧ meaning entry = some value) :
    ∃ entries, WrittenAs bytes entries (values.map write) ∧ entries.mapM meaning = some values := by
  induction values with
  | nil => exact ⟨[], .nil, rfl⟩
  | cons value values ih =>
      obtain ⟨entry, same, means⟩ := all value List.mem_cons_self
      obtain ⟨entries, written, mean⟩ := ih fun other later => all other (List.mem_cons_of_mem value later)
      exact ⟨entry :: entries, .cons same written, by simp [List.mapM_cons, means, mean]⟩

/-- A writable value is written as a tree that means it. -/
theorem Writable.exists_tree {depth : Nat} {json : Json} (writable : Writable depth json) :
    ∃ tree : Tree, tree.bytes = Utf8.encode (text json) ∧ tree.value? (depth + 1) = some json := by
  induction writable with
  | null => exact ⟨.word Word.null, rfl, rfl⟩
  | bool value => cases value with
    | false => exact ⟨.word Word.false, rfl, rfl⟩
    | true => exact ⟨.word Word.true, rfl, rfl⟩
  | @integer depth value isExact =>
      refine ⟨.word (.ofInteger value), Word.bytes_ofInteger value, ?_⟩
      exact Tree.value?_number.mpr ⟨_, rfl, Word.number?_ofInteger isExact⟩
  | string value =>
      refine ⟨.text (.ofText value), ?_, ?_⟩
      · rw [text, encode_stringText]
        simp [Tree.bytes, Tree.tokens]
      · rw [Tree.value?, Spelling.text?_ofText]
        rfl
  | @array depth items _ ih =>
      obtain ⟨trees, written, mean⟩ := exists_entries ih
      refine ⟨.list trees, ?_, ?_⟩
      · rw [text, itemTexts_eq, bytes_list written]
      · rw [Tree.value?, if_neg (Nat.succ_ne_zero depth), mean]
        rfl
  | @object depth members ascending _ ih =>
      have all : ∀ member ∈ members, ∃ entry, memberBytes entry = Utf8.encode (memberText member.1 (text member.2)) ∧
          Tree.member? (Tree.value? (depth + 1)) entry = some member := by
        intro member found
        obtain ⟨tree, same, means⟩ := ih member found
        exact ⟨(.ofText member.1, tree), encode_memberText same, by simp [Tree.member?, Spelling.text?_ofText, means]⟩
      obtain ⟨entries, written, mean⟩ := exists_entries all
      refine ⟨.object entries, ?_, ?_⟩
      · rw [text, memberTexts_eq, bytes_object written]
      · rw [Tree.value?, if_neg (Nat.succ_ne_zero depth), mean, Option.map_some, ofMembers_ascending ascending]

/-! ### Read values can be written -/

theorem exists_of_mapM {τ β : Type} {meaning : τ → Option β} {entries : List τ} {values : List β}
    (mean : entries.mapM meaning = some values) {value : β} (found : value ∈ values) :
    ∃ entry, meaning entry = some value := by
  have pairs := mapM_eq_some.mp mean
  clear mean
  induction pairs with
  | nil => cases found
  | @cons entry first _ _ means _ ih =>
      rcases List.mem_cons.mp found with rfl | later
      · exact ⟨entry, means⟩
      · exact ih later

theorem Writable.of_tree {depth : Nat} {tree : Tree} {json : Json} (means : tree.value? (depth + 1) = some json)
    (floatless : json.Floatless) : Writable depth json := by
  induction depth using Nat.strongRecOn generalizing tree json with
  | ind depth ih =>
      obtain ⟨word, rfl, stands⟩ | ⟨_, text, -, -, rfl⟩ | ⟨items, values, rfl, deep, mean, rfl⟩ |
        ⟨members, values, rfl, deep, mean, same⟩ := Tree.value?_cases means
      · obtain ⟨-, rfl⟩ | ⟨value, rfl⟩ | ⟨number, rfl, isNumber⟩ := Word.value?_cases stands
        · exact .null
        · exact .bool value
        · cases floatless with
          | integer value => exact .integer (Word.number?_exact isNumber)
      · exact .string text
      · obtain ⟨inner, rfl⟩ := Nat.exists_eq_succ_of_ne_zero deep
        cases floatless with
        | array inside =>
            apply Writable.array
            intro value found
            obtain ⟨item, means⟩ := exists_of_mapM mean found
            exact ih inner (Nat.lt_succ_self inner) means (inside value found)
      · obtain ⟨inner, rfl⟩ := Nat.exists_eq_succ_of_ne_zero deep
        obtain ⟨sorted, made, ascending, among⟩ := ofMembers_eq values
        rw [same, made] at floatless ⊢
        cases floatless with
        | object inside =>
            apply Writable.object ascending
            intro member found
            obtain ⟨entry, means⟩ := exists_of_mapM mean (among member found)
            obtain ⟨key, -, makes⟩ := Option.bind_eq_some_iff.mp means
            obtain ⟨value, stands, pair⟩ := Option.bind_eq_some_iff.mp makes
            obtain rfl := Option.some.inj pair
            exact ih inner (Nat.lt_succ_self inner) stands (inside _ found)

end SequencedFeed.Json
