import Mathlib.Data.List.Forall2
import SequencedFeed.Proofs.Json.Collections
import SequencedFeed.Proofs.Json.Exact
set_option autoImplicit false

/-!
# Values of one kind

Whoever expects a value of one kind understands the same trees, and in the same way, as whoever takes any value
and then finds it to be of that kind.
-/

namespace SequencedFeed.Json

variable {α : Type} {budget : Nat} {tree : Tree}

theorem Word.value?_cases {word : Word} {json : Json} (stands : word.value? = some json) :
    (word = Word.null ∧ json = .null) ∨ (∃ value, json = .bool value) ∨
      ∃ number, json = .number number ∧ word.number? = some number := by
  unfold value? at stands
  split_ifs at stands with isNull
  · exact .inl ⟨isNull, (Option.some.inj stands).symm⟩
  · exact .inr (.inl ⟨true, (Option.some.inj stands).symm⟩)
  · exact .inr (.inl ⟨false, (Option.some.inj stands).symm⟩)
  · obtain ⟨number, isNumber, same⟩ := Option.map_eq_some_iff.mp stands
    exact .inr (.inr ⟨number, same.symm, isNumber⟩)

theorem Tree.value?_cases {json : Json} (means : tree.value? (budget + 1) = some json) :
    (∃ spelled, tree = .word spelled ∧ spelled.value? = some json) ∨
      (∃ spelling text, tree = .text spelling ∧ spelling.text? = some text ∧ json = .string text) ∨
      (∃ items values, tree = .list items ∧ budget ≠ 0 ∧ items.mapM (value? budget) = some values ∧
        json = .array values) ∨
      ∃ members values, tree = .object members ∧ budget ≠ 0 ∧ members.mapM (member? (value? budget)) = some values ∧
        json = ofMembers values := by
  cases tree with
  | word spelled => exact .inl ⟨spelled, rfl, means⟩
  | text spelling =>
      obtain ⟨text, isText, same⟩ := Option.map_eq_some_iff.mp means
      exact .inr (.inl ⟨spelling, text, rfl, isText, same.symm⟩)
  | list items =>
      rw [value?] at means
      split_ifs at means with deep
      obtain ⟨values, mean, same⟩ := Option.map_eq_some_iff.mp means
      exact .inr (.inr (.inl ⟨items, values, rfl, deep, mean, same.symm⟩))
  | object members =>
      rw [value?] at means
      split_ifs at means with deep
      obtain ⟨values, mean, same⟩ := Option.map_eq_some_iff.mp means
      exact .inr (.inr (.inr ⟨members, values, rfl, deep, mean, same.symm⟩))

/-! ### Words -/

theorem Tree.value?_number {number : Number} :
    tree.value? (budget + 1) = some (.number number) ↔ ∃ word : Word, tree = .word word ∧ word.number? = some number := by
  constructor
  · intro means
    obtain ⟨word, rfl, stands⟩ | ⟨_, _, -, -, other⟩ | ⟨_, _, -, -, -, other⟩ | ⟨_, _, -, -, -, other⟩ :=
      Tree.value?_cases means
    · obtain ⟨-, other⟩ | ⟨_, other⟩ | ⟨found, same, isNumber⟩ := Word.value?_cases stands
      · cases other
      · cases other
      · obtain rfl := Json.number.inj same
        exact ⟨word, rfl, isNumber⟩
    all_goals cases other
  · rintro ⟨word, rfl, isNumber⟩
    obtain ⟨next, rest, bytes, starts⟩ := Word.startsNumber_of_number isNumber
    rw [value?, Word.value?_of_starts bytes starts, isNumber]
    rfl

theorem Tree.value?_null : tree.value? (budget + 1) = some .null ↔ tree.isNull = true := by
  rw [isNull_eq]
  constructor
  · intro means
    obtain ⟨word, rfl, stands⟩ | ⟨_, _, -, -, other⟩ | ⟨_, _, -, -, -, other⟩ | ⟨_, _, -, -, -, other⟩ :=
      Tree.value?_cases means
    · obtain ⟨rfl, -⟩ | ⟨_, other⟩ | ⟨_, other, -⟩ := Word.value?_cases stands
      · rfl
      · cases other
      · cases other
    all_goals cases other
  · rintro rfl
    rfl

theorem Tree.unsigned64?_eq {found : Nat} :
    tree.unsigned64? = some found ↔ tree.value? (budget + 1) = some (nat found) := by
  rw [nat, Tree.value?_number, unsigned64?, Option.map_eq_some_iff]
  constructor
  · rintro ⟨value, means, rfl⟩
    obtain ⟨word, rfl, isNumber, positive, -⟩ := Tree.integer?_eq.mp means
    exact ⟨word, rfl, by rw [isNumber, Int.toNat_of_nonneg positive]⟩
  · rintro ⟨word, rfl, isNumber⟩
    have most := (Word.number?_exact isNumber).2
    exact ⟨found, Tree.integer?_eq.mpr ⟨word, rfl, isNumber, Int.natCast_nonneg found, most⟩, Int.toNat_natCast found⟩

theorem Tree.optional?_eq {meaning : Tree → Option α} {write : α → Json} (unlike : ∀ held, write held ≠ .null)
    (same : ∀ held, meaning tree = some held ↔ tree.value? (budget + 1) = some (write held)) {found : Option α} :
    tree.optional? meaning = some found ↔ tree.value? (budget + 1) = some (ofOption write found) := by
  unfold optional?
  cases isNull : tree.isNull with
  | true =>
      have null : tree.value? (budget + 1) = some .null := Tree.value?_null.mpr isNull
      rw [null, if_pos rfl]
      cases found with
      | none => simp [ofOption]
      | some held => simpa [ofOption] using (unlike held).symm
  | false =>
      rw [if_neg Bool.false_ne_true]
      cases found with
      | none =>
          have other : tree.value? (budget + 1) ≠ some .null := by
            intro null
            rw [Tree.value?_null.mp null] at isNull
            cases isNull
          simp [ofOption, other]
      | some held => simp [ofOption, same]

/-! ### Strings and lists -/

theorem Tree.string?_eq {found : String} : tree.string? = some found ↔ tree.value? (budget + 1) = some (.string found) := by
  constructor
  · intro means
    cases tree with
    | text spelling =>
        rw [value?, show spelling.text? = some found from means]
        rfl
    | word spelled => cases means
    | list items => cases means
    | object members => cases means
  · intro means
    obtain ⟨word, rfl, stands⟩ | ⟨spelling, text, rfl, isText, same⟩ | ⟨_, _, -, -, -, other⟩ | ⟨_, _, -, -, -, other⟩ :=
      Tree.value?_cases means
    · obtain ⟨-, other⟩ | ⟨_, other⟩ | ⟨_, other, -⟩ := Word.value?_cases stands <;> cases other
    · obtain rfl := Json.string.inj same
      exact isText
    all_goals cases other

theorem mapM_eq_some {τ β : Type} {meaning : τ → Option β} {entries : List τ} {values : List β} :
    entries.mapM meaning = some values ↔ List.Forall₂ (fun entry value => meaning entry = some value) entries values := by
  induction entries generalizing values with
  | nil => simp [eq_comm]
  | cons entry entries ih =>
      rw [List.mapM_cons, List.forall₂_cons_left_iff]
      simp only [Option.bind_eq_bind, Option.bind_eq_some_iff, ih, Option.pure_def, Option.some.injEq]
      constructor
      · rintro ⟨value, means, others, mean, rfl⟩
        exact ⟨value, others, means, mean, rfl⟩
      · rintro ⟨value, others, means, mean, rfl⟩
        exact ⟨value, means, others, mean, rfl⟩

theorem Tree.list?_eq {meaning : Nat → Tree → Option α} {write : α → Json}
    (same : ∀ budget tree held, meaning (budget + 1) tree = some held ↔ tree.value? (budget + 1) = some (write held))
    {found : List α} :
    tree.list? (budget + 1) meaning = some found ↔ tree.value? (budget + 1) = some (.array (found.map write)) := by
  constructor
  · intro means
    cases tree with
    | list items =>
        unfold list? at means
        split_ifs at means with deep
        obtain ⟨inner, rfl⟩ : ∃ inner, budget = inner + 1 := Nat.exists_eq_succ_of_ne_zero (by omega)
        have values : items.mapM (value? (inner + 1)) = some (found.map write) := by
          rw [mapM_eq_some, List.forall₂_map_right_iff]
          exact (mapM_eq_some.mp means).imp fun item held => (same inner item held).mp
        rw [value?, if_neg (Nat.succ_ne_zero inner), values]
        rfl
    | word spelled => cases means
    | text spelling => cases means
    | object members => cases means
  · intro means
    obtain ⟨word, rfl, stands⟩ | ⟨_, _, -, -, other⟩ | ⟨items, values, rfl, deep, mean, list⟩ | ⟨_, _, -, -, -, other⟩ :=
      Tree.value?_cases means
    · obtain ⟨-, other⟩ | ⟨_, other⟩ | ⟨_, other, -⟩ := Word.value?_cases stands <;> cases other
    · cases other
    · obtain rfl := Json.array.inj list
      obtain ⟨inner, rfl⟩ := Nat.exists_eq_succ_of_ne_zero deep
      rw [mapM_eq_some, List.forall₂_map_right_iff] at mean
      rw [list?, if_neg (by omega), mapM_eq_some]
      exact mean.imp fun item held => (same inner item held).mpr
    · cases other

end SequencedFeed.Json
