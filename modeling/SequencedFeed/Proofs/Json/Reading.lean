import SequencedFeed.Proofs.Json.Trees
set_option autoImplicit false

/-!
# Readers and trees

A reader of values takes one tree off a text, and what it finds there is what the tree means to it. Whether it
succeeds, and with what, depends on nothing but that tree.
-/

namespace SequencedFeed.Json

variable {α : Type}

/-- What the reader finds is what the tree it takes means, and it takes every tree that means something. -/
structure Reader.Reads (reader : Reader α) (meaning : Tree → Option α) : Prop where
  sound : ∀ {input : List UInt8} {found : α} {rest : List UInt8}, reader input = .ok (found, rest) →
    ∃ tree, meaning tree = some found ∧ Spaced tree.tokens input rest
  complete : ∀ {tree : Tree} {found : α} {input rest : List UInt8}, meaning tree = some found →
    Spaced tree.tokens input rest → EndsWord rest → reader input = .ok (found, rest)

theorem Reader.Reads.map {β : Type} {reader : Reader α} {meaning : Tree → Option α} (reads : reader.Reads meaning)
    (make : α → β) : Reader.Reads
      (fun input => do
        let (found, rest) ← reader input
        return (make found, rest))
      (fun tree => (meaning tree).map make) where
  sound read := by
    obtain ⟨⟨taken, behind⟩, token, finish⟩ := bind_ok.mp read
    obtain ⟨rfl, rfl⟩ := Prod.mk.inj (Except.ok.inj finish)
    obtain ⟨tree, means, spaced⟩ := reads.sound token
    exact ⟨tree, by rw [means]; rfl, spaced⟩
  complete makes spaced ends := by
    obtain ⟨taken, means, rfl⟩ := Option.map_eq_some_iff.mp makes
    exact bind_ok.mpr ⟨_, reads.complete means spaced ends, rfl⟩

/-! ### Scalars -/

/-- The integer of a word, if it lies between these bounds. -/
def Tree.integer? (least most : Int) : Tree → Option Int
  | .word spelled =>
      match spelled.number? with
      | some (.integer value) => if least ≤ value ∧ value ≤ most then some value else none
      | _ => none
  | _ => none

theorem Tree.integer?_eq {least most found : Int} {tree : Tree} : tree.integer? least most = some found ↔
    ∃ spelled : Word, tree = .word spelled ∧ spelled.number? = some (.integer found) ∧ least ≤ found ∧ found ≤ most := by
  cases tree with
  | word spelled =>
      simp only [integer?, Tree.word.injEq, exists_eq_left']
      cases spelled.number? with
      | none => simp
      | some number =>
          cases number with
          | real value => simp
          | integer value =>
              by_cases within : least ≤ value ∧ value ≤ most
              · simp only [within, and_self, if_true, Option.some.injEq, Number.integer.injEq]
                constructor
                · rintro rfl
                  exact ⟨rfl, within⟩
                · exact fun same => same.1
              · simp only [within, if_false, Option.some.injEq, Number.integer.injEq]
                constructor
                · intro none
                  cases none
                · rintro ⟨rfl, inside⟩
                  exact absurd inside within
  | text spelling => simp [integer?]
  | list items => simp [integer?]
  | object members => simp [integer?]

theorem integer_reads (expected : Expectation) (least most : Int) :
    (integer expected least most).Reads (Tree.integer? least most) where
  sound {input found rest} read := by
    unfold integer at read
    cases starts : skipBlanks input with
    | nil => simp [starts] at read
    | cons next others =>
        cases number : startsNumber next with
        | false => simp [starts, number] at read
        | true =>
            simp only [starts, number, if_true] at read
            obtain ⟨⟨taken, behind⟩, token, finish⟩ := bind_ok.mp read
            cases taken with
            | real value => cases finish
            | integer value =>
                by_cases within : least ≤ value ∧ value ≤ most
                · simp only [within, and_self, if_true] at finish
                  obtain ⟨rfl, rfl⟩ := Prod.mk.inj (Except.ok.inj finish)
                  obtain ⟨spelled, same, isNumber⟩ := exists_number token
                  exact ⟨.word spelled, Tree.integer?_eq.mpr ⟨spelled, rfl, isNumber, within⟩,
                    behind, starts.trans same, rfl⟩
                · simp [within] at finish
  complete {tree found input rest} means spaced ends := by
    obtain ⟨spelled, rfl, isNumber, within⟩ := Tree.integer?_eq.mp means
    obtain ⟨behind, same, rfl⟩ := spaced
    obtain ⟨next, others, bytes, starts⟩ := Word.startsNumber_of_number isNumber
    have read := Word.takes_number isNumber behind ends
    simp only [Token.bytes, bytes, List.cons_append] at same read
    simp only [integer, same, starts, if_true]
    refine bind_ok.mpr ⟨_, read, ?_⟩
    simp only [within, and_self, if_true]
    rfl

def Tree.signed64? : Tree → Option Int :=
  Tree.integer? minSigned64 maxSigned64

theorem signed64_reads : signed64.Reads Tree.signed64? :=
  integer_reads .signed64 minSigned64 maxSigned64

def Tree.unsigned64? (tree : Tree) : Option Nat :=
  (tree.integer? 0 maxUnsigned64).map Int.toNat

theorem unsigned64_reads : unsigned64.Reads Tree.unsigned64? :=
  (integer_reads .unsigned64 0 maxUnsigned64).map Int.toNat

def Tree.string? : Tree → Option String
  | .text spelling => spelling.text?
  | _ => none

theorem stringValue_reads : stringValue.Reads Tree.string? where
  sound {input found rest} read := by
    unfold stringValue at read
    cases starts : skipBlanks input with
    | nil => simp [starts] at read
    | cons next others =>
        by_cases quote : next = byte '"'
        · simp only [starts, quote, if_true] at read
          obtain ⟨spelling, same, isText⟩ := exists_text read
          refine ⟨.text spelling, isText, rest, ?_, rfl⟩
          rw [starts, quote, same]
          simp [Token.bytes]
        · simp [starts, quote] at read
  complete {tree found input rest} means spaced ends := by
    cases tree with
    | text spelling =>
        obtain ⟨behind, same, rfl⟩ := spaced
        simp only [Token.bytes, List.cons_append, List.append_assoc, List.nil_append] at same
        simp only [stringValue, same, if_true]
        exact Spelling.reads means behind
    | word spelled => cases means
    | list items => cases means
    | object members => cases means

/-! ### Null -/

def Tree.isNull : Tree → Bool
  | .word spelled => spelled = Word.null
  | _ => false

theorem Tree.isNull_eq {tree : Tree} : tree.isNull = true ↔ tree = .word Word.null := by
  cases tree with
  | word spelled => simp [isNull]
  | text spelling => simp [isNull]
  | list items => simp [isNull]
  | object members => simp [isNull]

theorem Tree.isNull_of_starts {tree : Tree} {input rest others : List UInt8} (spaced : Spaced tree.tokens input rest)
    (starts : skipBlanks input = byte 'n' :: others) : tree.isNull = true := by
  have first {token : Token} {tokens : List Token} (spaced : Spaced (token :: tokens) input rest) :
      ∃ behind, byte 'n' :: others = token.bytes ++ behind := by
    obtain ⟨behind, same, -⟩ := spaced
    exact ⟨behind, starts.symm.trans same⟩
  cases tree with
  | word spelled =>
      obtain ⟨behind, same⟩ := first spaced
      rcases spelled.cases with rfl | rfl | rfl | ⟨next, letters, bytes, number⟩
      · rfl
      · exact absurd (List.cons.inj same).1 (by decide)
      · exact absurd (List.cons.inj same).1 (by decide)
      · rw [Token.bytes, bytes] at same
        obtain ⟨rfl, -⟩ := List.cons.inj same
        exact absurd number (by decide)
  | text spelling =>
      obtain ⟨behind, same⟩ := first spaced
      exact absurd (List.cons.inj same).1 (by decide)
  | list items =>
      obtain ⟨behind, same⟩ := first spaced
      exact absurd (List.cons.inj same).1 (by decide)
  | object members =>
      obtain ⟨behind, same⟩ := first spaced
      exact absurd (List.cons.inj same).1 (by decide)

theorem Tree.starts_of_isNull {tree : Tree} {input rest : List UInt8} (isNull : tree.isNull = true)
    (spaced : Spaced tree.tokens input rest) : skipBlanks input = byte 'n' :: (nullLetters ++ rest) := by
  obtain rfl := Tree.isNull_eq.mp isNull
  obtain ⟨behind, same, rfl⟩ := spaced
  exact same

/-- Null, or what the tree means otherwise. -/
def Tree.optional? (meaning : Tree → Option α) (tree : Tree) : Option (Option α) :=
  if tree.isNull then some none else (meaning tree).map some

theorem optional_other {reader : Reader α} {input : List UInt8} (other : ∀ rest, skipBlanks input ≠ byte 'n' :: rest) :
    optional reader input = (reader (skipBlanks input) >>= fun taken => Except.ok (some taken.1, taken.2)) := by
  unfold optional
  cases starts : skipBlanks input with
  | nil => rfl
  | cons next rest =>
      have different : next ≠ byte 'n' := by
        rintro rfl
        exact other rest starts
      simp only [different, if_false]
      rfl

theorem Tree.spaced_skipBlanks {tree : Tree} {input rest : List UInt8} :
    Spaced tree.tokens (skipBlanks input) rest ↔ Spaced tree.tokens input rest := by
  obtain ⟨token, tokens, same, -⟩ := tree.starts
  rw [same]
  exact Json.spaced_skipBlanks

theorem optional_reads {reader : Reader α} {meaning : Tree → Option α} (reads : reader.Reads meaning) :
    (optional reader).Reads (Tree.optional? meaning) where
  sound {input found rest} read := by
    by_cases null : ∃ others, skipBlanks input = byte 'n' :: others
    · obtain ⟨others, starts⟩ := null
      simp only [optional, starts, if_true] at read
      obtain ⟨⟨⟨⟩, behind⟩, letters, finish⟩ := bind_ok.mp read
      obtain ⟨rfl, rfl⟩ := Prod.mk.inj (Except.ok.inj finish)
      refine ⟨.word Word.null, rfl, behind, ?_, rfl⟩
      rw [starts, literal_eq.mp letters]
      rfl
    · have other : ∀ rest, skipBlanks input ≠ byte 'n' :: rest := fun rest starts => null ⟨rest, starts⟩
      rw [optional_other other] at read
      obtain ⟨tree, means, spaced⟩ := (reads.map some).sound read
      rw [Tree.spaced_skipBlanks] at spaced
      refine ⟨tree, ?_, spaced⟩
      cases isNull : tree.isNull with
      | true => exact absurd (Tree.starts_of_isNull isNull spaced) (other _)
      | false => rwa [Tree.optional?, isNull]
  complete {tree found input rest} means spaced ends := by
    unfold Tree.optional? at means
    cases isNull : tree.isNull with
    | true =>
        simp only [isNull, if_true, Option.some.injEq] at means
        subst means
        simp only [optional, Tree.starts_of_isNull isNull spaced, if_true]
        exact bind_ok.mpr ⟨_, literal_eq.mpr rfl, rfl⟩
    | false =>
        simp only [isNull, Bool.false_eq_true, if_false] at means
        have other : ∀ rest, skipBlanks input ≠ byte 'n' :: rest := by
          intro rest starts
          rw [Tree.isNull_of_starts spaced starts] at isNull
          cases isNull
        rw [optional_other other]
        exact (reads.map some).complete means (Tree.spaced_skipBlanks.mpr spaced) ends

/-! ### Whole texts -/

theorem endOfText_eq {input rest : List UInt8} : endOfText input = .ok ((), rest) ↔ skipBlanks input = [] ∧ rest = [] := by
  rw [endOfText]
  cases skipBlanks input with
  | nil => simp [eq_comm]
  | cons next others => simp

/-- A text is read if a tree that means something spells it. -/
theorem parse_eq {reader : Nat → Reader α} {meaning : Tree → Option α} (reads : (reader nestingBudget).Reads meaning)
    {frame : List UInt8} {found : α} :
    parse reader frame = .ok found ↔ ∃ tree : Tree, tree.Spells frame ∧ meaning tree = some found := by
  have whole {rest : List UInt8} : wholeText reader frame = .ok (found, rest) ↔
      ∃ behind, reader nestingBudget frame = .ok (found, behind) ∧ skipBlanks behind = [] ∧ rest = [] := by
    constructor
    · intro read
      obtain ⟨⟨value, behind⟩, first, read⟩ := bind_ok.mp read
      obtain ⟨⟨⟨⟩, last⟩, blank, finish⟩ := bind_ok.mp read
      obtain ⟨rfl, rfl⟩ := Prod.mk.inj (Except.ok.inj finish)
      exact ⟨behind, first, endOfText_eq.mp blank⟩
    · rintro ⟨behind, first, blank, rfl⟩
      exact bind_ok.mpr ⟨_, first, bind_ok.mpr ⟨_, endOfText_eq.mpr ⟨blank, rfl⟩, rfl⟩⟩
  constructor
  · intro read
    unfold parse at read
    cases result : wholeText reader frame with
    | error fault => simp [result] at read
    | ok value =>
        obtain ⟨value, rest⟩ := value
        simp only [result, Except.ok.injEq] at read
        subst read
        obtain ⟨behind, first, blank, -⟩ := whole.mp result
        obtain ⟨tree, means, spaced⟩ := reads.sound first
        exact ⟨tree, ⟨behind, spaced, blank⟩, means⟩
  · rintro ⟨tree, ⟨behind, spaced, blank⟩, means⟩
    have first := reads.complete means spaced (endsWord_of_skipBlanks blank)
    rw [parse, whole.mpr ⟨behind, first, blank, rfl⟩]

end SequencedFeed.Json
