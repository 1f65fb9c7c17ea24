import SequencedFeed.Proofs.Json.Numbers
import SequencedFeed.Proofs.Json.Strings
set_option autoImplicit false

/-!
# Syntax trees

A text is a sequence of tokens with blanks around them, and the tokens of a value form a tree. A tree keeps
every word and every string as it is spelled, and says nothing about what they stand for. A text has one tree
at most.
-/

namespace SequencedFeed.Json

inductive Token
  | mark (sign : Mark)
  | text (spelling : Spelling)
  | word (word : Word)

def Token.bytes : Token → List UInt8
  | .mark sign => [sign.byte]
  | .text spelling => byte '"' :: (spelling.bytes ++ [byte '"'])
  | .word spelled => spelled.bytes

/-- The input is these tokens, with any blanks before each of them, and then the rest. -/
def Spaced : List Token → List UInt8 → List UInt8 → Prop
  | [], input, rest => input = rest
  | token :: tokens, input, rest => ∃ behind, skipBlanks input = token.bytes ++ behind ∧ Spaced tokens behind rest

/-- A value of any depth. -/
inductive Tree
  | word (word : Word)
  | text (spelling : Spelling)
  | list (items : List Tree)
  | object (members : List (Spelling × Tree))

def separator (first : Bool) : List Token :=
  if first then [] else [.mark .comma]

mutual

def Tree.tokens : Tree → List Token
  | .word spelled => [.word spelled]
  | .text spelling => [.text spelling]
  | .list items => .mark .openList :: (itemTokens true items ++ [.mark .closeList])
  | .object members => .mark .openObject :: (memberTokens true members ++ [.mark .closeObject])

def itemTokens : Bool → List Tree → List Token
  | _, [] => []
  | first, item :: items => separator first ++ (item.tokens ++ itemTokens false items)

def memberTokens : Bool → List (Spelling × Tree) → List Token
  | _, [] => []
  | first, (key, value) :: members =>
      separator first ++ (.text key :: .mark .colon :: (value.tokens ++ memberTokens false members))

end

/-- The text is this tree, however it is spaced. -/
def Tree.Spells (tree : Tree) (frame : List UInt8) : Prop :=
  ∃ rest, Spaced tree.tokens frame rest ∧ skipBlanks rest = []

/-! ### Tokens of a text -/

theorem Word.starts (word : Word) : ∃ next rest, word.bytes = next :: rest ∧
    isBlank next = false ∧ next ≠ byte '"' ∧ ∀ mark : Mark, next ≠ mark.byte := by
  have letter (next : UInt8) (found : next = byte 'n' ∨ next = byte 't' ∨ next = byte 'f') :
      isBlank next = false ∧ next ≠ byte '"' ∧ ∀ mark : Mark, next ≠ mark.byte := by
    rcases found with rfl | rfl | rfl
    all_goals exact ⟨by decide, by decide, fun mark => by cases mark <;> decide⟩
  rcases word.cases with rfl | rfl | rfl | ⟨next, rest, same, starts⟩
  · exact ⟨_, _, rfl, letter _ (.inl rfl)⟩
  · exact ⟨_, _, rfl, letter _ (.inr (.inl rfl))⟩
  · exact ⟨_, _, rfl, letter _ (.inr (.inr rfl))⟩
  · refine ⟨next, rest, same, ?_, ne_of_startsNumber starts (by decide), fun mark => ?_⟩
    · cases blank : isBlank next with
      | false => rfl
      | true =>
          rcases isBlank_cases blank with rfl | rfl | rfl | rfl <;> exact absurd starts (by decide)
    · exact ne_of_startsNumber starts (by cases mark <;> decide)

theorem Token.starts (token : Token) : ∃ next rest, token.bytes = next :: rest ∧ isBlank next = false := by
  cases token with
  | mark mark => exact ⟨mark.byte, [], rfl, by cases mark <;> decide⟩
  | text spelling => exact ⟨byte '"', _, rfl, by decide⟩
  | word word =>
      obtain ⟨next, rest, same, other, -⟩ := word.starts
      exact ⟨next, rest, same, other⟩

theorem skipBlanks_of_starts {next : UInt8} {rest : List UInt8} (other : isBlank next = false) :
    skipBlanks (next :: rest) = next :: rest := by
  simp only [skipBlanks, List.dropWhile_cons, other, Bool.false_eq_true, if_false]

theorem skipBlanks_token (token : Token) (rest : List UInt8) : skipBlanks (token.bytes ++ rest) = token.bytes ++ rest := by
  obtain ⟨next, others, same, other⟩ := token.starts
  rw [same]
  exact skipBlanks_of_starts other

theorem skipBlanks_skipBlanks (input : List UInt8) : skipBlanks (skipBlanks input) = skipBlanks input := by
  induction input with
  | nil => rfl
  | cons next rest ih =>
      cases blank : isBlank next with
      | true => simpa only [skipBlanks, List.dropWhile_cons, blank, if_true] using ih
      | false => rw [skipBlanks_of_starts blank, skipBlanks_of_starts blank]

theorem spaced_skipBlanks {token : Token} {tokens : List Token} {input rest : List UInt8} :
    Spaced (token :: tokens) (skipBlanks input) rest ↔ Spaced (token :: tokens) input rest := by
  simp only [Spaced, skipBlanks_skipBlanks]

theorem spaced_append {tokens others : List Token} {input rest : List UInt8} :
    Spaced (tokens ++ others) input rest ↔ ∃ behind, Spaced tokens input behind ∧ Spaced others behind rest := by
  induction tokens generalizing input with
  | nil => simp [Spaced]
  | cons token tokens ih =>
      simp only [List.cons_append, Spaced, ih]
      constructor
      · rintro ⟨behind, same, after, spaced, others⟩
        exact ⟨after, ⟨behind, same, spaced⟩, others⟩
      · rintro ⟨after, ⟨behind, same, spaced⟩, others⟩
        exact ⟨behind, same, after, spaced, others⟩

theorem length_skipBlanks_le (input : List UInt8) : (skipBlanks input).length ≤ input.length :=
  (List.dropWhile_suffix isBlank).length_le

theorem Spaced.length_le {tokens : List Token} {input rest : List UInt8} (spaced : Spaced tokens input rest) :
    rest.length + tokens.length ≤ input.length := by
  induction tokens generalizing input with
  | nil =>
      rw [Spaced] at spaced
      simp [spaced]
  | cons token tokens ih =>
      obtain ⟨behind, same, spaced⟩ := spaced
      obtain ⟨next, others, bytes, -⟩ := token.starts
      have shorter := ih spaced
      have skipped := length_skipBlanks_le input
      rw [same, bytes] at skipped
      simp only [List.cons_append, List.length_cons, List.length_append] at skipped ⊢
      omega

theorem endsWord_of_skipBlanks {input : List UInt8} (blank : skipBlanks input = []) : EndsWord input := by
  cases input with
  | nil => trivial
  | cons next rest =>
      cases isBlank : isBlank next with
      | true => exact .inl isBlank
      | false =>
          rw [skipBlanks_of_starts isBlank] at blank
          cases blank

/-- What may follow a value: a mark or nothing. -/
def MayFollow : List Token → Prop
  | [] => True
  | token :: _ => ∃ mark, token = .mark mark

theorem Spaced.endsWord {tokens : List Token} {input rest : List UInt8} (spaced : Spaced tokens input rest)
    (follows : MayFollow tokens) (ends : EndsWord rest) : EndsWord input := by
  cases tokens with
  | nil =>
      rw [Spaced] at spaced
      rw [spaced]
      exact ends
  | cons token tokens =>
      obtain ⟨mark, rfl⟩ := follows
      obtain ⟨behind, same, -⟩ := spaced
      cases input with
      | nil => trivial
      | cons next rest =>
          cases blank : isBlank next with
          | true => exact .inl blank
          | false =>
              rw [skipBlanks_of_starts blank] at same
              exact .inr ⟨mark, (List.cons.inj same).1⟩

/-- The shortest text of a tree. -/
def Tree.bytes (tree : Tree) : List UInt8 :=
  tree.tokens.flatMap Token.bytes

theorem spaced_bytes (tokens : List Token) (rest : List UInt8) :
    Spaced tokens (tokens.flatMap Token.bytes ++ rest) rest := by
  induction tokens with
  | nil => rfl
  | cons token tokens ih =>
      rw [List.flatMap_cons, List.append_assoc]
      exact ⟨_, skipBlanks_token token _, ih⟩

theorem Tree.spells_bytes (tree : Tree) : tree.Spells tree.bytes := by
  have spaced := spaced_bytes tree.tokens []
  rw [List.append_nil] at spaced
  exact ⟨[], spaced, rfl⟩

/-! ### One tree for a text -/

/-- No word stands directly before another or before a string. -/
def Apart : List Token → Prop
  | [] => True
  | .word _ :: tokens => MayFollow tokens ∧ Apart tokens
  | _ :: tokens => Apart tokens

theorem Mark.byte_injective {mark other : Mark} (same : mark.byte = other.byte) : mark = other := by
  cases mark <;> cases other <;> first | rfl | exact absurd same (by decide)

theorem Token.bytes_injective {token other : Token} {rest behind : List UInt8}
    (same : token.bytes ++ rest = other.bytes ++ behind)
    (ends : ∀ word, token = .word word → EndsWord rest) (endsOther : ∀ word, other = .word word → EndsWord behind) :
    token = other ∧ rest = behind := by
  have quoted (mark : Mark) : mark.byte ≠ byte '"' := by
    cases mark <;> decide
  cases token with
  | mark mark =>
      cases other with
      | mark second =>
          obtain ⟨bytes, rests⟩ := List.cons.inj same
          exact ⟨congrArg Token.mark (Mark.byte_injective bytes), rests⟩
      | text spelling => exact absurd (List.cons.inj same).1 (quoted mark)
      | word word =>
          obtain ⟨next, others, bytes, -, -, unmarked⟩ := word.starts
          rw [Token.bytes, Token.bytes, bytes] at same
          exact absurd (List.cons.inj same).1.symm (unmarked mark)
  | text spelling =>
      cases other with
      | mark mark => exact absurd (List.cons.inj same).1.symm (quoted mark)
      | text second =>
          simp only [Token.bytes, List.cons_append, List.append_assoc, List.nil_append, List.cons.injEq, true_and] at same
          have skipped := (spelling.skips rest).symm.trans ((congrArg skipString same).trans (second.skips behind))
          obtain rfl : rest = behind := congrArg Prod.snd (Except.ok.inj skipped)
          exact ⟨congrArg Token.text (Spelling.ext (List.append_cancel_right same)), rfl⟩
      | word word =>
          obtain ⟨next, others, bytes, -, unquoted, -⟩ := word.starts
          rw [Token.bytes, Token.bytes, bytes] at same
          exact absurd (List.cons.inj same).1.symm unquoted
  | word word =>
      obtain ⟨next, others, bytes, -, unquoted, unmarked⟩ := word.starts
      cases other with
      | mark mark =>
          rw [Token.bytes, Token.bytes, bytes] at same
          exact absurd (List.cons.inj same).1 (unmarked mark)
      | text spelling =>
          rw [Token.bytes, Token.bytes, bytes] at same
          exact absurd (List.cons.inj same).1 unquoted
      | word second =>
          have first := word.takes rest (ends word rfl)
          have again := second.takes behind (endsOther second rfl)
          have skipped := first.symm.trans ((congrArg skipWord same).trans again)
          obtain rfl : rest = behind := congrArg Prod.snd (Except.ok.inj skipped)
          exact ⟨congrArg Token.word (Word.ext (List.append_cancel_right same)), rfl⟩

theorem Spaced.injective {tokens others : List Token} {input rest behind : List UInt8}
    (spaced : Spaced tokens input rest) (other : Spaced others input behind) (done : skipBlanks rest = [])
    (doneOther : skipBlanks behind = []) (apart : Apart tokens) (apartOther : Apart others) : tokens = others := by
  have unequal {token : Token} {tokens : List Token} {input rest : List UInt8}
      (spaced : Spaced (token :: tokens) input rest) : skipBlanks input ≠ [] := by
    intro blank
    obtain ⟨after, same, -⟩ := spaced
    obtain ⟨next, others, bytes, -⟩ := token.starts
    rw [blank, bytes] at same
    cases same
  have apartRest {token : Token} {tokens : List Token} (apart : Apart (token :: tokens)) : Apart tokens := by
    cases token with
    | word spelled => exact apart.2
    | mark sign => exact apart
    | text spelling => exact apart
  induction tokens generalizing others input with
  | nil =>
      cases others with
      | nil => rfl
      | cons token others =>
          obtain rfl : input = rest := spaced
          exact absurd done (unequal other)
  | cons token tokens ih =>
      cases others with
      | nil =>
          obtain rfl : input = behind := other
          exact absurd doneOther (unequal spaced)
      | cons second others =>
          obtain ⟨after, same, spaced⟩ := spaced
          obtain ⟨afterOther, sameOther, other⟩ := other
          have bytes := same.symm.trans sameOther
          obtain ⟨rfl, rfl⟩ := Token.bytes_injective bytes
            (fun word isWord => spaced.endsWord (isWord ▸ apart).1 (endsWord_of_skipBlanks done))
            (fun word isWord => other.endsWord (isWord ▸ apartOther).1 (endsWord_of_skipBlanks doneOther))
          rw [ih spaced other (apartRest apart) (apartRest apartOther)]

def Token.StartsValue : Token → Prop
  | .mark sign => sign = .openList ∨ sign = .openObject
  | .text _ => True
  | .word _ => True

theorem Tree.starts (tree : Tree) : ∃ token rest, tree.tokens = token :: rest ∧ token.StartsValue := by
  cases tree with
  | word spelled => exact ⟨_, _, rfl, trivial⟩
  | text spelling => exact ⟨_, _, rfl, trivial⟩
  | list items => exact ⟨_, _, rfl, .inl rfl⟩
  | object members => exact ⟨_, _, rfl, .inr rfl⟩

theorem itemTokens_cons_ne (first : Bool) (item : Tree) (items : List Tree) (more behind : List Token) :
    itemTokens first (item :: items) ++ more ≠ .mark .closeList :: behind := by
  intro same
  obtain ⟨token, rest, tokens, starts⟩ := item.starts
  cases first with
  | true =>
      simp only [itemTokens, separator, if_true, List.nil_append, tokens, List.cons_append, List.cons.injEq] at same
      rw [same.1] at starts
      rcases starts with isOpen | isOpen <;> cases isOpen
  | false => simp [itemTokens, separator] at same

theorem memberTokens_cons_ne (first : Bool) (member : Spelling × Tree) (members : List (Spelling × Tree))
    (more behind : List Token) : memberTokens first (member :: members) ++ more ≠ .mark .closeObject :: behind := by
  intro same
  cases first <;> simp [memberTokens, separator] at same

mutual

theorem Tree.tokens_injective (tree other : Tree) (more behind : List Token)
    (same : tree.tokens ++ more = other.tokens ++ behind) : tree = other ∧ more = behind := by
  cases tree with
  | word spelled =>
      cases other <;> simp_all [Tree.tokens]
  | text spelling =>
      cases other <;> simp_all [Tree.tokens]
  | list items =>
      cases other with
      | list others =>
          simp only [Tree.tokens, List.cons_append, List.append_assoc, List.nil_append, List.cons.injEq, true_and] at same
          obtain ⟨rfl, rfl⟩ := itemTokens_injective true items others more behind same
          exact ⟨rfl, rfl⟩
      | word spelled => simp [Tree.tokens] at same
      | text spelling => simp [Tree.tokens] at same
      | object members => simp [Tree.tokens] at same
  | object members =>
      cases other with
      | object others =>
          simp only [Tree.tokens, List.cons_append, List.append_assoc, List.nil_append, List.cons.injEq, true_and] at same
          obtain ⟨rfl, rfl⟩ := memberTokens_injective true members others more behind same
          exact ⟨rfl, rfl⟩
      | word spelled => simp [Tree.tokens] at same
      | text spelling => simp [Tree.tokens] at same
      | list items => simp [Tree.tokens] at same

theorem itemTokens_injective (first : Bool) (items others : List Tree) (more behind : List Token)
    (same : itemTokens first items ++ .mark .closeList :: more = itemTokens first others ++ .mark .closeList :: behind) :
    items = others ∧ more = behind := by
  cases items with
  | nil =>
      cases others with
      | nil => exact ⟨rfl, (List.cons.inj same).2⟩
      | cons other others => exact absurd same.symm (itemTokens_cons_ne first other others _ _)
  | cons item items =>
      cases others with
      | nil => exact absurd same (itemTokens_cons_ne first item items _ _)
      | cons other others =>
          simp only [itemTokens, List.append_assoc, List.append_cancel_left_eq] at same
          obtain ⟨rfl, rests⟩ := Tree.tokens_injective item other _ _ same
          obtain ⟨rfl, rfl⟩ := itemTokens_injective false items others more behind rests
          exact ⟨rfl, rfl⟩

theorem memberTokens_injective (first : Bool) (members others : List (Spelling × Tree)) (more behind : List Token)
    (same : memberTokens first members ++ .mark .closeObject :: more =
      memberTokens first others ++ .mark .closeObject :: behind) :
    members = others ∧ more = behind := by
  cases members with
  | nil =>
      cases others with
      | nil => exact ⟨rfl, (List.cons.inj same).2⟩
      | cons other others => exact absurd same.symm (memberTokens_cons_ne first other others _ _)
  | cons member members =>
      cases others with
      | nil => exact absurd same (memberTokens_cons_ne first member members _ _)
      | cons other others =>
          obtain ⟨key, value⟩ := member
          obtain ⟨otherKey, otherValue⟩ := other
          simp only [memberTokens, List.append_assoc, List.append_cancel_left_eq, List.cons_append, List.cons.injEq,
            Token.text.injEq, true_and] at same
          obtain ⟨rfl, same⟩ := same
          obtain ⟨rfl, rests⟩ := Tree.tokens_injective value otherValue _ _ same
          obtain ⟨rfl, rfl⟩ := memberTokens_injective false members others more behind rests
          exact ⟨rfl, rfl⟩

end

theorem mayFollow_items (items : List Tree) {more : List Token} (follows : MayFollow more) :
    MayFollow (itemTokens false items ++ more) := by
  cases items with
  | nil => exact follows
  | cons item items => exact ⟨.comma, rfl⟩

theorem mayFollow_members (members : List (Spelling × Tree)) {more : List Token} (follows : MayFollow more) :
    MayFollow (memberTokens false members ++ more) := by
  cases members with
  | nil => exact follows
  | cons member members => exact ⟨.comma, rfl⟩

theorem apart_separator (first : Bool) {more : List Token} (apart : Apart more) : Apart (separator first ++ more) := by
  cases first <;> exact apart

mutual

theorem Tree.apart (tree : Tree) (more : List Token) (follows : MayFollow more) (apart : Apart more) :
    Apart (tree.tokens ++ more) := by
  cases tree with
  | word spelled => exact ⟨follows, apart⟩
  | text spelling => exact apart
  | list items =>
      rw [Tree.tokens, List.cons_append, List.append_assoc]
      exact apart_items true items _ ⟨.closeList, rfl⟩ apart
  | object members =>
      rw [Tree.tokens, List.cons_append, List.append_assoc]
      exact apart_members true members _ ⟨.closeObject, rfl⟩ apart

theorem apart_items (first : Bool) (items : List Tree) (more : List Token) (follows : MayFollow more)
    (apart : Apart more) : Apart (itemTokens first items ++ more) := by
  cases items with
  | nil => exact apart
  | cons item items =>
      rw [itemTokens, List.append_assoc, List.append_assoc]
      exact apart_separator first (Tree.apart item _ (mayFollow_items items follows) (apart_items false items more follows apart))

theorem apart_members (first : Bool) (members : List (Spelling × Tree)) (more : List Token) (follows : MayFollow more)
    (apart : Apart more) : Apart (memberTokens first members ++ more) := by
  cases members with
  | nil => exact apart
  | cons member members =>
      obtain ⟨key, value⟩ := member
      rw [memberTokens, List.append_assoc, List.cons_append, List.cons_append, List.append_assoc]
      exact apart_separator first
        (Tree.apart value _ (mayFollow_members members follows) (apart_members false members more follows apart))

end

theorem Tree.Spells.injective {tree other : Tree} {frame : List UInt8} (spells : tree.Spells frame)
    (spellsOther : other.Spells frame) : tree = other := by
  have apart (tree : Tree) : Apart tree.tokens := by
    have whole := tree.apart [] trivial trivial
    rwa [List.append_nil] at whole
  obtain ⟨rest, spaced, done⟩ := spells
  obtain ⟨behind, spacedOther, doneOther⟩ := spellsOther
  have tokens := spaced.injective spacedOther done doneOther (apart tree) (apart other)
  exact (tree.tokens_injective other [] [] (congrArg (· ++ []) tokens)).1

end SequencedFeed.Json
