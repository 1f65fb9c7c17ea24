import SequencedFeed.Proofs.Json.Collections
set_option autoImplicit false

/-!
# Skipped values

A value that is skipped is a tree of any depth, and every tree is skipped. While it is, each open bracket has
some entries still to come; the invariant says what these are, from the innermost bracket on.
-/

namespace SequencedFeed.Json

/-- What is left of an open bracket. -/
inductive Pending
  | items (rest : List Tree)
  | members (rest : List (Spelling × Tree))

namespace Pending

def bracket : Pending → Bracket
  | .items _ => .list
  | .members _ => .object

/-- The entries that are left, the first of them perhaps the first of all, and the closing bracket. -/
def tokensFrom (first : Bool) : Pending → List Token
  | .items rest => itemTokens first rest ++ [.mark .closeList]
  | .members rest => memberTokens first rest ++ [.mark .closeObject]

def tree : Pending → Tree
  | .items rest => .list rest
  | .members rest => .object rest

end Pending

def pendingTokens (pendings : List Pending) : List Token :=
  pendings.flatMap (Pending.tokensFrom false)

def Bracket.opening : Bracket → Mark
  | .list => .openList
  | .object => .openObject

def Bracket.closingMark : Bracket → Mark
  | .list => .closeList
  | .object => .closeObject

theorem Bracket.closingMark_byte (bracket : Bracket) : bracket.closingMark.byte = bracket.closing := by
  cases bracket <;> rfl

/-- The bracket with nothing left in it. -/
def Bracket.empty : Bracket → Pending
  | .list => .items []
  | .object => .members []

theorem Bracket.empty_bracket (bracket : Bracket) : bracket.empty.bracket = bracket := by
  cases bracket <;> rfl

theorem Bracket.empty_tokens (bracket : Bracket) (first : Bool) :
    bracket.empty.tokensFrom first = [.mark bracket.closingMark] := by
  cases bracket <;> rfl

theorem Pending.tokensFrom_cons (first : Bool) (pending : Pending) :
    ∃ token tokens, pending.tokensFrom first = token :: tokens := by
  cases pending with
  | items rest =>
      rw [tokensFrom]
      cases itemTokens first rest <;> exact ⟨_, _, rfl⟩
  | members rest =>
      rw [tokensFrom]
      cases memberTokens first rest <;> exact ⟨_, _, rfl⟩

theorem Pending.tree_tokens (pending : Pending) :
    pending.tree.tokens = .mark pending.bracket.opening :: pending.tokensFrom true := by
  cases pending <;> rfl

theorem mayFollow_pending (pendings : List Pending) : MayFollow (pendingTokens pendings) := by
  cases pendings with
  | nil => trivial
  | cons pending pendings =>
      cases pending with
      | items rest =>
          rw [pendingTokens, List.flatMap_cons, Pending.tokensFrom, List.append_assoc]
          exact mayFollow_items rest ⟨.closeList, rfl⟩
      | members rest =>
          rw [pendingTokens, List.flatMap_cons, Pending.tokensFrom, List.append_assoc]
          exact mayFollow_members rest ⟨.closeObject, rfl⟩

/-! ### The first token of a value -/

theorem skipOpening_sound {input mid : List UInt8} {opening : Opening} (read : skipOpening input = .ok (opening, mid)) :
    (opening = .whole ∧ ∃ tree : Tree, Spaced tree.tokens input mid) ∨
      ∃ bracket, opening = .opened bracket ∧ Spaced [.mark bracket.opening] input mid := by
  unfold skipOpening at read
  cases starts : skipBlanks input with
  | nil => simp [starts] at read
  | cons next others =>
      have word {skipped : Reader Unit} {start : List UInt8} (goes : skipWord (next :: others) = skipped start)
          (read : (skipped start >>= fun result => Except.ok (Opening.whole, result.2)) = Except.ok (opening, mid)) :
          opening = .whole ∧ ∃ tree : Tree, Spaced tree.tokens input mid := by
        obtain ⟨⟨⟨⟩, behind⟩, taken, finish⟩ := bind_ok.mp read
        obtain ⟨rfl, rfl⟩ := Prod.mk.inj (Except.ok.inj finish)
        obtain ⟨spelled, same⟩ := exists_word (goes.trans taken)
        exact ⟨rfl, .word spelled, behind, starts.trans same, rfl⟩
      rw [starts] at read
      dsimp only at read
      by_cases isNull : next = byte 'n'
      · rw [if_pos isNull] at read
        exact .inl (word (by rw [isNull]; rfl) read)
      rw [if_neg isNull] at read
      by_cases isTrue : next = byte 't'
      · rw [if_pos isTrue] at read
        exact .inl (word (by rw [isTrue]; rfl) read)
      rw [if_neg isTrue] at read
      by_cases isFalse : next = byte 'f'
      · rw [if_pos isFalse] at read
        exact .inl (word (by rw [isFalse]; rfl) read)
      rw [if_neg isFalse] at read
      by_cases minus : next = byte '-'
      · rw [if_pos minus] at read
        exact .inl (word (by rw [minus]; rfl) read)
      rw [if_neg minus] at read
      by_cases digit : isDigit next = true
      · rw [if_pos digit] at read
        exact .inl (word (by simp only [skipWord, isNull, isTrue, isFalse, minus, if_false]) read)
      rw [if_neg digit] at read
      by_cases quote : next = byte '"'
      · rw [if_pos quote] at read
        obtain ⟨⟨⟨⟩, behind⟩, taken, finish⟩ := bind_ok.mp read
        obtain ⟨rfl, rfl⟩ := Prod.mk.inj (Except.ok.inj finish)
        obtain ⟨spelling, same⟩ := exists_spelling taken
        refine .inl ⟨rfl, .text spelling, behind, ?_, rfl⟩
        rw [starts, quote, same]
        simp [Token.bytes]
      rw [if_neg quote] at read
      split_ifs at read with isList isObject
      · obtain ⟨rfl, rfl⟩ := Prod.mk.inj (Except.ok.inj read)
        exact .inr ⟨.list, rfl, others, by rw [starts, isList]; rfl, rfl⟩
      · obtain ⟨rfl, rfl⟩ := Prod.mk.inj (Except.ok.inj read)
        exact .inr ⟨.object, rfl, others, by rw [starts, isObject]; rfl, rfl⟩

theorem skipOpening_word {spelled : Word} {input mid : List UInt8} (spaced : Spaced [.word spelled] input mid)
    (ends : EndsWord mid) : skipOpening input = .ok (.whole, mid) := by
  obtain ⟨behind, same, rfl⟩ := spaced
  have taken := spelled.takes behind ends
  rcases spelled.cases with rfl | rfl | rfl | ⟨next, letters, bytes, starts⟩
  · rw [skipOpening, same]
    exact bind_ok.mpr ⟨_, literal_eq.mpr rfl, rfl⟩
  · rw [skipOpening, same]
    exact bind_ok.mpr ⟨_, literal_eq.mpr rfl, rfl⟩
  · rw [skipOpening, same]
    exact bind_ok.mpr ⟨_, literal_eq.mpr rfl, rfl⟩
  · have isNull : next ≠ byte 'n' := ne_of_startsNumber starts (by decide)
    have isTrue : next ≠ byte 't' := ne_of_startsNumber starts (by decide)
    have isFalse : next ≠ byte 'f' := ne_of_startsNumber starts (by decide)
    simp only [Token.bytes, bytes, List.cons_append] at same taken
    simp only [skipWord, isNull, isTrue, isFalse, if_false] at taken
    simp only [skipOpening, same, isNull, isTrue, isFalse, if_false]
    by_cases minus : next = byte '-'
    · simp only [minus, if_true] at taken ⊢
      exact bind_ok.mpr ⟨_, taken, rfl⟩
    · have digit : isDigit next = true := by
        simpa [startsNumber, minus] using starts
      simp only [minus, digit, if_true, if_false] at taken ⊢
      exact bind_ok.mpr ⟨_, taken, rfl⟩

theorem skipOpening_text {spelling : Spelling} {input mid : List UInt8} (spaced : Spaced [.text spelling] input mid) :
    skipOpening input = .ok (.whole, mid) := by
  obtain ⟨behind, same, rfl⟩ := spaced
  have taken := spelling.skips behind
  simp only [Token.bytes, List.cons_append, List.append_assoc, List.nil_append] at same
  rw [skipOpening, same]
  exact bind_ok.mpr ⟨((), behind), taken, rfl⟩

theorem skipOpening_opens {bracket : Bracket} {input mid : List UInt8}
    (spaced : Spaced [.mark bracket.opening] input mid) : skipOpening input = .ok (.opened bracket, mid) := by
  rw [skipOpening, spaced_mark.mp spaced]
  cases bracket <;> rfl

/-! ### Brackets that close -/

/-- A key if the innermost bracket wants one, and then a value and all that is left. -/
def skipEntry (bound : List UInt8) (opened : List Bracket) : Reader Unit := fun input => do
  let ((), input) ← skipKey opened input
  skipValueWithin bound opened input

/-- What follows a value, or an opened bracket: closing brackets, and then perhaps a further entry. -/
def skipRest (bound : List UInt8) (enclosing : List Bracket) (commaWanted : Bool) : Reader Unit := fun input => do
  let (opened, input) ← skipClosings enclosing commaWanted input
  if opened = [] then return ((), input) else skipEntry bound opened input

theorem skipValueWithin_cons (one : UInt8) (bound : List UInt8) (enclosing : List Bracket) (input : List UInt8) :
    skipValueWithin (one :: bound) enclosing input = (do
      let (opening, input) ← skipOpening input
      match opening with
      | .whole => skipRest bound enclosing true input
      | .opened bracket => skipRest bound (bracket :: enclosing) false input) := by
  rw [skipValueWithin]
  cases skipOpening input with
  | error fault => rfl
  | ok result =>
      obtain ⟨opening, behind⟩ := result
      cases opening <;> rfl

section

variable {bound input behind rest : List UInt8} {bracket : Bracket} {outer : List Bracket} {commaWanted : Bool}

theorem skipRest_comma (starts : skipBlanks input = byte ',' :: behind) :
    skipRest bound (bracket :: outer) true input = skipEntry bound (bracket :: outer) behind := by
  rw [skipRest, skipClosings, starts]
  rfl

theorem skipRest_closing (starts : skipBlanks input = bracket.closing :: behind) :
    skipRest bound (bracket :: outer) commaWanted input = skipRest bound outer true behind := by
  rw [skipRest, skipClosings, starts]
  cases bracket <;> cases commaWanted <;> rfl

theorem skipRest_first {next : UInt8} {others : List UInt8} (starts : skipBlanks input = next :: others)
    (different : next ≠ bracket.closing) :
    skipRest bound (bracket :: outer) false input = skipEntry bound (bracket :: outer) (next :: others) := by
  rw [skipRest, skipClosings, starts]
  simp only [Bool.false_and, Bool.false_eq_true, different, if_false]
  rfl

theorem skipRest_cases (read : skipRest bound (bracket :: outer) commaWanted input = .ok ((), rest)) :
    (commaWanted = true ∧ ∃ behind, skipBlanks input = byte ',' :: behind ∧
        skipEntry bound (bracket :: outer) behind = .ok ((), rest)) ∨
      (∃ behind, skipBlanks input = bracket.closing :: behind ∧ skipRest bound outer true behind = .ok ((), rest)) ∨
      (commaWanted = false ∧ skipEntry bound (bracket :: outer) (skipBlanks input) = .ok ((), rest)) := by
  cases starts : skipBlanks input with
  | nil =>
      rw [skipRest, skipClosings, starts] at read
      cases read
  | cons next others =>
      by_cases closes : next = bracket.closing
      · subst closes
        exact .inr (.inl ⟨others, rfl, (skipRest_closing starts).symm.trans read⟩)
      cases commaWanted with
      | false => exact .inr (.inr ⟨rfl, (skipRest_first starts closes).symm.trans read⟩)
      | true =>
          by_cases comma : next = byte ','
          · subst comma
            exact .inl ⟨rfl, others, rfl, (skipRest_comma starts).symm.trans read⟩
          · rw [skipRest, skipClosings, starts] at read
            simp [comma, closes] at read
            cases read

end

/-! ### What is skipped -/

def Bracket.keyTokens (key : Spelling) : Bracket → List Token
  | .list => []
  | .object => [.text key, .mark .colon]

theorem skipKey_eq {bracket : Bracket} {opened : List Bracket} {input mid : List UInt8} :
    skipKey (bracket :: opened) input = .ok ((), mid) ↔ ∃ key, Spaced (bracket.keyTokens key) input mid := by
  cases bracket with
  | list =>
      constructor
      · intro read
        exact ⟨⟨[], rfl⟩, congrArg Prod.snd (Except.ok.inj read)⟩
      · rintro ⟨key, same⟩
        obtain rfl : input = mid := same
        rfl
  | object =>
      constructor
      · intro read
        unfold skipKey at read
        cases starts : skipBlanks input with
        | nil => simp [starts] at read
        | cons next others =>
            by_cases quote : next = byte '"'
            · simp only [starts, quote, if_true] at read
              obtain ⟨⟨⟨⟩, behind⟩, skipped, colons⟩ := bind_ok.mp read
              obtain ⟨key, rfl⟩ := exists_spelling skipped
              refine ⟨key, behind, ?_, colon_eq.mp colons⟩
              rw [starts, quote]
              simp [Token.bytes]
            · simp [starts, quote] at read
      · rintro ⟨key, behind, same, colons⟩
        simp only [Token.bytes, List.cons_append, List.append_assoc, List.nil_append] at same
        rw [skipKey, same]
        exact bind_ok.mpr ⟨((), behind), key.skips behind, colon_eq.mpr colons⟩

theorem Pending.exists_longer (pending : Pending) (key : Spelling) (tree : Tree) : ∃ longer : Pending,
    longer.bracket = pending.bracket ∧ longer.tokensFrom false = .mark .comma :: longer.tokensFrom true ∧
      longer.tokensFrom true = pending.bracket.keyTokens key ++ (tree.tokens ++ pending.tokensFrom false) := by
  cases pending with
  | items rest =>
      refine ⟨.items (tree :: rest), rfl, rfl, ?_⟩
      simp [tokensFrom, bracket, itemTokens, separator, Bracket.keyTokens]
  | members rest =>
      refine ⟨.members ((key, tree) :: rest), rfl, rfl, ?_⟩
      simp [tokensFrom, bracket, memberTokens, separator, Bracket.keyTokens]

section

variable {bound : List UInt8}
  (ih : ∀ {enclosing : List Bracket} {input rest : List UInt8}, input.length < bound.length →
    skipValueWithin bound enclosing input = .ok ((), rest) →
    ∃ (tree : Tree) (pendings : List Pending), pendings.map Pending.bracket = enclosing ∧
      Spaced (tree.tokens ++ pendingTokens pendings) input rest)
include ih

theorem skipEntry_sound {bracket : Bracket} {outer : List Bracket} {input rest : List UInt8}
    (long : input.length < bound.length) (read : skipEntry bound (bracket :: outer) input = .ok ((), rest)) :
    ∃ (pending : Pending) (pendings : List Pending), pending.bracket = bracket ∧
      pendings.map Pending.bracket = outer ∧
      pending.tokensFrom false = .mark .comma :: pending.tokensFrom true ∧
      Spaced (pending.tokensFrom true ++ pendingTokens pendings) input rest := by
  obtain ⟨⟨⟨⟩, mid⟩, keyed, valued⟩ := bind_ok.mp read
  obtain ⟨key, spacedKey⟩ := skipKey_eq.mp keyed
  have shorter := spacedKey.length_le
  have short : mid.length < bound.length := by omega
  obtain ⟨tree, pendings, brackets, spaced⟩ := ih short valued
  cases pendings with
  | nil => cases brackets
  | cons pending pendings =>
      obtain ⟨rfl, rfl⟩ := List.cons.inj brackets
      obtain ⟨longer, sameBracket, comma, tokens⟩ := pending.exists_longer key tree
      refine ⟨longer, pendings, sameBracket, rfl, comma, ?_⟩
      have whole := spaced_append.mpr ⟨mid, spacedKey, spaced⟩
      rw [tokens]
      simpa [pendingTokens] using whole

theorem skipRest_sound {enclosing : List Bracket} {input rest : List UInt8} (long : input.length ≤ bound.length)
    (read : skipRest bound enclosing true input = .ok ((), rest)) :
    ∃ pendings : List Pending, pendings.map Pending.bracket = enclosing ∧ Spaced (pendingTokens pendings) input rest := by
  -- closing brackets are dealt with one by one, and `ih` takes over at the next value
  induction enclosing generalizing input with
  | nil =>
      obtain ⟨-, rfl⟩ := Prod.mk.inj (Except.ok.inj read)
      exact ⟨[], rfl, rfl⟩
  | cons bracket outer inner =>
      have skipped := length_skipBlanks_le input
      rcases skipRest_cases read with ⟨-, behind, comma, entry⟩ | ⟨behind, closes, others⟩ | ⟨wanted, -⟩
      · rw [comma, List.length_cons] at skipped
        have short : behind.length < bound.length := by omega
        obtain ⟨pending, pendings, rfl, rfl, tokens, spaced⟩ := skipEntry_sound ih short entry
        refine ⟨pending :: pendings, rfl, ?_⟩
        rw [pendingTokens, List.flatMap_cons, tokens]
        exact ⟨behind, comma, spaced⟩
      · rw [closes, List.length_cons] at skipped
        obtain ⟨pendings, rfl, spaced⟩ := inner (by omega) others
        refine ⟨bracket.empty :: pendings, by rw [List.map_cons, bracket.empty_bracket], ?_⟩
        rw [pendingTokens, List.flatMap_cons, bracket.empty_tokens]
        refine ⟨behind, ?_, spaced⟩
        rw [closes, ← bracket.closingMark_byte]
        rfl
      · cases wanted

end

theorem skipValueWithin_sound {bound : List UInt8} {enclosing : List Bracket} {input rest : List UInt8}
    (long : input.length < bound.length) (read : skipValueWithin bound enclosing input = .ok ((), rest)) :
    ∃ (tree : Tree) (pendings : List Pending), pendings.map Pending.bracket = enclosing ∧
      Spaced (tree.tokens ++ pendingTokens pendings) input rest := by
  induction bound generalizing enclosing input rest with
  | nil => simp at long
  | cons one bound ih =>
      rw [List.length_cons] at long
      rw [skipValueWithin_cons] at read
      obtain ⟨⟨opening, mid⟩, first, behind⟩ := bind_ok.mp read
      rcases skipOpening_sound first with ⟨rfl, tree, spaced⟩ | ⟨bracket, rfl, spaced⟩
      · have shorter := Tree.length_lt spaced
        obtain ⟨pendings, brackets, others⟩ := skipRest_sound ih (by omega) behind
        exact ⟨tree, pendings, brackets, spaced_append.mpr ⟨mid, spaced, others⟩⟩
      · have shorter := spaced.length_lt
        have skipped := length_skipBlanks_le mid
        rcases skipRest_cases behind with ⟨wanted, -⟩ | ⟨after, closes, others⟩ | ⟨-, entry⟩
        · cases wanted
        · rw [closes, List.length_cons] at skipped
          obtain ⟨pendings, brackets, inside⟩ := skipRest_sound ih (by omega) others
          refine ⟨bracket.empty.tree, pendings, brackets, ?_⟩
          rw [bracket.empty.tree_tokens, bracket.empty_tokens, bracket.empty_bracket]
          refine spaced_append.mpr ⟨after, spaced_append.mpr ⟨mid, spaced, ?_⟩, inside⟩
          rw [spaced_mark, closes, bracket.closingMark_byte]
        · obtain ⟨pending, pendings, rfl, brackets, -, inside⟩ := skipEntry_sound ih (by omega) entry
          refine ⟨pending.tree, pendings, brackets, ?_⟩
          obtain ⟨token, tokens, same⟩ := pending.tokensFrom_cons true
          rw [same, List.cons_append, spaced_skipBlanks, ← List.cons_append, ← same] at inside
          rw [pending.tree_tokens]
          obtain ⟨after, opens, rfl⟩ := spaced
          exact ⟨after, opens, inside⟩

/-! ### What can be skipped -/

theorem Pending.empty_or_entry (pending : Pending) : pending = pending.bracket.empty ∨
    ∃ (shorter : Pending) (key : Spelling) (tree : Tree), shorter.bracket = pending.bracket ∧
      pending.tokensFrom false = .mark .comma :: pending.tokensFrom true ∧
      pending.tokensFrom true = shorter.bracket.keyTokens key ++ (tree.tokens ++ shorter.tokensFrom false) := by
  cases pending with
  | items rest =>
      cases rest with
      | nil => exact .inl rfl
      | cons tree rest =>
          refine .inr ⟨.items rest, ⟨[], rfl⟩, tree, rfl, rfl, ?_⟩
          simp [tokensFrom, bracket, itemTokens, separator, Bracket.keyTokens]
  | members rest =>
      cases rest with
      | nil => exact .inl rfl
      | cons member rest =>
          obtain ⟨key, tree⟩ := member
          refine .inr ⟨.members rest, key, tree, rfl, rfl, ?_⟩
          simp [tokensFrom, bracket, memberTokens, separator, Bracket.keyTokens]

section

variable {bound : List UInt8}
  (ih : ∀ {tree : Tree} {pendings : List Pending} {input rest : List UInt8}, input.length < bound.length →
    Spaced (tree.tokens ++ pendingTokens pendings) input rest → EndsWord rest →
    skipValueWithin bound (pendings.map Pending.bracket) input = .ok ((), rest))
include ih

theorem skipEntry_complete {pending : Pending} {pendings : List Pending} {key : Spelling} {tree : Tree}
    {input rest : List UInt8} (long : input.length < bound.length)
    (spaced : Spaced (pending.bracket.keyTokens key ++ (tree.tokens ++ pendingTokens (pending :: pendings))) input rest)
    (ends : EndsWord rest) :
    skipEntry bound (pending.bracket :: pendings.map Pending.bracket) input = .ok ((), rest) := by
  obtain ⟨mid, keyed, valued⟩ := spaced_append.mp spaced
  have shorter := keyed.length_le
  have short : mid.length < bound.length := by omega
  exact bind_ok.mpr ⟨_, skipKey_eq.mpr ⟨key, keyed⟩, ih short valued ends⟩

theorem skipRest_complete {pendings : List Pending} {input rest : List UInt8} (long : input.length ≤ bound.length)
    (spaced : Spaced (pendingTokens pendings) input rest) (ends : EndsWord rest) :
    skipRest bound (pendings.map Pending.bracket) true input = .ok ((), rest) := by
  -- closing brackets are dealt with one by one, and `ih` takes over at the next value
  induction pendings generalizing input with
  | nil =>
      obtain rfl : input = rest := spaced
      rfl
  | cons pending pendings inner =>
      have skipped := length_skipBlanks_le input
      rcases pending.empty_or_entry with empty | ⟨shorter, key, tree, brackets, comma, tokens⟩
      · rw [empty, pendingTokens, List.flatMap_cons, Bracket.empty_tokens] at spaced
        obtain ⟨behind, closes, others⟩ := spaced
        have starts : skipBlanks input = pending.bracket.closing :: behind := by
          rw [closes, ← Bracket.closingMark_byte]
          rfl
        rw [starts, List.length_cons] at skipped
        rw [List.map_cons, skipRest_closing starts]
        exact inner (by omega) others
      · rw [pendingTokens, List.flatMap_cons, comma, tokens, List.cons_append] at spaced
        obtain ⟨behind, separated, entry⟩ := spaced
        have starts : skipBlanks input = byte ',' :: behind := separated
        have whole : Spaced (shorter.bracket.keyTokens key ++ (tree.tokens ++ pendingTokens (shorter :: pendings)))
            behind rest := by
          simpa [pendingTokens] using entry
        rw [starts, List.length_cons] at skipped
        rw [List.map_cons, skipRest_comma starts, ← brackets]
        exact skipEntry_complete ih (by omega) whole ends

theorem skipRest_complete_first {pending : Pending} {pendings : List Pending} {input rest : List UInt8}
    (long : input.length < bound.length)
    (spaced : Spaced (pending.tokensFrom true ++ pendingTokens pendings) input rest) (ends : EndsWord rest) :
    skipRest bound (pending.bracket :: pendings.map Pending.bracket) false input = .ok ((), rest) := by
  have skipped := length_skipBlanks_le input
  rcases pending.empty_or_entry with empty | ⟨shorter, key, tree, brackets, comma, tokens⟩
  · rw [empty, Bracket.empty_tokens] at spaced
    obtain ⟨behind, closes, others⟩ := spaced
    have starts : skipBlanks input = pending.bracket.closing :: behind := by
      rw [closes, ← Bracket.closingMark_byte]
      rfl
    rw [starts, List.length_cons] at skipped
    rw [skipRest_closing starts]
    exact skipRest_complete ih (by omega) others ends
  · obtain ⟨token, after, entry, starts⟩ : ∃ token after, shorter.bracket.keyTokens key ++
        (tree.tokens ++ pendingTokens (shorter :: pendings)) = token :: after ∧ token.StartsValue := by
      obtain ⟨token, after, same, starts⟩ := tree.starts
      cases shorter.bracket with
      | list => exact ⟨token, _, by rw [same]; rfl, starts⟩
      | object => exact ⟨.text key, _, rfl, trivial⟩
    obtain ⟨next, others, bytes, notList, notObject⟩ := starts.other
    have whole : Spaced (token :: after) input rest := by
      rw [← entry]
      simpa [tokens, pendingTokens] using spaced
    obtain ⟨behind, same, -⟩ := id whole
    rw [bytes, List.cons_append] at same
    have different : next ≠ pending.bracket.closing := by
      cases pending.bracket with
      | list => exact notList
      | object => exact notObject
    rw [skipRest_first same different, ← same, ← brackets]
    rw [← spaced_skipBlanks, ← entry] at whole
    exact skipEntry_complete ih (by omega) whole ends

end

theorem skipValueWithin_complete {bound : List UInt8} {tree : Tree} {pendings : List Pending}
    {input rest : List UInt8} (long : input.length < bound.length)
    (spaced : Spaced (tree.tokens ++ pendingTokens pendings) input rest) (ends : EndsWord rest) :
    skipValueWithin bound (pendings.map Pending.bracket) input = .ok ((), rest) := by
  induction bound generalizing tree pendings input rest with
  | nil => simp at long
  | cons one bound ih =>
      rw [List.length_cons] at long
      have scalar {mid : List UInt8} (whole : Spaced tree.tokens input mid)
          (first : skipOpening input = .ok (.whole, mid)) (others : Spaced (pendingTokens pendings) mid rest) :
          skipValueWithin (one :: bound) (pendings.map Pending.bracket) input = .ok ((), rest) := by
        have shorter := Tree.length_lt whole
        rw [skipValueWithin_cons]
        exact bind_ok.mpr ⟨_, first, skipRest_complete ih (by omega) others ends⟩
      have opened (pending : Pending) (same : tree = pending.tree) :
          skipValueWithin (one :: bound) (pendings.map Pending.bracket) input = .ok ((), rest) := by
        rw [same, pending.tree_tokens] at spaced
        obtain ⟨mid, starts, inside⟩ := spaced
        have first : Spaced [.mark pending.bracket.opening] input mid := ⟨mid, starts, rfl⟩
        have shorter := first.length_lt
        rw [skipValueWithin_cons]
        exact bind_ok.mpr ⟨_, skipOpening_opens first, skipRest_complete_first ih (by omega) inside ends⟩
      cases tree with
      | word spelled =>
          obtain ⟨mid, whole, others⟩ := spaced_append.mp spaced
          exact scalar whole (skipOpening_word whole (others.endsWord (mayFollow_pending pendings) ends)) others
      | text spelling =>
          obtain ⟨mid, whole, others⟩ := spaced_append.mp spaced
          exact scalar whole (skipOpening_text whole) others
      | list items => exact opened (.items items) rfl
      | object members => exact opened (.members members) rfl

/-- Every tree can be skipped, however deep it is, and nothing else can. -/
theorem skipValue_reads : skipValue.Reads fun _ => some () where
  sound {input found rest} read := by
    have long : input.length < ((0 : UInt8) :: input).length := by simp
    obtain ⟨tree, pendings, none, spaced⟩ := skipValueWithin_sound long read
    rw [List.map_eq_nil_iff.mp none] at spaced
    exact ⟨tree, rfl, by simpa [pendingTokens] using spaced⟩
  complete {tree found input rest} _ spaced ends := by
    have long : input.length < ((0 : UInt8) :: input).length := by simp
    have whole : Spaced (tree.tokens ++ pendingTokens []) input rest := by
      simpa [pendingTokens] using spaced
    exact skipValueWithin_complete long whole ends

end SequencedFeed.Json
