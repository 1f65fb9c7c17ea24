import SequencedFeed.Proofs.Json.Reading
set_option autoImplicit false

/-!
# Lists and objects

The loops over items and members take one entry after the other, each but the first behind a comma, and stop
before the closing bracket. What they find is what the entries mean, in their order.
-/

namespace SequencedFeed.Json

variable {α : Type}

/-! ### Marks -/

theorem spaced_mark {sign : Mark} {input rest : List UInt8} :
    Spaced [.mark sign] input rest ↔ skipBlanks input = sign.byte :: rest := by
  simp only [Spaced, Token.bytes, List.cons_append, List.nil_append, exists_eq_right]

theorem closeList_eq {input rest : List UInt8} :
    closeList input = (.ok (), rest) ↔ Spaced [.mark .closeList] input rest := by
  rw [spaced_mark, closeList, Mark.byte]
  cases skipBlanks input with
  | nil => simp
  | cons next others =>
      by_cases closes : next = byte ']'
      · simp [closes]
      · simp only [closes, if_false, List.cons.injEq, false_and, iff_false]
        split_ifs
        · cases skipBlanks others with
          | nil => simp
          | cons second after =>
              dsimp only
              split_ifs <;> simp
        · simp

theorem closeObject_eq {input rest : List UInt8} :
    closeObject input = (.ok (), rest) ↔ Spaced [.mark .closeObject] input rest := by
  rw [spaced_mark, closeObject, Mark.byte]
  cases skipBlanks input with
  | nil => simp
  | cons next others =>
      by_cases closes : next = byte '\x7d'
      · simp [closes]
      · simp only [closes, if_false, List.cons.injEq, false_and, iff_false]
        split_ifs <;> simp

theorem colon_eq {input rest : List UInt8} : colon input = .ok ((), rest) ↔ Spaced [.mark .colon] input rest := by
  rw [spaced_mark, colon, Mark.byte]
  cases skipBlanks input with
  | nil => simp
  | cons next others =>
      by_cases found : next = byte ':' <;> simp [found]

theorem closing_eq {value found : α} {close : Except Fault Unit × List UInt8} {rest : List UInt8} :
    closing value close = .ok (found, rest) ↔ value = found ∧ close = (.ok (), rest) := by
  obtain ⟨result, behind⟩ := close
  cases result with
  | ok done => simp [closing]
  | error fault => simp [closing]

theorem Token.StartsValue.other {token : Token} (starts : token.StartsValue) :
    ∃ next others, token.bytes = next :: others ∧ next ≠ byte ']' ∧ next ≠ byte '\x7d' := by
  cases token with
  | mark sign =>
      refine ⟨sign.byte, [], rfl, ?_⟩
      rcases starts with rfl | rfl <;> decide
  | text spelling => exact ⟨byte '"', _, rfl, by decide, by decide⟩
  | word spelled =>
      obtain ⟨next, others, same, -, -, unmarked⟩ := spelled.starts
      exact ⟨next, others, same, unmarked .closeList, unmarked .closeObject⟩

section

variable {first : Bool} {input mid rest : List UInt8} {token : Token} {tokens : List Token}

theorem nextItem_end (read : nextItem first input = .ok (false, mid)) :
    mid = skipBlanks input ∧ ∃ behind, skipBlanks input = byte ']' :: behind := by
  unfold nextItem at read
  generalize skipBlanks input = starts at read ⊢
  cases starts with
  | nil => simp at read
  | cons next others =>
      dsimp only at read
      split_ifs at read with closes
      · exact ⟨(congrArg Prod.snd (Except.ok.inj read)).symm, others, by rw [closes]⟩
      · cases (congrArg Prod.fst (Except.ok.inj read))
      · cases behind : skipBlanks others with
        | nil => simp [behind] at read
        | cons second after =>
            rw [behind] at read
            dsimp only at read
            split_ifs at read
            cases (congrArg Prod.fst (Except.ok.inj read))

theorem nextItem_closes (spaced : Spaced (.mark .closeList :: tokens) input rest) :
    nextItem first input = .ok (false, skipBlanks input) := by
  obtain ⟨behind, same, -⟩ := spaced
  simp only [Token.bytes, Mark.byte, List.cons_append, List.nil_append] at same
  simp only [nextItem, same, if_true]

theorem nextItem_sound (read : nextItem first input = .ok (true, mid)) (spaced : Spaced (token :: tokens) mid rest) :
    Spaced (separator first ++ token :: tokens) input rest := by
  unfold nextItem at read
  cases starts : skipBlanks input with
  | nil => simp [starts] at read
  | cons next others =>
      by_cases closes : next = byte ']'
      · simp [starts, closes] at read
      cases first with
      | true =>
          simp only [starts, closes, if_true, if_false, Except.ok.injEq, Prod.mk.injEq, true_and] at read
          rw [← read, ← starts, spaced_skipBlanks] at spaced
          exact spaced
      | false =>
          by_cases comma : next = byte ','
          · subst comma
            simp only [starts, closes, if_true, if_false, Bool.false_eq_true] at read
            refine ⟨others, starts, spaced_skipBlanks.mp ?_⟩
            cases behind : skipBlanks others with
            | nil => simp [behind] at read
            | cons second after =>
                by_cases closesNext : second = byte ']'
                · simp [behind, closesNext] at read
                · simp only [behind, closesNext, if_false, Except.ok.injEq, Prod.mk.injEq, true_and] at read
                  rw [read]
                  exact spaced
          · simp [starts, closes, comma] at read

theorem nextItem_complete (spaced : Spaced (separator first ++ token :: tokens) input rest)
    (starts : token.StartsValue) : ∃ mid, nextItem first input = .ok (true, mid) ∧ Spaced (token :: tokens) mid rest := by
  obtain ⟨next, others, bytes, different, -⟩ := starts.other
  cases first with
  | true =>
      have whole : Spaced (token :: tokens) input rest := spaced
      obtain ⟨behind, same, -⟩ := spaced
      refine ⟨skipBlanks input, ?_, spaced_skipBlanks.mpr whole⟩
      rw [bytes, List.cons_append] at same
      simp only [nextItem, same, different, if_true, if_false]
  | false =>
      obtain ⟨behind, comma, whole⟩ := spaced
      refine ⟨skipBlanks behind, ?_, spaced_skipBlanks.mpr whole⟩
      obtain ⟨after, same, -⟩ := whole
      have other : byte ',' ≠ byte ']' := by decide
      simp only [Token.bytes, Mark.byte, List.cons_append, List.nil_append] at comma
      rw [bytes, List.cons_append] at same
      simp only [nextItem, comma, same, other, different, Bool.false_eq_true, if_true, if_false]

end

/-! ### Lists -/

theorem Spaced.length_lt {token : Token} {tokens : List Token} {input rest : List UInt8}
    (spaced : Spaced (token :: tokens) input rest) : rest.length < input.length := by
  have shorter := spaced.length_le
  rw [List.length_cons] at shorter
  omega

theorem Tree.length_lt {tree : Tree} {input rest : List UInt8} (spaced : Spaced tree.tokens input rest) :
    rest.length < input.length := by
  obtain ⟨token, tokens, same, -⟩ := tree.starts
  rw [same] at spaced
  exact spaced.length_lt

/-- An item that was read stands before those that are read behind it. -/
theorem item_sound {first : Bool} {input start behind rest : List UInt8} {tree : Tree} {items : List Tree}
    {token : Token} {tokens : List Token} (next : nextItem first input = .ok (true, start))
    (spaced : Spaced tree.tokens start behind) (others : Spaced (itemTokens false items ++ token :: tokens) behind rest) :
    Spaced (itemTokens first (tree :: items) ++ token :: tokens) input rest := by
  have all := spaced_append.mpr ⟨behind, spaced, others⟩
  obtain ⟨opening, inside, same, -⟩ := tree.starts
  rw [same] at all
  have whole := nextItem_sound next all
  simpa [itemTokens, same] using whole

theorem item_complete {first : Bool} {input rest : List UInt8} {tree : Tree} {items : List Tree} {tokens : List Token}
    (spaced : Spaced (itemTokens first (tree :: items) ++ .mark .closeList :: tokens) input rest) (ends : EndsWord rest) :
    ∃ start behind, nextItem first input = .ok (true, start) ∧ Spaced tree.tokens start behind ∧ EndsWord behind ∧
      Spaced (itemTokens false items ++ .mark .closeList :: tokens) behind rest ∧ behind.length < input.length := by
  rw [itemTokens, ← List.append_assoc, List.append_assoc] at spaced
  obtain ⟨behind, item, others⟩ := spaced_append.mp spaced
  obtain ⟨token, after, begins, starts⟩ := tree.starts
  rw [begins] at item
  have shorter := item.length_le
  rw [List.length_append, List.length_cons] at shorter
  obtain ⟨start, next, taken⟩ := nextItem_complete item starts
  rw [← begins] at taken
  exact ⟨start, behind, next, taken, others.endsWord (mayFollow_items items ⟨.closeList, rfl⟩) ends, others, by omega⟩

section

variable {item : Reader α} {meaning : Tree → Option α} (reads : item.Reads meaning)
include reads

theorem itemsWithin_sound {bound input mid : List UInt8} {first : Bool} {values : List α}
    (long : input.length < bound.length) (read : itemsWithin item bound first input = .ok (values, mid)) :
    ∃ trees, trees.mapM meaning = some values ∧ ∀ {token tokens rest}, Spaced (token :: tokens) mid rest →
      Spaced (itemTokens first trees ++ token :: tokens) input rest := by
  induction bound generalizing first input values with
  | nil => simp at long
  | cons one bound ih =>
      obtain ⟨⟨more, start⟩, next, read⟩ := bind_ok.mp read
      cases more with
      | false =>
          obtain ⟨rfl, -⟩ := nextItem_end next
          obtain ⟨rfl, rfl⟩ := Prod.mk.inj (Except.ok.inj read)
          exact ⟨[], rfl, fun spaced => spaced_skipBlanks.mp spaced⟩
      | true =>
          obtain ⟨⟨value, behind⟩, taken, goesOn⟩ := bind_ok.mp read
          obtain ⟨⟨values, after⟩, others, finish⟩ := bind_ok.mp goesOn
          obtain ⟨rfl, rfl⟩ := Prod.mk.inj (Except.ok.inj finish)
          obtain ⟨tree, means, spaced⟩ := reads.sound taken
          have shorter : behind.length < bound.length := by
            obtain ⟨token, tokens, same, -⟩ := tree.starts
            rw [same] at spaced
            have within := (nextItem_sound next spaced).length_le
            simp only [List.length_append, List.length_cons] at within long
            omega
          obtain ⟨trees, mean, spacedOthers⟩ := ih shorter others
          exact ⟨tree :: trees, by simp [List.mapM_cons, means, mean], fun closes =>
            item_sound next spaced (spacedOthers closes)⟩

theorem itemsWithin_complete {trees : List Tree} {values : List α} (mean : trees.mapM meaning = some values)
    {first : Bool} {bound input rest : List UInt8} {tokens : List Token}
    (spaced : Spaced (itemTokens first trees ++ .mark .closeList :: tokens) input rest) (ends : EndsWord rest)
    (long : input.length < bound.length) :
    ∃ mid, itemsWithin item bound first input = .ok (values, mid) ∧ Spaced (.mark .closeList :: tokens) mid rest := by
  induction trees generalizing first bound input values with
  | nil =>
      obtain rfl : [] = values := Option.some.inj mean
      cases bound with
      | nil => simp at long
      | cons one bound =>
          refine ⟨skipBlanks input, ?_, spaced_skipBlanks.mpr spaced⟩
          exact bind_ok.mpr ⟨_, nextItem_closes spaced, rfl⟩
  | cons tree trees ih =>
      rw [List.mapM_cons] at mean
      obtain ⟨value, means, mapped⟩ := Option.bind_eq_some_iff.mp mean
      obtain ⟨values, meanOthers, same⟩ := Option.bind_eq_some_iff.mp mapped
      obtain rfl := Option.some.inj same
      obtain ⟨start, behind, next, taken, stops, others, shorter⟩ := item_complete spaced ends
      cases bound with
      | nil => simp at long
      | cons one bound =>
          rw [List.length_cons] at long
          have short : behind.length < bound.length := by omega
          obtain ⟨mid, goesOn, closes⟩ := ih meanOthers others short
          refine ⟨mid, bind_ok.mpr ⟨_, next, ?_⟩, closes⟩
          exact bind_ok.mpr ⟨_, reads.complete means taken stops, bind_ok.mpr ⟨_, goesOn, rfl⟩⟩

variable {β : Type} (make : List α → β) {input rest : List UInt8} {found : β}

theorem items_sound
    (read : (items item input >>= fun taken => closing (make taken.1) (closeList taken.2)) = Except.ok (found, rest)) :
    ∃ trees, (trees.mapM meaning).map make = some found ∧
      Spaced (itemTokens true trees ++ [.mark .closeList]) input rest := by
  have long : input.length < ((0 : UInt8) :: input).length := by simp
  obtain ⟨⟨values, behind⟩, within, closes⟩ := bind_ok.mp read
  obtain ⟨trees, mean, spaced⟩ := itemsWithin_sound reads long within
  obtain ⟨rfl, closed⟩ := closing_eq.mp closes
  exact ⟨trees, by rw [mean]; rfl, spaced (closeList_eq.mp closed)⟩

theorem items_complete {trees : List Tree} (made : (trees.mapM meaning).map make = some found)
    (spaced : Spaced (itemTokens true trees ++ [.mark .closeList]) input rest) (ends : EndsWord rest) :
    (items item input >>= fun taken => closing (make taken.1) (closeList taken.2)) = Except.ok (found, rest) := by
  obtain ⟨values, mean, rfl⟩ := Option.map_eq_some_iff.mp made
  have long : input.length < ((0 : UInt8) :: input).length := by simp
  obtain ⟨mid, within, closes⟩ := itemsWithin_complete reads mean spaced ends long
  exact bind_ok.mpr ⟨_, within, closing_eq.mpr ⟨rfl, closeList_eq.mpr closes⟩⟩

end

def Tree.list? (budget : Nat) (meaning : Nat → Tree → Option α) : Tree → Option (List α)
  | .list items => if budget ≤ 1 then none else items.mapM (meaning (budget - 1))
  | _ => none

theorem listValue_reads {item : Nat → Reader α} {meaning : Nat → Tree → Option α}
    (reads : ∀ budget, (item budget).Reads (meaning budget)) (budget : Nat) :
    (listValue budget item).Reads (Tree.list? budget meaning) where
  sound {input found rest} read := by
    unfold listValue at read
    cases starts : skipBlanks input with
    | nil => simp [starts] at read
    | cons next others =>
        by_cases opens : next = byte '['
        · by_cases deep : budget ≤ 1
          · simp [starts, opens, list, nested, deep] at read
          · simp only [starts, opens, list, nested, deep, if_true, if_false, List.tail_cons] at read
            obtain ⟨trees, mean, spaced⟩ := items_sound (reads (budget - 1)) id read
            rw [Option.map_id] at mean
            refine ⟨.list trees, by rw [Tree.list?, if_neg deep]; exact mean, others, ?_, spaced⟩
            rw [starts, opens]
            rfl
        · simp [starts, opens] at read
  complete {tree found input rest} means spaced ends := by
    cases tree with
    | list trees =>
        obtain ⟨behind, same, spaced⟩ := spaced
        simp only [Token.bytes, Mark.byte, List.cons_append, List.nil_append] at same
        by_cases deep : budget ≤ 1
        · simp [Tree.list?, deep] at means
        · rw [Tree.list?, if_neg deep] at means
          simp only [listValue, same, list, nested, deep, if_true, if_false, List.tail_cons]
          exact items_complete (reads (budget - 1)) id (by rw [means]; rfl) spaced ends
    | word spelled => cases means
    | text spelling => cases means
    | object members => cases means

/-! ### Objects -/

section

variable {first : Bool} {input mid rest : List UInt8} {tokens : List Token}

theorem nextKey_end (read : nextKey first input = .ok (false, mid)) : mid = skipBlanks input := by
  unfold nextKey at read
  generalize skipBlanks input = starts at read ⊢
  cases starts with
  | nil => simp at read
  | cons next others =>
      dsimp only at read
      split_ifs at read
      · exact (congrArg Prod.snd (Except.ok.inj read)).symm
      · cases (congrArg Prod.fst (Except.ok.inj read))
      · cases behind : skipBlanks others with
        | nil => simp [behind] at read
        | cons second after =>
            rw [behind] at read
            dsimp only at read
            split_ifs at read
            cases (congrArg Prod.fst (Except.ok.inj read))

theorem nextKey_closes (spaced : Spaced (.mark .closeObject :: tokens) input rest) :
    nextKey first input = .ok (false, skipBlanks input) := by
  obtain ⟨behind, same, -⟩ := spaced
  simp only [Token.bytes, Mark.byte, List.cons_append, List.nil_append] at same
  simp only [nextKey, same, if_true]

theorem nextKey_sound {spelling : Spelling} {after : List UInt8}
    (read : nextKey first input = .ok (true, spelling.bytes ++ byte '"' :: after)) (spaced : Spaced tokens after rest) :
    Spaced (separator first ++ .text spelling :: tokens) input rest := by
  have key {input others : List UInt8} (starts : skipBlanks input = byte '"' :: others)
      (same : others = spelling.bytes ++ byte '"' :: after) : Spaced (.text spelling :: tokens) input rest := by
    refine ⟨after, ?_, spaced⟩
    rw [starts, same]
    simp [Token.bytes]
  unfold nextKey at read
  cases starts : skipBlanks input with
  | nil => simp [starts] at read
  | cons next others =>
      by_cases closes : next = byte '\x7d'
      · simp [starts, closes] at read
      cases first with
      | true =>
          by_cases quote : next = byte '"'
          · subst quote
            simp only [starts, closes, if_true, if_false, Except.ok.injEq, Prod.mk.injEq, true_and] at read
            exact key starts read
          · simp [starts, closes, quote] at read
      | false =>
          by_cases comma : next = byte ','
          · subst comma
            simp only [starts, closes, if_true, if_false, Bool.false_eq_true] at read
            refine ⟨others, starts, ?_⟩
            cases behind : skipBlanks others with
            | nil => simp [behind] at read
            | cons second after =>
                by_cases quote : second = byte '"'
                · subst quote
                  simp only [behind, if_true, Except.ok.injEq, Prod.mk.injEq, true_and] at read
                  exact key behind read
                · simp only [behind, quote, if_false] at read
                  split_ifs at read
          · simp [starts, closes, comma] at read

theorem nextKey_complete {spelling : Spelling} (spaced : Spaced (separator first ++ .text spelling :: tokens) input rest) :
    ∃ after, nextKey first input = .ok (true, spelling.bytes ++ byte '"' :: after) ∧ Spaced tokens after rest := by
  have quote : byte '"' ≠ byte '\x7d' := by decide
  have comma : byte ',' ≠ byte '\x7d' := by decide
  cases first with
  | true =>
      obtain ⟨after, same, others⟩ := spaced
      refine ⟨after, ?_, others⟩
      simp only [Token.bytes, List.cons_append, List.append_assoc, List.nil_append] at same
      simp only [nextKey, same, quote, if_true, if_false]
  | false =>
      obtain ⟨behind, starts, after, same, others⟩ := spaced
      refine ⟨after, ?_, others⟩
      simp only [Token.bytes, Mark.byte, List.cons_append, List.append_assoc, List.nil_append] at starts same
      simp only [nextKey, starts, same, comma, Bool.false_eq_true, if_true, if_false]

end

theorem key_sound {first : Bool} {input start behind mid : List UInt8} {key : String}
    (next : nextKey first input = .ok (true, start)) (token : stringToken start = .ok (key, behind))
    (colons : colon behind = .ok ((), mid)) :
    ∃ spelling : Spelling, spelling.text? = some key ∧ ∀ {tokens rest}, Spaced tokens mid rest →
      Spaced (separator first ++ .text spelling :: .mark .colon :: tokens) input rest := by
  obtain ⟨spelling, rfl, isText⟩ := exists_text token
  refine ⟨spelling, isText, fun spaced => nextKey_sound next ?_⟩
  exact spaced_append.mpr ⟨mid, colon_eq.mp colons, spaced⟩

theorem key_complete {first : Bool} {input rest : List UInt8} {spelling : Spelling} {key : String}
    {tokens : List Token} (isText : spelling.text? = some key)
    (spaced : Spaced (separator first ++ .text spelling :: .mark .colon :: tokens) input rest) :
    ∃ start behind mid, nextKey first input = .ok (true, start) ∧ stringToken start = .ok (key, behind) ∧
      colon behind = .ok ((), mid) ∧ Spaced tokens mid rest := by
  obtain ⟨behind, next, after⟩ := nextKey_complete spaced
  obtain ⟨mid, colons, others⟩ := spaced_append.mp (show Spaced ([.mark .colon] ++ tokens) behind rest from after)
  exact ⟨_, behind, mid, next, Spelling.reads isText behind, colon_eq.mpr colons, others⟩

theorem key_length_lt {first : Bool} {input start behind mid : List UInt8} {key : String}
    (next : nextKey first input = .ok (true, start)) (token : stringToken start = .ok (key, behind))
    (colons : colon behind = .ok ((), mid)) : mid.length < input.length := by
  obtain ⟨spelling, -, spaced⟩ := key_sound next token colons
  have here : Spaced [] mid mid := rfl
  have keyed := (spaced here).length_le
  simp only [List.length_append, List.length_cons] at keyed
  omega

/-- The first member of those that are left can be read up to its value, and the others stand behind that. -/
theorem member_complete {first : Bool} {input rest : List UInt8} {spelling : Spelling} {key : String} {tree : Tree}
    {members : List (Spelling × Tree)} {tokens : List Token} (isText : spelling.text? = some key)
    (spaced : Spaced (memberTokens first ((spelling, tree) :: members) ++ .mark .closeObject :: tokens) input rest)
    (ends : EndsWord rest) :
    ∃ start behindKey mid behind, nextKey first input = .ok (true, start) ∧ stringToken start = .ok (key, behindKey) ∧
      colon behindKey = .ok ((), mid) ∧ Spaced tree.tokens mid behind ∧ EndsWord behind ∧
      Spaced (memberTokens false members ++ .mark .closeObject :: tokens) behind rest ∧
      behind.length < input.length := by
  rw [memberTokens, List.append_assoc, List.cons_append, List.cons_append, List.append_assoc] at spaced
  obtain ⟨start, behindKey, mid, next, token, colons, after⟩ := key_complete isText spaced
  obtain ⟨behind, held, others⟩ := spaced_append.mp after
  have keyed := key_length_lt next token colons
  have valued := Tree.length_lt held
  exact ⟨start, behindKey, mid, behind, next, token, colons, held,
    others.endsWord (mayFollow_members members ⟨.closeObject, rfl⟩) ends, others, by omega⟩

def Tree.member? (meaning : Tree → Option α) (member : Spelling × Tree) : Option (String × α) := do
  let key ← member.1.text?
  let value ← meaning member.2
  return (key, value)

section

variable {value : Reader Json} {meaning : Tree → Option Json} (reads : value.Reads meaning)
include reads

theorem membersWithin_sound {bound input mid : List UInt8} {first : Bool} {found : List (String × Json)}
    (long : input.length < bound.length) (read : membersWithin value bound first input = .ok (found, mid)) :
    ∃ members, members.mapM (Tree.member? meaning) = some found ∧ ∀ {token tokens rest},
      Spaced (token :: tokens) mid rest → Spaced (memberTokens first members ++ token :: tokens) input rest := by
  induction bound generalizing first input found with
  | nil => simp at long
  | cons one bound ih =>
      obtain ⟨⟨more, start⟩, next, read⟩ := bind_ok.mp read
      cases more with
      | false =>
          obtain rfl := nextKey_end next
          obtain ⟨rfl, rfl⟩ := Prod.mk.inj (Except.ok.inj read)
          exact ⟨[], rfl, fun spaced => spaced_skipBlanks.mp spaced⟩
      | true =>
          obtain ⟨⟨key, behindKey⟩, token, read⟩ := bind_ok.mp read
          obtain ⟨⟨⟨⟩, behindColon⟩, colons, read⟩ := bind_ok.mp read
          obtain ⟨⟨held, behind⟩, taken, read⟩ := bind_ok.mp read
          obtain ⟨⟨others, after⟩, goesOn, finish⟩ := bind_ok.mp read
          obtain ⟨rfl, rfl⟩ := Prod.mk.inj (Except.ok.inj finish)
          obtain ⟨spelling, isText, spacedKey⟩ := key_sound next token colons
          obtain ⟨tree, means, spaced⟩ := reads.sound taken
          have shorter : behind.length < bound.length := by
            have keyed := key_length_lt next token colons
            have valued := Tree.length_lt spaced
            rw [List.length_cons] at long
            omega
          obtain ⟨members, mean, spacedOthers⟩ := ih shorter goesOn
          refine ⟨(spelling, tree) :: members, ?_, fun closes => ?_⟩
          · simp [List.mapM_cons, Tree.member?, isText, means, mean]
          · have whole := spacedKey (spaced_append.mpr ⟨behind, spaced, spacedOthers closes⟩)
            simpa [memberTokens] using whole

theorem membersWithin_complete {members : List (Spelling × Tree)} {found : List (String × Json)}
    (mean : members.mapM (Tree.member? meaning) = some found)
    {first : Bool} {bound input rest : List UInt8} {tokens : List Token}
    (spaced : Spaced (memberTokens first members ++ .mark .closeObject :: tokens) input rest) (ends : EndsWord rest)
    (long : input.length < bound.length) :
    ∃ mid, membersWithin value bound first input = .ok (found, mid) ∧
      Spaced (.mark .closeObject :: tokens) mid rest := by
  induction members generalizing first bound input found with
  | nil =>
      obtain rfl : [] = found := Option.some.inj mean
      cases bound with
      | nil => simp at long
      | cons one bound =>
          refine ⟨skipBlanks input, ?_, spaced_skipBlanks.mpr spaced⟩
          exact bind_ok.mpr ⟨_, nextKey_closes spaced, rfl⟩
  | cons member members ih =>
      obtain ⟨spelling, tree⟩ := member
      rw [List.mapM_cons] at mean
      obtain ⟨⟨key, held⟩, meansMember, mapped⟩ := Option.bind_eq_some_iff.mp mean
      obtain ⟨others, meanOthers, same⟩ := Option.bind_eq_some_iff.mp mapped
      obtain rfl := Option.some.inj same
      obtain ⟨text, isText, makes⟩ := Option.bind_eq_some_iff.mp meansMember
      obtain ⟨json, means, pair⟩ := Option.bind_eq_some_iff.mp makes
      obtain ⟨rfl, rfl⟩ := Prod.mk.inj (Option.some.inj pair)
      obtain ⟨start, behindKey, mid, behind, next, token, colons, held, stops, spacedOthers, shorter⟩ :=
        member_complete isText spaced ends
      cases bound with
      | nil => simp at long
      | cons one bound =>
          have short : behind.length < bound.length := by
            rw [List.length_cons] at long
            omega
          obtain ⟨last, goesOn, closes⟩ := ih meanOthers spacedOthers short
          refine ⟨last, bind_ok.mpr ⟨_, next, bind_ok.mpr ⟨_, token, bind_ok.mpr ⟨_, colons, ?_⟩⟩⟩, closes⟩
          exact bind_ok.mpr ⟨_, reads.complete means held stops, bind_ok.mpr ⟨_, goesOn, rfl⟩⟩

variable {input rest : List UInt8} {found : Json}

theorem members_sound
    (read : (members value input >>= fun taken => closing (ofMembers taken.1) (closeObject taken.2)) =
      Except.ok (found, rest)) :
    ∃ members, (members.mapM (Tree.member? meaning)).map ofMembers = some found ∧
      Spaced (memberTokens true members ++ [.mark .closeObject]) input rest := by
  have long : input.length < ((0 : UInt8) :: input).length := by simp
  obtain ⟨⟨values, behind⟩, within, closes⟩ := bind_ok.mp read
  obtain ⟨trees, mean, spaced⟩ := membersWithin_sound reads long within
  obtain ⟨rfl, closed⟩ := closing_eq.mp closes
  exact ⟨trees, by rw [mean]; rfl, spaced (closeObject_eq.mp closed)⟩

theorem members_complete {trees : List (Spelling × Tree)}
    (made : (trees.mapM (Tree.member? meaning)).map ofMembers = some found)
    (spaced : Spaced (memberTokens true trees ++ [.mark .closeObject]) input rest) (ends : EndsWord rest) :
    (members value input >>= fun taken => closing (ofMembers taken.1) (closeObject taken.2)) =
      Except.ok (found, rest) := by
  obtain ⟨values, mean, rfl⟩ := Option.map_eq_some_iff.mp made
  have long : input.length < ((0 : UInt8) :: input).length := by simp
  obtain ⟨mid, within, closes⟩ := membersWithin_complete reads mean spaced ends long
  exact bind_ok.mpr ⟨_, within, closing_eq.mpr ⟨rfl, closeObject_eq.mpr closes⟩⟩

end

/-! ### Values of any kind -/

def Word.value? (word : Word) : Option Json :=
  if word = Word.null then some .null
  else if word = Word.true then some (.bool true)
  else if word = Word.false then some (.bool false)
  else word.number?.map .number

def Tree.value? : Nat → Tree → Option Json
  | 0, _ => none
  | _ + 1, .word spelled => spelled.value?
  | _ + 1, .text spelling => spelling.text?.map .string
  | budget + 1, .list items => if budget = 0 then none else (items.mapM (value? budget)).map .array
  | budget + 1, .object members =>
      if budget = 0 then none else (members.mapM (member? (value? budget))).map ofMembers

theorem Word.value?_of_starts {word : Word} {next : UInt8} {rest : List UInt8} (same : word.bytes = next :: rest)
    (starts : startsNumber next = true) : word.value? = word.number?.map .number := by
  have other {literal : Word} {letter : UInt8} {letters : List UInt8} (bytes : literal.bytes = letter :: letters)
      (differs : startsNumber letter = false) : word ≠ literal := by
    rintro rfl
    obtain ⟨rfl, -⟩ := List.cons.inj (same.symm.trans bytes)
    rw [differs] at starts
    cases starts
  have isNull : word ≠ Word.null := other rfl (by decide)
  have isTrue : word ≠ Word.true := other rfl (by decide)
  have isFalse : word ≠ Word.false := other rfl (by decide)
  simp only [value?, isNull, isTrue, isFalse, if_false]

section

variable {budget : Nat} {input rest : List UInt8} {found : Json}

theorem literalValue_sound {word : Word} {next : UInt8} {letters others : List UInt8} {json : Json}
    (bytes : word.bytes = next :: letters) (starts : skipBlanks input = next :: others)
    (read : (literal letters others >>= fun result => Except.ok (json, result.2)) = Except.ok (found, rest)) :
    found = json ∧ Spaced [.word word] input rest := by
  obtain ⟨⟨⟨⟩, behind⟩, token, finish⟩ := bind_ok.mp read
  obtain ⟨rfl, rfl⟩ := Prod.mk.inj (Except.ok.inj finish)
  refine ⟨rfl, behind, ?_, rfl⟩
  rw [starts, literal_eq.mp token, Token.bytes, bytes]
  rfl

theorem value_sound (inner : (value budget).Reads (Tree.value? budget))
    (read : value (budget + 1) input = .ok (found, rest)) :
    ∃ tree : Tree, tree.value? (budget + 1) = some found ∧ Spaced tree.tokens input rest := by
  unfold value at read
  cases starts : skipBlanks input with
  | nil => simp [starts] at read
  | cons next others =>
      rw [starts] at read
      dsimp only at read
      by_cases isNull : next = byte 'n'
      · rw [if_pos isNull] at read
        have bytes : Word.null.bytes = next :: nullLetters := by rw [isNull]; rfl
        obtain ⟨rfl, spaced⟩ := literalValue_sound bytes starts read
        exact ⟨.word Word.null, rfl, spaced⟩
      rw [if_neg isNull] at read
      by_cases isTrue : next = byte 't'
      · rw [if_pos isTrue] at read
        have bytes : Word.true.bytes = next :: trueLetters := by rw [isTrue]; rfl
        obtain ⟨rfl, spaced⟩ := literalValue_sound bytes starts read
        exact ⟨.word Word.true, rfl, spaced⟩
      rw [if_neg isTrue] at read
      by_cases isFalse : next = byte 'f'
      · rw [if_pos isFalse] at read
        have bytes : Word.false.bytes = next :: falseLetters := by rw [isFalse]; rfl
        obtain ⟨rfl, spaced⟩ := literalValue_sound bytes starts read
        exact ⟨.word Word.false, rfl, spaced⟩
      rw [if_neg isFalse] at read
      by_cases isNumber : startsNumber next = true
      · rw [if_pos isNumber] at read
        obtain ⟨⟨number, behind⟩, token, finish⟩ := bind_ok.mp read
        obtain ⟨rfl, rfl⟩ := Prod.mk.inj (Except.ok.inj finish)
        obtain ⟨spelled, same, stands⟩ := exists_number token
        obtain ⟨first, letters, bytes, startsWord⟩ := Word.startsNumber_of_number stands
        refine ⟨.word spelled, ?_, behind, starts.trans same, rfl⟩
        rw [Tree.value?, Word.value?_of_starts bytes startsWord, stands]
        rfl
      rw [if_neg isNumber] at read
      by_cases isText : next = byte '"'
      · rw [if_pos isText] at read
        obtain ⟨⟨text, behind⟩, token, finish⟩ := bind_ok.mp read
        obtain ⟨rfl, rfl⟩ := Prod.mk.inj (Except.ok.inj finish)
        obtain ⟨spelling, same, stands⟩ := exists_text token
        refine ⟨.text spelling, by rw [Tree.value?, stands]; rfl, behind, ?_, rfl⟩
        rw [starts, isText, same]
        simp [Token.bytes]
      rw [if_neg isText] at read
      by_cases isList : next = byte '['
      · rw [if_pos isList] at read
        split_ifs at read with deep
        obtain ⟨trees, mean, spaced⟩ := items_sound inner Json.array read
        refine ⟨.list trees, by rw [Tree.value?, if_neg deep]; exact mean, others, ?_, spaced⟩
        rw [starts, isList]
        rfl
      rw [if_neg isList] at read
      split_ifs at read with isObject deep
      obtain ⟨trees, mean, spaced⟩ := members_sound inner read
      refine ⟨.object trees, by rw [Tree.value?, if_neg deep]; exact mean, others, ?_, spaced⟩
      rw [starts, isObject]
      rfl

theorem wordValue_complete {spelled : Word} (stands : spelled.value? = some found)
    (spaced : Spaced [.word spelled] input rest) (ends : EndsWord rest) :
    value (budget + 1) input = .ok (found, rest) := by
  obtain ⟨behind, same, rfl⟩ := spaced
  rcases spelled.cases with rfl | rfl | rfl | ⟨next, letters, bytes, starts⟩
  · obtain rfl := Option.some.inj stands
    rw [value, same]
    exact bind_ok.mpr ⟨_, literal_eq.mpr rfl, rfl⟩
  · obtain rfl := Option.some.inj stands
    rw [value, same]
    exact bind_ok.mpr ⟨_, literal_eq.mpr rfl, rfl⟩
  · obtain rfl := Option.some.inj stands
    rw [value, same]
    exact bind_ok.mpr ⟨_, literal_eq.mpr rfl, rfl⟩
  · rw [Word.value?_of_starts bytes starts] at stands
    obtain ⟨number, isNumber, rfl⟩ := Option.map_eq_some_iff.mp stands
    have isNull : next ≠ byte 'n' := ne_of_startsNumber starts (by decide)
    have isTrue : next ≠ byte 't' := ne_of_startsNumber starts (by decide)
    have isFalse : next ≠ byte 'f' := ne_of_startsNumber starts (by decide)
    have read := Word.takes_number isNumber behind ends
    simp only [Token.bytes, bytes, List.cons_append] at same read
    simp only [value, same, isNull, isTrue, isFalse, starts, if_true, if_false]
    exact bind_ok.mpr ⟨_, read, rfl⟩

theorem value_complete (inner : (value budget).Reads (Tree.value? budget)) {tree : Tree}
    (means : tree.value? (budget + 1) = some found) (spaced : Spaced tree.tokens input rest) (ends : EndsWord rest) :
    value (budget + 1) input = .ok (found, rest) := by
  cases tree with
  | word spelled => exact wordValue_complete means spaced ends
  | text spelling =>
      obtain ⟨behind, same, rfl⟩ := spaced
      obtain ⟨text, stands, rfl⟩ := Option.map_eq_some_iff.mp means
      rw [value, same]
      refine bind_ok.mpr ⟨(text, behind), ?_, rfl⟩
      simpa using Spelling.reads stands behind
  | list trees =>
      obtain ⟨behind, same, spaced⟩ := spaced
      rw [Tree.value?] at means
      split_ifs at means with deep
      have read := items_complete inner Json.array means spaced ends
      rw [value, same]
      exact (if_neg deep).trans read
  | object trees =>
      obtain ⟨behind, same, spaced⟩ := spaced
      rw [Tree.value?] at means
      split_ifs at means with deep
      have read := members_complete inner means spaced ends
      rw [value, same]
      exact (if_neg deep).trans read

end

/-- Values of any kind are read by induction on the brackets that the budget allows. -/
theorem value_reads (budget : Nat) : (value budget).Reads (Tree.value? budget) := by
  induction budget with
  | zero =>
      constructor
      · intro input found rest read
        cases read
      · intro tree found input rest means
        cases means
  | succ budget ih => exact ⟨value_sound ih, value_complete ih⟩

end SequencedFeed.Json
