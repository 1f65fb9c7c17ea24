import SequencedFeed.Proofs.Json.Words
set_option autoImplicit false

/-!
# Strings

Between its quotes a string is made of plain bytes and escapes. Whoever only skips it checks each escape by
itself; whoever understands it takes the two halves of a surrogate pair together, and wants the bytes it stands
for to be UTF-8. Both stop behind the same quote.
-/

namespace SequencedFeed.Json

/-! ### Escapes -/

theorem hexQuad_prefix {input rest : List UInt8} {unit : Nat} (read : hexQuad input = .ok (unit, rest)) :
    ∃ digits, input = digits ++ rest ∧ ∀ more, hexQuad (digits ++ more) = .ok (unit, more) := by
  unfold hexQuad at read
  split at read
  · next first second third fourth after =>
      split at read
      · next a b c d isFirst isSecond isThird isFourth =>
          obtain ⟨rfl, rfl⟩ := Prod.mk.inj (Except.ok.inj read)
          refine ⟨[first, second, third, fourth], rfl, fun more => ?_⟩
          simp only [List.cons_append, List.nil_append, hexQuad, isFirst, isSecond, isThird, isFourth]
      · cases read
  · cases read

theorem pairByte_eq {wanted : UInt8} {input rest : List UInt8} :
    pairByte wanted input = .ok ((), rest) ↔ input = wanted :: rest := by
  cases input with
  | nil => simp [pairByte]
  | cons next others =>
      by_cases same : next = wanted
      · simp [pairByte, same]
      · simp [pairByte, same]

/-- The inside of a string as whoever skips it takes it. -/
inductive Closed : List UInt8 → Prop
  | nil : Closed []
  | plain {next : UInt8} {rest : List UInt8} (isPlain : isPlain next = true) (closed : Closed rest) :
      Closed (next :: rest)
  | escape {letters rest : List UInt8} (skips : ∀ more, skipEscape (letters ++ more) = .ok ((), more))
      (closed : Closed rest) : Closed (byte '\\' :: (letters ++ rest))

theorem skipEscape_prefix {input rest : List UInt8} (skipped : skipEscape input = .ok ((), rest)) :
    ∃ letters, input = letters ++ rest ∧ ∀ more, skipEscape (letters ++ more) = .ok ((), more) := by
  cases input with
  | nil => cases skipped
  | cons letter others =>
      by_cases simple : (simpleEscape letter).isSome = true
      · simp only [skipEscape, simple, if_true, Except.ok.injEq, Prod.mk.injEq, true_and] at skipped
        refine ⟨[letter], by rw [skipped]; rfl, fun more => ?_⟩
        simp only [List.cons_append, List.nil_append, skipEscape, simple, if_true]
      by_cases unicode : letter = byte 'u'
      · subst unicode
        obtain ⟨⟨unit, after⟩, quad, done⟩ := bind_ok.mp skipped
        obtain ⟨digits, rfl, again⟩ := hexQuad_prefix quad
        obtain ⟨-, rfl⟩ := Prod.mk.inj (Except.ok.inj done)
        exact ⟨byte 'u' :: digits, rfl, fun more => bind_ok.mpr ⟨_, again more, rfl⟩⟩
      · simp [skipEscape, simple, unicode] at skipped

theorem Closed.unicode {digits rest : List UInt8} {unit : Nat}
    (quad : ∀ more, hexQuad (digits ++ more) = .ok (unit, more)) (closed : Closed rest) :
    Closed (byte '\\' :: byte 'u' :: (digits ++ rest)) := by
  have skips (more : List UInt8) : skipEscape (byte 'u' :: digits ++ more) = .ok ((), more) :=
    bind_ok.mpr ⟨_, quad more, rfl⟩
  exact Closed.escape skips closed

/-- What is understood as one character is skipped as one escape, or as the two of a surrogate pair. -/
theorem unicodeEscape_prefix {input rest : List UInt8} {scalar : Char}
    (found : unicodeEscape input = .ok (scalar, rest)) :
    ∃ letters, input = letters ++ rest ∧ (∀ more, unicodeEscape (letters ++ more) = .ok (scalar, more)) ∧
      ∀ more, Closed more → Closed (byte '\\' :: byte 'u' :: (letters ++ more)) := by
  obtain ⟨⟨unit, after⟩, quad, read⟩ := bind_ok.mp found
  obtain ⟨digits, rfl, starts⟩ := hexQuad_prefix quad
  by_cases low : 0xDC00 ≤ unit ∧ unit ≤ 0xDFFF
  · simp [low] at read
  by_cases high : 0xD800 ≤ unit ∧ unit ≤ 0xDBFF
  · simp only [low, high, and_self, if_true, if_false] at read
    obtain ⟨⟨⟨⟩, afterSlash⟩, slash, behindSlash⟩ := bind_ok.mp read
    obtain rfl := pairByte_eq.mp slash
    obtain ⟨⟨⟨⟩, afterLetter⟩, letter, behindLetter⟩ := bind_ok.mp behindSlash
    obtain rfl := pairByte_eq.mp letter
    obtain ⟨⟨second, afterSecond⟩, secondQuad, finish⟩ := bind_ok.mp behindLetter
    obtain ⟨others, rfl, againOthers⟩ := hexQuad_prefix secondQuad
    by_cases pair : 0xDC00 ≤ second ∧ second ≤ 0xDFFF
    · simp only [pair, and_self, if_true] at finish
      obtain ⟨rfl, rfl⟩ := Prod.mk.inj (Except.ok.inj finish)
      refine ⟨digits ++ byte '\\' :: byte 'u' :: others, by simp, fun more => ?_, fun more closed => ?_⟩
      · rw [List.append_assoc]
        refine bind_ok.mpr ⟨_, starts _, ?_⟩
        simp only [low, high, and_self, if_true, if_false]
        refine bind_ok.mpr ⟨_, pairByte_eq.mpr rfl, bind_ok.mpr ⟨_, pairByte_eq.mpr rfl, ?_⟩⟩
        refine bind_ok.mpr ⟨_, againOthers more, ?_⟩
        simp only [pair, and_self, if_true]
        rfl
      · have inner := Closed.unicode againOthers closed
        have outer := Closed.unicode starts inner
        simpa using outer
    · simp [pair] at finish
  · simp only [low, high, if_false] at read
    obtain ⟨rfl, rfl⟩ := Prod.mk.inj (Except.ok.inj read)
    refine ⟨digits, rfl, fun more => bind_ok.mpr ⟨_, starts more, ?_⟩, fun more => Closed.unicode starts⟩
    simp only [low, high, if_false]
    rfl

theorem escape_prefix {input rest : List UInt8} {scalar : Char} (read : escape input = .ok (scalar, rest)) :
    ∃ letters, input = letters ++ rest ∧ (∀ more, escape (letters ++ more) = .ok (scalar, more)) ∧
      ∀ more, Closed more → Closed (byte '\\' :: (letters ++ more)) := by
  cases input with
  | nil => cases read
  | cons letter others =>
      cases simple : simpleEscape letter with
      | some plain =>
          simp only [escape, simple, Except.ok.injEq, Prod.mk.injEq] at read
          obtain ⟨rfl, rfl⟩ := read
          refine ⟨[letter], rfl, fun more => ?_, fun more closed => Closed.escape (fun behind => ?_) closed⟩
          · simp only [List.cons_append, List.nil_append, escape, simple]
          · simp only [List.cons_append, List.nil_append, skipEscape, simple, Option.isSome_some, if_true]
      | none =>
          by_cases unicode : letter = byte 'u'
          · subst unicode
            obtain ⟨digits, rfl, again, closes⟩ := unicodeEscape_prefix read
            exact ⟨byte 'u' :: digits, rfl, again, closes⟩
          · simp [escape, simple, unicode] at read

/-! ### Skipped strings -/

theorem skipStringWithin_plain (first : UInt8) (bound : List UInt8) {next : UInt8} (isPlain : isPlain next = true)
    (rest : List UInt8) : skipStringWithin (first :: bound) (next :: rest) = skipStringWithin (first :: bound) rest := by
  simp only [skipStringWithin, List.dropWhile_cons, isPlain, if_true]

theorem skipStringWithin_special (first : UInt8) (bound : List UInt8) {next : UInt8} (special : isPlain next = false)
    (rest : List UInt8) : skipStringWithin (first :: bound) (next :: rest) =
      if next = byte '"' then .ok ((), rest)
      else if next = byte '\\' then do
        let ((), rest) ← skipEscape rest
        skipStringWithin bound rest
      else .error (Cause.controlCharacter.before (next :: rest)) := by
  simp only [skipStringWithin, List.dropWhile_cons, special, Bool.false_eq_true, if_false]

theorem Closed.skips {inside : List UInt8} (closed : Closed inside) (more : List UInt8) :
    ∀ {bound : List UInt8}, inside.length < bound.length →
      skipStringWithin bound (inside ++ byte '"' :: more) = .ok ((), more) := by
  induction closed with
  | nil =>
      intro bound long
      cases bound with
      | nil => simp at long
      | cons first bound => exact skipStringWithin_special first bound rfl more
  | plain isPlain _ ih =>
      intro bound long
      cases bound with
      | nil => simp at long
      | cons first bound =>
          rw [List.cons_append, skipStringWithin_plain first bound isPlain]
          apply ih
          simp only [List.length_cons] at long ⊢
          omega
  | escape skips _ ih =>
      intro bound long
      cases bound with
      | nil => simp at long
      | cons first bound =>
          rw [List.cons_append, skipStringWithin_special first bound rfl, List.append_assoc]
          refine bind_ok.mpr ⟨_, skips _, ih ?_⟩
          simp only [List.length_cons, List.length_append] at long
          omega

theorem Closed.isSkipped {inside : List UInt8} (closed : Closed inside) (more : List UInt8) :
    skipString (inside ++ byte '"' :: more) = .ok ((), more) := by
  apply closed.skips more
  simp only [List.length_append, List.length_cons]
  omega

theorem exists_closed {bound input rest : List UInt8} (long : input.length < bound.length)
    (skipped : skipStringWithin bound input = .ok ((), rest)) :
    ∃ inside, Closed inside ∧ input = inside ++ byte '"' :: rest := by
  induction bound generalizing input with
  | nil => simp at long
  | cons first bound outer =>
      induction input with
      | nil => cases skipped
      | cons next others ih =>
          simp only [List.length_cons] at long
          cases plain : isPlain next with
          | true =>
              rw [skipStringWithin_plain first bound plain] at skipped
              obtain ⟨inside, closed, rfl⟩ := ih (by simp only [List.length_cons]; omega) skipped
              exact ⟨next :: inside, Closed.plain plain closed, rfl⟩
          | false =>
              rw [skipStringWithin_special first bound plain] at skipped
              split_ifs at skipped with quote slash
              · obtain ⟨-, rfl⟩ := Prod.mk.inj (Except.ok.inj skipped)
                exact ⟨[], Closed.nil, by rw [quote]; rfl⟩
              · obtain ⟨⟨⟨⟩, after⟩, escaped, goesOn⟩ := bind_ok.mp skipped
                obtain ⟨letters, rfl, skips⟩ := skipEscape_prefix escaped
                have shorter : after.length < bound.length := by
                  simp only [List.length_append] at long
                  omega
                obtain ⟨inside, closed, rfl⟩ := outer shorter goesOn
                exact ⟨_, Closed.escape skips closed, by rw [slash]; simp⟩

/-- A string without its quotes, as whoever skips it takes it. -/
structure Spelling where
  bytes : List UInt8
  isSpelled : skipString (bytes ++ [byte '"']) = .ok ((), [])

theorem exists_spelling {input rest : List UInt8} (skipped : skipString input = .ok ((), rest)) :
    ∃ spelling : Spelling, input = spelling.bytes ++ byte '"' :: rest := by
  obtain ⟨inside, closed, same⟩ := exists_closed (by simp) skipped
  have whole : skipString (inside ++ [byte '"']) = .ok ((), []) := closed.isSkipped []
  exact ⟨⟨inside, whole⟩, same⟩

namespace Spelling

theorem isClosed (spelling : Spelling) : Closed spelling.bytes := by
  obtain ⟨inside, closed, same⟩ := exists_closed (by simp) spelling.isSpelled
  rw [List.append_cancel_right same]
  exact closed

theorem skips (spelling : Spelling) (more : List UInt8) :
    skipString (spelling.bytes ++ byte '"' :: more) = .ok ((), more) :=
  spelling.isClosed.isSkipped more

theorem ext {spelling other : Spelling} (same : spelling.bytes = other.bytes) : spelling = other := by
  cases spelling
  cases other
  obtain rfl : _ = _ := same
  rfl

end Spelling

/-! ### Understood strings -/

/-- The inside of a string and the bytes it stands for. -/
inductive StandsFor : List UInt8 → List UInt8 → Prop
  | nil : StandsFor [] []
  | plain {next : UInt8} {rest bytes : List UInt8} (isPlain : isPlain next = true) (stands : StandsFor rest bytes) :
      StandsFor (next :: rest) (next :: bytes)
  | escape {letters rest bytes : List UInt8} {scalar : Char}
      (reads : ∀ more, Json.escape (letters ++ more) = .ok (scalar, more)) (stands : StandsFor rest bytes) :
      StandsFor (byte '\\' :: (letters ++ rest)) (String.utf8EncodeChar scalar ++ bytes)

theorem StandsFor.closed {inside bytes : List UInt8} (stands : StandsFor inside bytes) : Closed inside := by
  induction stands with
  | nil => exact Closed.nil
  | plain isPlain _ ih => exact Closed.plain isPlain ih
  | escape reads _ ih =>
      obtain ⟨letters, same, -, closes⟩ := escape_prefix (reads [])
      rw [List.append_nil, List.append_nil] at same
      rw [same]
      exact closes _ ih

theorem stringBytesWithin_plain (first : UInt8) (bound : List UInt8) {next : UInt8} (isPlain : isPlain next = true)
    (rest : List UInt8) : stringBytesWithin (first :: bound) (next :: rest) =
      (stringBytesWithin (first :: bound) rest).map fun (bytes, after) => (next :: bytes, after) := by
  simp only [stringBytesWithin, List.dropWhile_cons, List.takeWhile_cons, isPlain, if_true]
  cases rest.dropWhile Json.isPlain with
  | nil => rfl
  | cons special behind =>
      by_cases quote : special = byte '"'
      · simp only [quote, if_true]
        rfl
      by_cases slash : special = byte '\\'
      · subst slash
        change (escape behind >>= _) = Except.map _ (escape behind >>= _)
        cases escape behind with
        | error fault => rfl
        | ok scalar =>
            change (stringBytesWithin bound scalar.2 >>= _) = Except.map _ (stringBytesWithin bound scalar.2 >>= _)
            cases stringBytesWithin bound scalar.2 with
            | error fault => rfl
            | ok others => rfl
      · simp only [quote, slash, if_false]
        rfl

theorem stringBytesWithin_special (first : UInt8) (bound : List UInt8) {next : UInt8} (special : isPlain next = false)
    (rest : List UInt8) : stringBytesWithin (first :: bound) (next :: rest) =
      if next = byte '"' then .ok ([], rest)
      else if next = byte '\\' then do
        let (scalar, rest) ← escape rest
        let (others, rest) ← stringBytesWithin bound rest
        return (String.utf8EncodeChar scalar ++ others, rest)
      else .error (Cause.controlCharacter.before rest) := by
  simp only [stringBytesWithin, List.dropWhile_cons, List.takeWhile_cons, special, Bool.false_eq_true, if_false]
  rfl

theorem StandsFor.reads {inside bytes : List UInt8} (stands : StandsFor inside bytes) (more : List UInt8) :
    ∀ {bound : List UInt8}, inside.length < bound.length →
      stringBytesWithin bound (inside ++ byte '"' :: more) = .ok (bytes, more) := by
  induction stands with
  | nil =>
      intro bound long
      cases bound with
      | nil => simp at long
      | cons first bound => exact stringBytesWithin_special first bound rfl more
  | plain isPlain _ ih =>
      intro bound long
      cases bound with
      | nil => simp at long
      | cons first bound =>
          simp only [List.length_cons] at long
          rw [List.cons_append, stringBytesWithin_plain first bound isPlain, ih (by simp only [List.length_cons]; omega)]
          rfl
  | escape reads _ ih =>
      intro bound long
      cases bound with
      | nil => simp at long
      | cons first bound =>
          simp only [List.length_cons, List.length_append] at long
          rw [List.cons_append, stringBytesWithin_special first bound rfl, List.append_assoc]
          exact bind_ok.mpr ⟨_, reads _, bind_ok.mpr ⟨_, ih (by omega), rfl⟩⟩

theorem exists_standsFor {bound input bytes rest : List UInt8} (long : input.length < bound.length)
    (read : stringBytesWithin bound input = .ok (bytes, rest)) :
    ∃ inside, StandsFor inside bytes ∧ input = inside ++ byte '"' :: rest := by
  induction bound generalizing input bytes with
  | nil => simp at long
  | cons first bound outer =>
      induction input generalizing bytes with
      | nil => cases read
      | cons next others ih =>
          simp only [List.length_cons] at long
          cases plain : isPlain next with
          | true =>
              rw [stringBytesWithin_plain first bound plain] at read
              cases goesOn : stringBytesWithin (first :: bound) others with
              | error fault => simp [goesOn, Except.map] at read
              | ok result =>
                  rw [goesOn] at read
                  obtain ⟨rfl, rfl⟩ := Prod.mk.inj (Except.ok.inj read)
                  obtain ⟨inside, stands, rfl⟩ := ih (by simp only [List.length_cons]; omega) goesOn
                  exact ⟨next :: inside, StandsFor.plain plain stands, rfl⟩
          | false =>
              rw [stringBytesWithin_special first bound plain] at read
              split_ifs at read with quote slash
              · obtain ⟨rfl, rfl⟩ := Prod.mk.inj (Except.ok.inj read)
                exact ⟨[], StandsFor.nil, by rw [quote]; rfl⟩
              · obtain ⟨⟨scalar, after⟩, escaped, behind⟩ := bind_ok.mp read
                obtain ⟨⟨bytes, behindAll⟩, goesOn, finish⟩ := bind_ok.mp behind
                obtain ⟨rfl, rfl⟩ := Prod.mk.inj (Except.ok.inj finish)
                obtain ⟨letters, rfl, reads, -⟩ := escape_prefix escaped
                have shorter : after.length < bound.length := by
                  simp only [List.length_append] at long
                  omega
                obtain ⟨inside, stands, rfl⟩ := outer shorter goesOn
                exact ⟨_, StandsFor.escape reads stands, by rw [slash]; simp⟩

theorem stringToken_eq {input rest : List UInt8} {text : String} : stringToken input = .ok (text, rest) ↔
    ∃ inside bytes, StandsFor inside bytes ∧ input = inside ++ byte '"' :: rest ∧
      (Utf8.decode? bytes).map String.ofList = some text := by
  constructor
  · intro read
    obtain ⟨⟨bytes, behind⟩, within, read⟩ := bind_ok.mp read
    obtain ⟨inside, stands, same⟩ := exists_standsFor (by simp) within
    cases decoded : Utf8.decode? bytes with
    | none => simp [decoded] at read
    | some scalars =>
        simp only [decoded] at read
        obtain ⟨rfl, rfl⟩ := Prod.mk.inj (Except.ok.inj read)
        exact ⟨inside, bytes, stands, same, by rw [decoded]; rfl⟩
  · rintro ⟨inside, bytes, stands, rfl, decoded⟩
    obtain ⟨scalars, decodes, rfl⟩ := Option.map_eq_some_iff.mp decoded
    have long : inside.length < ((0 : UInt8) :: (inside ++ byte '"' :: rest)).length := by
      simp only [List.length_append, List.length_cons]
      omega
    refine bind_ok.mpr ⟨_, stands.reads rest long, ?_⟩
    simp only [decodes]
    rfl

namespace Spelling

/-- The text of a string, if its bytes are UTF-8 and its surrogates come in pairs. -/
def text? (spelling : Spelling) : Option String :=
  match stringToken (spelling.bytes ++ [byte '"']) with
  | .ok (text, _) => some text
  | .error _ => none

theorem reads {spelling : Spelling} {text : String} (isText : spelling.text? = some text) (more : List UInt8) :
    stringToken (spelling.bytes ++ byte '"' :: more) = .ok (text, more) := by
  unfold text? at isText
  cases read : stringToken (spelling.bytes ++ [byte '"']) with
  | error fault => simp [read] at isText
  | ok result =>
      obtain ⟨other, rest⟩ := result
      simp only [read, Option.some.injEq] at isText
      subst isText
      obtain ⟨inside, bytes, stands, same, decoded⟩ := stringToken_eq.mp read
      have skipped : skipString (inside ++ byte '"' :: rest) = .ok ((), rest) :=
        stands.closed.isSkipped rest
      have whole := (spelling.skips []).symm.trans ((congrArg skipString same).trans skipped)
      obtain rfl : [] = rest := congrArg Prod.snd (Except.ok.inj whole)
      exact stringToken_eq.mpr ⟨inside, bytes, stands, by rw [List.append_cancel_right same], decoded⟩

end Spelling

theorem exists_text {input rest : List UInt8} {text : String} (read : stringToken input = .ok (text, rest)) :
    ∃ spelling : Spelling, input = spelling.bytes ++ byte '"' :: rest ∧ spelling.text? = some text := by
  obtain ⟨inside, bytes, stands, same, decoded⟩ := stringToken_eq.mp read
  refine ⟨⟨inside, stands.closed.isSkipped []⟩, same, ?_⟩
  have whole : stringToken (inside ++ [byte '"']) = .ok (text, []) :=
    stringToken_eq.mpr ⟨inside, bytes, stands, rfl, decoded⟩
  simp only [Spelling.text?, whole]

end SequencedFeed.Json
