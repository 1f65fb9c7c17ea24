import SequencedFeed.Json.NumberToken
import SequencedFeed.Json.StringToken
set_option autoImplicit false

/-!
# Values that are skipped

The value of an unknown field is checked for its syntax only: nesting has no limit, numbers no
range, and strings may hold any bytes and any surrogates. The open brackets are kept in a list, so
the depth of a value costs no depth of recursion.
-/

namespace SequencedFeed.Json

/-! ### Tokens -/

def skipExponent : Reader Unit := fun input =>
  let (_, input) := exponentSign input
  match input with
  | [] => .error (Cause.invalidNumber.before [])
  | next :: rest =>
      if isDigit next then .ok ((), (spanDigits rest).2)
      else .error (Cause.invalidNumber.before rest)

def skipDecimals : Reader Unit := fun input =>
  let (digits, rest) := spanDigits input
  if digits = [] then .error (Cause.invalidNumber.at rest)
  else
    match rest with
    | [] => .ok ((), [])
    | next :: behind => if isExponentLetter next then skipExponent behind else .ok ((), rest)

/-- What may follow the digits before the point. -/
def skipNumberEnding : Reader Unit := fun input =>
  match input with
  | [] => .ok ((), [])
  | next :: rest =>
      if next = byte '.' then skipDecimals rest
      else if isExponentLetter next then skipExponent rest
      else .ok ((), input)

def skipUnsigned : Reader Unit := fun input =>
  match input with
  | [] => .error (Cause.invalidNumber.before [])
  | next :: rest =>
      if next = byte '0' then
        if startsWithDigit rest then .error (Cause.invalidNumber.at rest) else skipNumberEnding rest
      else if isDigit next then skipNumberEnding (spanDigits rest).2
      else .error (Cause.invalidNumber.before rest)

def skipEscape : Reader Unit := fun input =>
  match input with
  | [] => .error (Cause.endInString.before [])
  | letter :: rest =>
      if (simpleEscape letter).isSome then .ok ((), rest)
      else if letter = byte 'u' then do
        let (_, rest) ← hexQuad rest
        return ((), rest)
      else .error (Cause.invalidEscape.before rest)

/-- A skipped string with at most one escape for every byte of `bound`. -/
def skipStringWithin : List UInt8 → Reader Unit
  | [], input => .ok ((), input)
  | _ :: bound, input =>
      let behind := input.dropWhile isPlain
      match behind with
      | [] => .error (Cause.endInString.before [])
      | next :: rest =>
          if next = byte '"' then .ok ((), rest)
          else if next = byte '\\' then do
            let ((), rest) ← skipEscape rest
            skipStringWithin bound rest
          else .error (Cause.controlCharacter.before behind)

def skipString : Reader Unit := fun input =>
  skipStringWithin (0 :: input) input

/-! ### Structure -/

/-- A bracket that is open around the point of reading. -/
inductive Bracket
  | list
  | object
deriving DecidableEq

/-- What one token at the start of a value does: it is the whole value, or it opens a bracket. -/
inductive Opening
  | whole
  | opened (bracket : Bracket)

/-- A scalar value, or the opening of a list or an object. -/
def skipOpening : Reader Opening := fun input =>
  let input := skipBlanks input
  match input with
  | [] => .error (Cause.endInValue.at input)
  | next :: rest =>
      let scalar (skip : Reader Unit) (start : List UInt8) : Except Fault (Opening × List UInt8) := do
        let ((), rest) ← skip start
        return (.whole, rest)
      if next = byte 'n' then scalar (literal nullLetters) rest
      else if next = byte 't' then scalar (literal trueLetters) rest
      else if next = byte 'f' then scalar (literal falseLetters) rest
      else if next = byte '-' then scalar skipUnsigned rest
      else if isDigit next then scalar skipUnsigned input
      else if next = byte '"' then scalar skipString rest
      else if next = byte '[' then .ok (.opened .list, rest)
      else if next = byte '\x7b' then .ok (.opened .object, rest)
      else .error (Cause.expectedValue.at input)

def Bracket.closing : Bracket → UInt8
  | .list => byte ']'
  | .object => byte '\x7d'

def Bracket.unfinished : Bracket → Cause
  | .list => .endInList
  | .object => .endInObject

def Bracket.expectedComma : Bracket → Cause
  | .list => .expectedListCommaOrEnd
  | .object => .expectedObjectCommaOrEnd

/-- Closes brackets from the innermost on, until one goes on with a further entry. Gives the
brackets still open; none are left behind the end of the whole value. A comma is wanted except
directly behind an opening bracket. -/
def skipClosings : List Bracket → Bool → Reader (List Bracket)
  | [], _, input => .ok ([], input)
  | bracket :: outer, commaWanted, input =>
      let input := skipBlanks input
      match input with
      | [] => .error (bracket.unfinished.at input)
      | next :: rest =>
          if commaWanted && next == byte ',' then .ok (bracket :: outer, rest)
          else if next = bracket.closing then skipClosings outer true rest
          else if commaWanted then .error (bracket.expectedComma.at input)
          else .ok (bracket :: outer, input)

/-- The key and the colon of an entry, if the innermost bracket is an object's. -/
def skipKey : List Bracket → Reader Unit
  | .object :: _, input =>
      let input := skipBlanks input
      match input with
      | [] => .error (Cause.endInObject.at input)
      | next :: rest =>
          if next = byte '"' then do
            let ((), rest) ← skipString rest
            colon rest
          else .error (Cause.keyNotString.at input)
  | _, input => .ok ((), input)

/-- Skips a value inside the brackets `enclosing`, and then everything up to the end of the outermost
one; at most one token for every byte of `bound`. -/
def skipValueWithin : List UInt8 → List Bracket → Reader Unit
  | [], _, input => .ok ((), input)
  | _ :: bound, enclosing, input => do
      let (opening, input) ← skipOpening input
      let (opened, input) ←
        match opening with
        | .whole => skipClosings enclosing true input
        | .opened bracket => skipClosings (bracket :: enclosing) false input
      if opened = [] then return ((), input)
      else
        let ((), input) ← skipKey opened input
        skipValueWithin bound opened input

/-- A value of any shape and depth, checked for its syntax only. -/
def skipValue : Reader Unit := fun input =>
  skipValueWithin (0 :: input) [] input

end SequencedFeed.Json
