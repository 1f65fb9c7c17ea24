import SequencedFeed.Json.Fault
set_option autoImplicit false

/-!
# Reading JSON piece by piece

A reader takes the bytes still to be read and gives a result with the bytes behind it, or a fault.
This module has the pieces that every value is built from: blanks, literals, and the punctuation of
lists and objects.
-/

namespace SequencedFeed.Json

/-- A reader of one piece of a text. -/
abbrev Reader (α : Type) : Type :=
  List UInt8 → Except Fault (α × List UInt8)

/-- A fault at the end of what has been read. -/
def Cause.before (cause : Cause) (rest : List UInt8) : Fault :=
  ⟨cause, rest.length⟩

/-- A fault at the next byte, or at the end of the text if there is none. -/
def Cause.at (cause : Cause) (rest : List UInt8) : Fault :=
  ⟨cause, rest.length - 1⟩

def byte (scalar : Char) : UInt8 :=
  UInt8.ofNat scalar.toNat

def isBlank (next : UInt8) : Bool :=
  next == 0x20 || next == 0x0A || next == 0x09 || next == 0x0D

def isDigit (next : UInt8) : Bool :=
  0x30 ≤ next && next ≤ 0x39

def digitValue (next : UInt8) : Nat :=
  next.toNat - 0x30

def skipBlanks (input : List UInt8) : List UInt8 :=
  input.dropWhile isBlank

/-- The remaining letters of a literal whose first letter has been read. -/
def literal : List UInt8 → Reader Unit
  | [], input => .ok ((), input)
  | _ :: _, [] => .error (Cause.endInValue.before [])
  | letter :: letters, next :: rest =>
      if next = letter then literal letters rest else .error (Cause.expectedLiteral.before rest)

def nullLetters : List UInt8 := [byte 'u', byte 'l', byte 'l']

def trueLetters : List UInt8 := [byte 'r', byte 'u', byte 'e']

def falseLetters : List UInt8 := [byte 'a', byte 'l', byte 's', byte 'e']

/-! ### Lists -/

/-- Whether a list goes on: `true` at the start of a further item, `false` at the closing bracket,
which is left for `closeList`. The first item has no comma before it. -/
def nextItem (first : Bool) : Reader Bool := fun input =>
  let input := skipBlanks input
  match input with
  | [] => .error (Cause.endInList.at input)
  | next :: rest =>
      if next = byte ']' then .ok (false, input)
      else if first then .ok (true, input)
      else if next = byte ',' then
        let rest := skipBlanks rest
        match rest with
        | [] => .error (Cause.endInValue.at rest)
        | next :: _ =>
            if next = byte ']' then .error (Cause.trailingComma.at rest) else .ok (true, rest)
      else .error (Cause.expectedListCommaOrEnd.at input)

/-- The closing bracket of a list, and where the reader stands even if it is missing. -/
def closeList (input : List UInt8) : Except Fault Unit × List UInt8 :=
  let input := skipBlanks input
  match input with
  | [] => (.error (Cause.endInList.at input), input)
  | next :: rest =>
      if next = byte ']' then (.ok (), rest)
      else if next = byte ',' then
        let rest := skipBlanks rest
        match rest with
        | [] => (.error (Cause.trailingCharacters.at rest), rest)
        | next :: _ =>
            if next = byte ']' then (.error (Cause.trailingComma.at rest), rest)
            else (.error (Cause.trailingCharacters.at rest), rest)
      else (.error (Cause.trailingCharacters.at input), input)

/-- The items up to the closing bracket, at most one for every byte of `bound`. -/
def itemsWithin {α : Type} (item : Reader α) : List UInt8 → Bool → Reader (List α)
  | [], _, input => .ok ([], input)
  | _ :: bound, first, input => do
      let (more, input) ← nextItem first input
      if more then
        let (value, input) ← item input
        let (values, input) ← itemsWithin item bound false input
        return (value :: values, input)
      else
        return ([], input)

/-- The items of a list up to its closing bracket. Every item takes a byte at least, and one turn more
finds the bracket. -/
def items {α : Type} (item : Reader α) : Reader (List α) := fun input =>
  itemsWithin item (0 :: input) true input

/-! ### Objects -/

/-- Whether an object goes on: `true` behind the opening quote of a further key, `false` at the
closing brace, which is left for `closeObject`. -/
def nextKey (first : Bool) : Reader Bool := fun input =>
  let input := skipBlanks input
  match input with
  | [] => .error (Cause.endInObject.at input)
  | next :: rest =>
      if next = byte '\x7d' then .ok (false, input)
      else if first then
        if next = byte '"' then .ok (true, rest) else .error (Cause.keyNotString.at input)
      else if next = byte ',' then
        let input := skipBlanks rest
        match input with
        | [] => .error (Cause.endInValue.at input)
        | next :: rest =>
            if next = byte '"' then .ok (true, rest)
            else if next = byte '\x7d' then .error (Cause.trailingComma.at input)
            else .error (Cause.keyNotString.at input)
      else .error (Cause.expectedObjectCommaOrEnd.at input)

def colon : Reader Unit := fun input =>
  let input := skipBlanks input
  match input with
  | [] => .error (Cause.endInObject.at input)
  | next :: rest =>
      if next = byte ':' then .ok ((), rest) else .error (Cause.expectedColon.at input)

/-- The closing brace of an object, and where the reader stands even if it is missing. -/
def closeObject (input : List UInt8) : Except Fault Unit × List UInt8 :=
  let input := skipBlanks input
  match input with
  | [] => (.error (Cause.endInObject.at input), input)
  | next :: rest =>
      if next = byte '\x7d' then (.ok (), rest)
      else if next = byte ',' then (.error (Cause.trailingComma.at input), input)
      else (.error (Cause.trailingCharacters.at input), input)

/-- Nothing but blanks may follow the outermost value. -/
def endOfText : Reader Unit := fun input =>
  let input := skipBlanks input
  match input with
  | [] => .ok ((), [])
  | _ :: _ => .error (Cause.trailingCharacters.at input)

end SequencedFeed.Json
