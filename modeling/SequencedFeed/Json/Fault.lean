import SequencedFeed.Binary64.Shortest
import SequencedFeed.Json.Value
import SequencedFeed.Text.Quoted
set_option autoImplicit false

/-!
# Why a JSON text is refused

A fault is a cause and a place. The place is kept as the number of bytes behind it; line and column
follow from the whole text. Causes are of two kinds: the text breaks the grammar, or a well-formed
value is not what the reader expects at that point.
-/

namespace SequencedFeed.Json

/-- What a reader wants at some point. -/
inductive Expectation
  | signed64
  | unsigned64
  | string
  | sequence
  | record (title : String)
  | recordOf (title : String) (count : Nat)
deriving DecidableEq

/-- What it finds instead. -/
inductive Found
  | null
  | bool (value : Bool)
  | number (value : Number)
  | string (text : String)
  | sequence
  | map
deriving DecidableEq

inductive Cause
  | endInList
  | endInObject
  | endInString
  | endInValue
  | expectedColon
  | expectedListCommaOrEnd
  | expectedObjectCommaOrEnd
  | expectedLiteral
  | expectedValue
  | invalidEscape
  | invalidNumber
  | numberOutOfRange
  | invalidCodePoint
  | controlCharacter
  | keyNotString
  | loneSurrogate
  | unfinishedSurrogatePair
  | trailingComma
  | trailingCharacters
  | nestedTooDeep
  | wrongType (found : Found) (expected : Expectation)
  | wrongValue (found : Found) (expected : Expectation)
  | wrongLength (count : Nat) (expected : Expectation)
  | missingField (name : String)
  | duplicateField (name : String)
deriving DecidableEq

/-- A cause and the number of bytes of the text behind its place. -/
structure Fault where
  cause : Cause
  remaining : Nat
deriving DecidableEq

def Expectation.message : Expectation → String
  | .signed64 => "i64"
  | .unsigned64 => "u64"
  | .string => "a string"
  | .sequence => "a sequence"
  | .record title => "struct " ++ title
  | .recordOf title count =>
      "struct " ++ title ++ " with " ++ Nat.repr count ++ (if count = 1 then " element" else " elements")

def Found.message : Found → String
  | .null => "null"
  | .bool value => "boolean `" ++ (if value then "true" else "false") ++ "`"
  | .number (.integer value) =>
      "integer `" ++ (if value < 0 then "-" else "") ++ Nat.repr value.natAbs ++ "`"
  | .number (.real value) => "floating point `" ++ String.ofList value.text ++ "`"
  | .string text => "string " ++ Quoted.quote text
  | .sequence => "sequence"
  | .map => "map"

def Cause.message : Cause → String
  | .endInList => "EOF while parsing a list"
  | .endInObject => "EOF while parsing an object"
  | .endInString => "EOF while parsing a string"
  | .endInValue => "EOF while parsing a value"
  | .expectedColon => "expected `:`"
  | .expectedListCommaOrEnd => "expected `,` or `]`"
  | .expectedObjectCommaOrEnd => "expected `,` or `\x7d`"
  | .expectedLiteral => "expected ident"
  | .expectedValue => "expected value"
  | .invalidEscape => "invalid escape"
  | .invalidNumber => "invalid number"
  | .numberOutOfRange => "number out of range"
  | .invalidCodePoint => "invalid unicode code point"
  | .controlCharacter => "control character (\\u0000-\\u001F) found while parsing a string"
  | .keyNotString => "key must be a string"
  | .loneSurrogate => "lone leading surrogate in hex escape"
  | .unfinishedSurrogatePair => "unexpected end of hex escape"
  | .trailingComma => "trailing comma"
  | .trailingCharacters => "trailing characters"
  | .nestedTooDeep => "recursion limit exceeded"
  | .wrongType found expected =>
      "invalid type: " ++ found.message ++ ", expected " ++ expected.message
  | .wrongValue found expected =>
      "invalid value: " ++ found.message ++ ", expected " ++ expected.message
  | .wrongLength count expected =>
      "invalid length " ++ Nat.repr count ++ ", expected " ++ expected.message
  | .missingField name => "missing field `" ++ name ++ "`"
  | .duplicateField name => "duplicate field `" ++ name ++ "`"

/-- The line of the end of a text, counted from one. -/
def lineOf (before : List UInt8) : Nat :=
  before.count 0x0A + 1

/-- Bytes of a text since its last line feed. -/
def columnOf (before : List UInt8) : Nat :=
  (before.reverse.takeWhile (· ≠ 0x0A)).length

/-- A cause with the line and column of its place. -/
structure Located where
  cause : Cause
  line : Nat
  column : Nat
deriving DecidableEq

def Fault.locate (fault : Fault) (input : List UInt8) : Located :=
  let before := input.take (input.length - fault.remaining)
  ⟨fault.cause, lineOf before, columnOf before⟩

def Located.message (error : Located) : String :=
  error.cause.message ++ " at line " ++ Nat.repr error.line ++ " column " ++ Nat.repr error.column

end SequencedFeed.Json
