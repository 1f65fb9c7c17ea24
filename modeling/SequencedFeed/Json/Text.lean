import SequencedFeed.Binary64.Shortest
import SequencedFeed.Json.Value
set_option autoImplicit false

/-!
# Compact JSON text

A value on one line without blanks. Inside strings only the quote, the backslash and the control
characters are escaped, five of those by a letter and the others by four hexadecimal digits.
-/

namespace SequencedFeed.Json

def integerText (value : Int) : List Char :=
  if value < 0 then '-' :: Nat.toDigits 10 value.natAbs else Nat.toDigits 10 value.natAbs

def numberText : Number → List Char
  | .integer value => integerText value
  | .real value => value.text

/-- The two last hexadecimal digits of a control character's escape. -/
def hexPair (point : Nat) : List Char :=
  [Nat.digitChar (point / 16 % 16), Nat.digitChar (point % 16)]

def escapeText (scalar : Char) : List Char :=
  if scalar = '"' then ['\\', '"']
  else if scalar = '\\' then ['\\', '\\']
  else if scalar.toNat = 8 then ['\\', 'b']
  else if scalar.toNat = 9 then ['\\', 't']
  else if scalar.toNat = 10 then ['\\', 'n']
  else if scalar.toNat = 12 then ['\\', 'f']
  else if scalar.toNat = 13 then ['\\', 'r']
  else if scalar.toNat < 32 then ['\\', 'u', '0', '0'] ++ hexPair scalar.toNat
  else [scalar]

def stringText (text : String) : List Char :=
  '"' :: text.toList.flatMap escapeText ++ ['"']

/-- Texts with a comma between neighbours. -/
def commaSeparated : List (List Char) → List Char
  | [] => []
  | [last] => last
  | first :: next :: rest => first ++ ',' :: commaSeparated (next :: rest)

def arrayText (items : List (List Char)) : List Char :=
  '[' :: commaSeparated items ++ [']']

def memberText (key : String) (value : List Char) : List Char :=
  stringText key ++ ':' :: value

def objectText (members : List (List Char)) : List Char :=
  '\x7b' :: commaSeparated members ++ ['\x7d']

mutual

def text : Json → List Char
  | .null => ['n', 'u', 'l', 'l']
  | .bool true => ['t', 'r', 'u', 'e']
  | .bool false => ['f', 'a', 'l', 's', 'e']
  | .number value => numberText value
  | .string value => stringText value
  | .array items => arrayText (itemTexts items)
  | .object members => objectText (memberTexts members)

def itemTexts : List Json → List (List Char)
  | [] => []
  | item :: rest => text item :: itemTexts rest

def memberTexts : List (String × Json) → List (List Char)
  | [] => []
  | (key, value) :: rest => memberText key (text value) :: memberTexts rest

end

end SequencedFeed.Json
