import SequencedFeed.Text.Extending
import SequencedFeed.Text.Unprintable
set_option autoImplicit false

/-!
# Quoted text

A string is shown between double quotes. Quotes, backslashes and the common control characters get a
backslash; every other character that cannot be seen by itself is written as its code point in
braces, in lower-case hexadecimal. What is shown is unambiguous and stays on one line.
-/

namespace SequencedFeed.Quoted

/-- Hexadecimal digits of a code point, without leading zeros. -/
def hexDigits (point : Nat) : List Char :=
  Nat.toDigits 16 point

def escape (scalar : Char) : List Char :=
  if scalar = '\x00' then ['\\', '0']
  else if scalar = '\t' then ['\\', 't']
  else if scalar = '\r' then ['\\', 'r']
  else if scalar = '\n' then ['\\', 'n']
  else if scalar = '"' then ['\\', '"']
  else if scalar = '\\' then ['\\', '\\']
  else if isExtending scalar.toNat || isUnprintable scalar.toNat then
    ['\\', 'u', '\x7b'] ++ hexDigits scalar.toNat ++ ['\x7d']
  else [scalar]

def quote (text : String) : String :=
  String.ofList ('"' :: text.toList.flatMap escape ++ ['"'])

end SequencedFeed.Quoted
