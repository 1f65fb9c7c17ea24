import SequencedFeed.Json.Reader
import SequencedFeed.Text.Utf8
set_option autoImplicit false

/-!
# String tokens

The text between two quotes, with escapes replaced by the characters they stand for. Control characters
must be escaped and surrogates must come in pairs. The bytes of the whole text must be UTF-8, which is
checked last: any other fault of the token wins.
-/

namespace SequencedFeed.Json

def hexValue (next : UInt8) : Option Nat :=
  let n := next.toNat
  if 0x30 ≤ n ∧ n ≤ 0x39 then some (n - 0x30)
  else if 0x41 ≤ n ∧ n ≤ 0x46 then some (n - 0x37)
  else if 0x61 ≤ n ∧ n ≤ 0x66 then some (n - 0x57)
  else none

def hexQuad : Reader Nat := fun input =>
  match input with
  | first :: second :: third :: fourth :: rest =>
      match hexValue first, hexValue second, hexValue third, hexValue fourth with
      | some a, some b, some c, some d => .ok (((a * 16 + b) * 16 + c) * 16 + d, rest)
      | _, _, _, _ => .error (Cause.invalidEscape.before rest)
  | _ => .error (Cause.endInString.before [])

/-- One given byte between the halves of a surrogate pair. -/
def pairByte (wanted : UInt8) : Reader Unit := fun input =>
  match input with
  | [] => .error (Cause.endInString.before [])
  | next :: rest =>
      if next = wanted then .ok ((), rest) else .error (Cause.unfinishedSurrogatePair.before rest)

/-- A character by its UTF-16 code units, behind the first `\u`. -/
def unicodeEscape : Reader Char := fun input => do
  let (unit, rest) ← hexQuad input
  if 0xDC00 ≤ unit ∧ unit ≤ 0xDFFF then .error (Cause.loneSurrogate.before rest)
  else if 0xD800 ≤ unit ∧ unit ≤ 0xDBFF then
    let ((), rest) ← pairByte (byte '\\') rest
    let ((), rest) ← pairByte (byte 'u') rest
    let (second, rest) ← hexQuad rest
    if 0xDC00 ≤ second ∧ second ≤ 0xDFFF then
      return (Char.ofNat (0x10000 + (unit - 0xD800) * 0x400 + (second - 0xDC00)), rest)
    else .error (Cause.loneSurrogate.before rest)
  else return (Char.ofNat unit, rest)

def simpleEscape (letter : UInt8) : Option Char :=
  if letter = byte '"' then some '"'
  else if letter = byte '\\' then some '\\'
  else if letter = byte '/' then some '/'
  else if letter = byte 'b' then some '\x08'
  else if letter = byte 'f' then some '\x0c'
  else if letter = byte 'n' then some '\n'
  else if letter = byte 'r' then some '\r'
  else if letter = byte 't' then some '\t'
  else none

/-- The character that an escape stands for, behind its backslash. -/
def escape : Reader Char := fun input =>
  match input with
  | [] => .error (Cause.endInString.before [])
  | letter :: rest =>
      match simpleEscape letter with
      | some plain => .ok (plain, rest)
      | none =>
          if letter = byte 'u' then unicodeEscape rest
          else .error (Cause.invalidEscape.before rest)

/-- Bytes that stand for themselves inside a string. -/
def isPlain (next : UInt8) : Bool :=
  0x20 ≤ next && next != byte '"' && next != byte '\\'

/-- The bytes that a string stands for, up to and without its closing quote, which is read; at most
one escape for every byte of `bound`. Plain bytes stand for themselves, and an escape for the UTF-8 form
of its character. -/
def stringBytesWithin : List UInt8 → Reader (List UInt8)
  | [], input => .ok ([], input)
  | _ :: bound, input =>
      let plain := input.takeWhile isPlain
      match input.dropWhile isPlain with
      | [] => .error (Cause.endInString.before [])
      | next :: rest =>
          if next = byte '"' then return (plain, rest)
          else if next = byte '\\' then do
            let (scalar, rest) ← escape rest
            let (others, rest) ← stringBytesWithin bound rest
            return (plain ++ String.utf8EncodeChar scalar ++ others, rest)
          else .error (Cause.controlCharacter.before rest)

/-- The fault of a string whose bytes are not UTF-8, with the input behind its closing quote. Its place is
told from the end of the string: as far back as the bytes have an ill-formed part and what follows it. -/
def illFormedString (bytes rest : List UInt8) : Fault :=
  ⟨.invalidCodePoint, rest.length + (bytes.length - Utf8.wellFormedLength bytes)⟩

def stringToken : Reader String := fun input => do
  let (bytes, rest) ← stringBytesWithin (0 :: input) input
  match Utf8.decode? bytes with
  | some text => return (String.ofList text, rest)
  | none => .error (illFormedString bytes rest)

end SequencedFeed.Json
