set_option autoImplicit false

/-!
# UTF-8

A byte string is read from left to right into pieces: whole characters, and the ill-formed parts
between them, each as long as some well-formed character could still have continued. Strict reading
wants characters only; lenient reading puts U+FFFD for every ill-formed part.
-/

namespace SequencedFeed.Utf8

def encode (text : List Char) : List UInt8 :=
  text.flatMap String.utf8EncodeChar

def ofString (text : String) : List UInt8 :=
  encode text.toList

@[simp]
theorem encode_nil : encode [] = [] :=
  rfl

@[simp]
theorem encode_cons (first : Char) (rest : List Char) :
    encode (first :: rest) = String.utf8EncodeChar first ++ encode rest :=
  rfl

@[simp]
theorem encode_append (left right : List Char) :
    encode (left ++ right) = encode left ++ encode right :=
  List.flatMap_append

/-- Where a reader stands: between characters, or inside one. Inside, `more` bytes beyond the next
are owed, the next must lie in `[low, high]`, and `value` is what the bytes so far amount to. -/
inductive State
  | between
  | inside (more low high value : Nat)
deriving DecidableEq

/-- A whole character, or an ill-formed part. -/
inductive Piece
  | char (scalar : Char)
  | broken
deriving DecidableEq

/-- The first byte of a character. The second byte of some characters has a narrower range, which
rules out overlong forms, surrogates and numbers above U+10FFFF. -/
def lead (byte : UInt8) : List Piece × State :=
  let n := byte.toNat
  if n < 0x80 then ([.char (Char.ofNat n)], .between)
  else if n < 0xC2 then ([.broken], .between)
  else if n < 0xE0 then ([], .inside 0 0x80 0xBF (n - 0xC0))
  else if n < 0xF0 then
    let low := if n = 0xE0 then 0xA0 else 0x80
    let high := if n = 0xED then 0x9F else 0xBF
    ([], .inside 1 low high (n - 0xE0))
  else if n < 0xF5 then
    let low := if n = 0xF0 then 0x90 else 0x80
    let high := if n = 0xF4 then 0x8F else 0xBF
    ([], .inside 2 low high (n - 0xF0))
  else ([.broken], .between)

/-- One byte: the pieces it completes and the state after it. A byte that cannot continue the
character begun breaks that character off and is then read as a first byte itself. -/
def step : State → UInt8 → List Piece × State
  | .between, byte => lead byte
  | .inside more low high value, byte =>
      let n := byte.toNat
      if low ≤ n ∧ n ≤ high then
        let value := value * 64 + n % 64
        match more with
        | 0 => ([.char (Char.ofNat value)], .between)
        | more + 1 => ([], .inside more 0x80 0xBF value)
      else
        let (found, next) := lead byte
        (.broken :: found, next)

/-- All pieces of a byte string; an unfinished character at its end is one ill-formed part. -/
def piecesFrom : State → List UInt8 → List Piece
  | .between, [] => []
  | .inside .., [] => [.broken]
  | state, byte :: rest =>
      let (found, next) := step state byte
      found ++ piecesFrom next rest

def pieces (bytes : List UInt8) : List Piece :=
  piecesFrom .between bytes

def Piece.char? : Piece → Option Char
  | .char scalar => some scalar
  | .broken => none

def decode? (bytes : List UInt8) : Option (List Char) :=
  (pieces bytes).mapM Piece.char?

/-- How many bytes stand before the first ill-formed part. -/
def wellFormedLength (bytes : List UInt8) : Nat :=
  (encode ((pieces bytes).takeWhile (fun piece => piece.char?.isSome) |>.filterMap Piece.char?)).length

/-- The text of any byte string, with U+FFFD for every ill-formed part. -/
def decodeLossy (bytes : List UInt8) : List Char :=
  (pieces bytes).map fun piece => (piece.char?).getD '\uFFFD'

end SequencedFeed.Utf8
