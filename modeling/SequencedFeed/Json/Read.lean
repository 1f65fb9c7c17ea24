import SequencedFeed.Json.Skip
set_option autoImplicit false

/-!
# Values that are read

A value that is understood may nest only so deep. The budget of a reader is one more than the number
of brackets it may still open. Readers for one kind of value say what they found when it is of
another kind.
-/

namespace SequencedFeed.Json

/-- Brackets that one text may have open at once, plus one. -/
def nestingBudget : Nat := 128

/-- An opened bracket takes one from the budget, and the last one may not be taken. The inner reader
starts behind the bracket. -/
def nested {α : Type} (budget : Nat) (inner : Nat → Reader α) : Reader α := fun input =>
  if budget ≤ 1 then .error (Cause.nestedTooDeep.at input) else inner (budget - 1) input.tail

/-- Behind the last item or member: the closing bracket, then the value. -/
def closing {α : Type} (value : α) (close : Except Fault Unit × List UInt8) :
    Except Fault (α × List UInt8) :=
  match close with
  | (.ok (), rest) => .ok (value, rest)
  | (.error fault, _) => .error fault

def list {α : Type} (budget : Nat) (item : Nat → Reader α) : Reader (List α) :=
  nested budget fun inner input => do
    let (values, rest) ← items (item inner) input
    closing values (closeList rest)

/-- The members of an object up to its closing brace, at most one for every byte of `bound`. -/
def membersWithin (value : Reader Json) : List UInt8 → Bool → Reader (List (String × Json))
  | [], _, input => .ok ([], input)
  | _ :: bound, first, input => do
      let (more, input) ← nextKey first input
      if more then
        let (key, input) ← stringToken input
        let ((), input) ← colon input
        let (held, input) ← value input
        let (others, input) ← membersWithin value bound false input
        return ((key, held) :: others, input)
      else
        return ([], input)

def members (value : Reader Json) : Reader (List (String × Json)) := fun input =>
  membersWithin value (0 :: input) true input

/-- A value of any kind. Of several members with one key the last one counts. -/
def value : Nat → Reader Json
  | 0, input => .error (Cause.nestedTooDeep.at input)
  | budget + 1, input =>
      let input := skipBlanks input
      match input with
      | [] => .error (Cause.endInValue.at input)
      | next :: rest =>
          if next = byte 'n' then do
            let ((), rest) ← literal nullLetters rest
            return (.null, rest)
          else if next = byte 't' then do
            let ((), rest) ← literal trueLetters rest
            return (.bool true, rest)
          else if next = byte 'f' then do
            let ((), rest) ← literal falseLetters rest
            return (.bool false, rest)
          else if startsNumber next then do
            let (found, rest) ← numberToken input
            return (.number found, rest)
          else if next = byte '"' then do
            let (text, rest) ← stringToken rest
            return (.string text, rest)
          else if next = byte '[' then
            if budget = 0 then .error (Cause.nestedTooDeep.at input)
            else do
              let (values, rest) ← items (value budget) rest
              closing (.array values) (closeList rest)
          else if next = byte '\x7b' then
            if budget = 0 then .error (Cause.nestedTooDeep.at input)
            else do
              let (found, rest) ← members (value budget) rest
              closing (ofMembers found) (closeObject rest)
          else .error (Cause.expectedValue.at input)

/-! ### Values of one kind -/

/-- The fault of a value that is of another kind than expected. The value is read first, as far as it
can be told from its first token, so a broken token is reported as such. -/
def otherKind (expected : Expectation) (input : List UInt8) : Fault :=
  let found (kind : Found) (rest : List UInt8) : Fault := (Cause.wrongType kind expected).before rest
  match input with
  | [] => Cause.expectedValue.at input
  | next :: rest =>
      if next = byte 'n' then
        match literal nullLetters rest with
        | .ok ((), rest) => found .null rest
        | .error fault => fault
      else if next = byte 't' then
        match literal trueLetters rest with
        | .ok ((), rest) => found (.bool true) rest
        | .error fault => fault
      else if next = byte 'f' then
        match literal falseLetters rest with
        | .ok ((), rest) => found (.bool false) rest
        | .error fault => fault
      else if startsNumber next then
        match numberToken input with
        | .ok (literal, rest) => found (.number literal) rest
        | .error fault => fault
      else if next = byte '"' then
        match stringToken rest with
        | .ok (text, rest) => found (.string text) rest
        | .error fault => fault
      else if next = byte '[' then found .sequence input
      else if next = byte '\x7b' then found .map input
      else Cause.expectedValue.at input

def integer (expected : Expectation) (least most : Int) : Reader Int := fun input =>
  let input := skipBlanks input
  match input with
  | [] => .error (Cause.endInValue.at input)
  | next :: _ =>
      if startsNumber next then do
        let (found, rest) ← numberToken input
        match found with
        | .integer value =>
            if least ≤ value ∧ value ≤ most then return (value, rest)
            else .error ((Cause.wrongValue (.number found) expected).before rest)
        | .real _ => .error ((Cause.wrongType (.number found) expected).before rest)
      else .error (otherKind expected input)

def signed64 : Reader Int :=
  integer .signed64 minSigned64 maxSigned64

def unsigned64 : Reader Nat := fun input => do
  let (value, rest) ← integer .unsigned64 0 maxUnsigned64 input
  return (value.toNat, rest)

def stringValue : Reader String := fun input =>
  let input := skipBlanks input
  match input with
  | [] => .error (Cause.endInValue.at input)
  | next :: rest =>
      if next = byte '"' then stringToken rest else .error (otherKind .string input)

def listValue {α : Type} (budget : Nat) (item : Nat → Reader α) : Reader (List α) := fun input =>
  let input := skipBlanks input
  match input with
  | [] => .error (Cause.endInValue.at input)
  | next :: _ =>
      if next = byte '[' then list budget item input else .error (otherKind .sequence input)

def optional {α : Type} (value : Reader α) : Reader (Option α) := fun input =>
  let input := skipBlanks input
  match input with
  | [] => do
      let (held, rest) ← value input
      return (some held, rest)
  | next :: rest =>
      if next = byte 'n' then do
        let ((), rest) ← literal nullLetters rest
        return (none, rest)
      else do
        let (held, rest) ← value input
        return (some held, rest)

/-- The whole of a text: one value and nothing but blanks behind it. -/
def wholeText {α : Type} (reader : Nat → Reader α) : Reader α := fun input => do
  let (found, rest) ← reader nestingBudget input
  let ((), rest) ← endOfText rest
  return (found, rest)

/-- The value that a text holds, or where and why it holds none. -/
def parse {α : Type} (reader : Nat → Reader α) (input : List UInt8) : Except Located α :=
  match wholeText reader input with
  | .ok (found, _) => .ok found
  | .error fault => .error (fault.locate input)

end SequencedFeed.Json
