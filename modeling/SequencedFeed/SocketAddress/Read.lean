import SequencedFeed.SocketAddress
set_option autoImplicit false

/-!
# Reading socket addresses

A part of an address is read as far as it goes, and the parts have to make up the whole text.
-/

namespace SequencedFeed

/-- Reads a part from the front of a text, if it is there. -/
abbrev Scanner (α : Type) : Type :=
  StateT (List Char) Option α

namespace Scanner

def mark (expected : Char) : Scanner Unit := fun input =>
  match input with
  | [] => none
  | found :: rest => if found = expected then some ((), rest) else none

/-- A number up to a limit, with all the digits that follow. If `most` is given there may be no more
digits than that, and zeros may stand in front only if they are `padded`. -/
def number (base limit : Nat) (most : Option Nat) (padded : Bool) : Scanner Nat := fun input =>
  let digits := input.takeWhile (isDigitIn base)
  let value := numeralValue base digits
  if digits = [] then none
  else if (most.map fun most => decide (most < digits.length)).getD false then none
  else if !padded && digits.head? == some '0' && 1 < digits.length then none
  else if limit < value then none
  else some (value, input.dropWhile (isDigitIn base))

/-- A part that stands behind a separator, unless it is the first one. -/
def separated {α : Type} (first : Bool) (separator : Char) (part : Scanner α) : Scanner α :=
  if first then part
  else do
    mark separator
    part

def octet : Scanner UInt8 := do
  return UInt8.ofNat (← number 10 255 (some 3) false)

def group : Scanner UInt16 := do
  return UInt16.ofNat (← number 16 65535 (some 4) true)

def addressV4 : Scanner AddressV4 := do
  let first ← octet
  mark '.'
  let second ← octet
  mark '.'
  let third ← octet
  mark '.'
  let fourth ← octet
  return ⟨#v[first, second, third, fourth]⟩

/-- At most so many groups, with the rest of the text, and whether the last two of them were written
as an address of the short form. The groups end where none can be read. -/
def groups (first : Bool) : Nat → List Char → List UInt16 × Bool × List Char
  | 0, input => ([], false, input)
  | left + 1, input =>
      match (if 0 < left then separated first ':' addressV4 input else none) with
      | some (address, rest) => (address.groups, true, rest)
      | none =>
          match separated first ':' group input with
          | none => ([], false, input)
          | some (here, rest) =>
              let (others, short, rest) := groups false left rest
              (here :: others, short, rest)

/-- Eight groups, or fewer with one gap for the zeros that are missing. -/
def addressV6 : Scanner AddressV6 := fun input => do
  let (head, short, rest) := groups true 8 input
  if whole : head.length = 8 then
    return (⟨⟨head.toArray, by simpa using whole⟩⟩, rest)
  else if short then none
  else
    let ((), rest) ← mark ':' rest
    let ((), rest) ← mark ':' rest
    let (tail, _, rest) := groups true (7 - head.length) rest
    let all := head ++ List.replicate (8 - head.length - tail.length) 0 ++ tail
    if whole : all.length = 8 then return (⟨⟨all.toArray, by simpa using whole⟩⟩, rest)
    else none

def port : Scanner UInt16 := do
  mark ':'
  return UInt16.ofNat (← number 10 65535 none true)

/-- The scope of an address, zero if there is none. -/
def scope : Scanner UInt32 := fun input =>
  let written : Scanner Nat := do
    mark '%'
    number 10 0xffffffff none true
  match written input with
  | some (value, rest) => some (UInt32.ofNat value, rest)
  | none => some (0, input)

def socketV4 : Scanner SocketAddress := do
  let address ← addressV4
  return .v4 address (← port)

def socketV6 : Scanner SocketAddress := do
  mark '['
  let address ← addressV6
  let scope ← scope
  mark ']'
  return .v6 address scope (← port)

end Scanner

def SocketAddress.ofString? (text : String) : Option SocketAddress :=
  match (Scanner.socketV4 text.toList).or (Scanner.socketV6 text.toList) with
  | some (address, []) => some address
  | _ => none

end SequencedFeed
