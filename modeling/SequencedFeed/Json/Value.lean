import SequencedFeed.Binary64
set_option autoImplicit false

/-!
# JSON values

Numbers are exact integers or double-precision numbers. The members of an object are kept in
ascending order of their keys, one for every key; inserting a key again replaces its value.
-/

namespace SequencedFeed

def maxUnsigned64 : Nat := 0xffffffffffffffff

def minSigned64 : Int := -0x8000000000000000

def maxSigned64 : Int := 0x7fffffffffffffff

inductive Number
  | integer (value : Int)
  | real (value : Binary64)
deriving DecidableEq, Inhabited

inductive Json
  | null
  | bool (value : Bool)
  | number (value : Number)
  | string (text : String)
  | array (items : List Json)
  | object (members : List (String × Json))
deriving Inhabited

namespace Json

/-- Members in ascending order with one more: a new key takes its place in the order, a known one
gets the new value. -/
def insertMember (key : String) (value : Json) : List (String × Json) → List (String × Json)
  | [] => [(key, value)]
  | (other, held) :: rest =>
      if key = other then (key, value) :: rest
      else if key < other then (key, value) :: (other, held) :: rest
      else (other, held) :: insertMember key value rest

/-- The object with these members, the last of several with one key. -/
def ofMembers (members : List (String × Json)) : Json :=
  .object (members.foldl (fun sorted (key, value) => insertMember key value sorted) [])

def nat (value : Nat) : Json :=
  .number (.integer value)

def int (value : Int) : Json :=
  .number (.integer value)

def ofOption {α : Type} (write : α → Json) : Option α → Json
  | none => .null
  | some value => write value

def member? (key : String) : Json → Option Json
  | .object members => members.lookup key
  | _ => none

end Json

end SequencedFeed
