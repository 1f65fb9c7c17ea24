import SequencedFeed.Text.Numeral
set_option autoImplicit false

/-!
# Socket addresses

An internet address of either version with a port, and its text. The text of a long address leaves out
its longest run of zero groups, and shows an address of the short form that it embeds as such.
-/

namespace SequencedFeed

/-- Four octets. -/
structure AddressV4 where
  octets : Vector UInt8 4
deriving DecidableEq

/-- Eight groups of sixteen bits. -/
structure AddressV6 where
  groups : Vector UInt16 8
deriving DecidableEq

/-- An address and a port; a long address may be meant within a scope, where zero is none. -/
inductive SocketAddress
  | v4 (address : AddressV4) (port : UInt16)
  | v6 (address : AddressV6) (scope : UInt32) (port : UInt16)
deriving DecidableEq

namespace AddressV4

/-- Octets in pairs. -/
def groups (address : AddressV4) : List UInt16 :=
  let pair (high low : UInt8) : UInt16 := UInt16.ofNat (high.toNat * 256 + low.toNat)
  [pair address.octets[0] address.octets[1], pair address.octets[2] address.octets[3]]

def text (address : AddressV4) : String :=
  ".".intercalate (address.octets.toList.map fun octet => numeral 10 octet.toNat)

end AddressV4

namespace AddressV6

/-- The address of the short form that a long one embeds: it comes after five groups of zeros and one
of ones. -/
def embedded? (address : AddressV6) : Option AddressV4 :=
  if address.groups.toList.take 6 = [0, 0, 0, 0, 0, 65535] then
    let high (group : UInt16) : UInt8 := UInt8.ofNat (group.toNat / 256)
    let low (group : UInt16) : UInt8 := UInt8.ofNat (group.toNat % 256)
    let (first, second) := (address.groups[6], address.groups[7])
    some ⟨#v[high first, low first, high second, low second]⟩
  else none

/-- The length of the run of zeros that begins a list. -/
def leadingZeros (groups : List UInt16) : Nat :=
  (groups.takeWhile (· == 0)).length

/-- The start and the length of the longest run of zeros; the first one wins. -/
def longestZeros (start : Nat) : List UInt16 → Nat × Nat
  | [] => (start, 0)
  | group :: rest =>
      let here := leadingZeros (group :: rest)
      let (there, length) := longestZeros (start + 1) rest
      if length ≤ here then (start, here) else (there, length)

def groupsText (groups : List UInt16) : String :=
  ":".intercalate (groups.map fun group => numeral 16 group.toNat)

/-- A single zero is written out. -/
def text (address : AddressV6) : String :=
  match address.embedded? with
  | some inner => "::ffff:" ++ inner.text
  | none =>
      let groups := address.groups.toList
      let (start, length) := longestZeros 0 groups
      if 1 < length then
        groupsText (groups.take start) ++ "::" ++ groupsText (groups.drop (start + length))
      else groupsText groups

end AddressV6

/-- The text of a socket address, in which a long address stands in brackets. -/
def SocketAddress.text : SocketAddress → String
  | .v4 address port => address.text ++ ":" ++ numeral 10 port.toNat
  | .v6 address scope port =>
      let zone := if scope = 0 then "" else "%" ++ numeral 10 scope.toNat
      "[" ++ address.text ++ zone ++ "]:" ++ numeral 10 port.toNat

end SequencedFeed
