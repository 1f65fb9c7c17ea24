import SequencedFeed.Failure
set_option autoImplicit false

/-!
# Scripted connections

A connection of the in-memory transport is a queue that its owner fills with frames and errors. A
reader sees a closed connection first, then what is queued, and then whether the owner has gone.
-/

namespace SequencedFeed

abbrev ReadResult : Type :=
  Except TransportError (List UInt8)

/-- A connection: everything that was ever queued, how much of it has been read, whether the owner has
hung up, and how often the connection was closed. -/
structure Link where
  name : String
  sent : List ReadResult
  taken : Nat
  hungUp : Bool
  closes : Nat

namespace Link

def ofName (name : String) : Link :=
  { name, sent := [], taken := 0, hungUp := false, closes := 0 }

def items (link : Link) : List ReadResult :=
  link.sent.drop link.taken

def isClosed (link : Link) : Bool :=
  0 < link.closes

/-- Queues an item; a connection that was hung up takes none. -/
def push (item : ReadResult) (link : Link) : Link :=
  if link.hungUp then link else { link with sent := link.sent ++ [item] }

def hangUp (link : Link) : Link :=
  { link with hungUp := true }

def close (link : Link) : Link :=
  { link with closes := link.closes + 1 }

/-- What a read gives at once; `none` if it has to wait. -/
def read? (link : Link) : Option (ReadResult × Link) :=
  if link.isClosed then some (.error .closed, link)
  else
    match link.sent[link.taken]? with
    | some item => some (item, { link with taken := link.taken + 1 })
    | none => if link.hungUp then some (.error .closed, link) else none

/-- The number of the connection last made under a name, among all connections in the order in which
they were made. -/
def lastNamed? (links : List Link) (name : String) : Option Nat :=
  (List.range links.length).reverse.find? fun number => (links[number]?.map Link.name) == some name

end Link

/-- How a dial ends that ends. Connections are known by their number. -/
inductive DialEnd
  | connect (link : Nat)
  | fail (error : TransportError)
deriving DecidableEq

/-- The failure of dials that fail without a reason of their own. -/
def scriptedFailure : TransportError :=
  .io "scripted dial failure"

end SequencedFeed
