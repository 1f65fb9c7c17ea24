import SequencedFeed.Metrics
set_option autoImplicit false

/-!
# The connection slot

A slot holds at most one live connection together with the mark that the owner is shutting down.
Whatever leaves the slot is closed by the operation that removed it, and whatever a slot refuses
because of the mark is closed at once. The operations say what they do to connections and to the
gauge; a ledger of one slot carries that out.
-/

namespace SequencedFeed

/-- A slot for connections named by `ι`. -/
structure Slot (ι : Type) where
  held : Option ι
  shuttingDown : Bool
deriving DecidableEq

/-- What an operation on a slot does beyond the slot: a connection is counted as open, closed without
having been counted, or closed and no longer counted. -/
inductive SlotEffect (ι : Type)
  | enter
  | refuse (connection : ι)
  | release (connection : ι)
deriving DecidableEq

namespace Slot

variable {ι : Type}

def empty : Slot ι :=
  { held := none, shuttingDown := false }

/-- The release of a connection, if there is one. -/
def released : Option ι → List (SlotEffect ι)
  | none => []
  | some connection => [.release connection]

/-- Holds a connection and releases the one before it; refuses it once shutdown has begun. -/
def install (slot : Slot ι) (connection : ι) : Slot ι × List (SlotEffect ι) :=
  if slot.shuttingDown then (slot, [.refuse connection])
  else ({ slot with held := some connection }, .enter :: released slot.held)

/-- Releases a connection if it is the one held. -/
def discard [DecidableEq ι] (slot : Slot ι) (connection : ι) : Slot ι × List (SlotEffect ι) :=
  if slot.held = some connection then ({ slot with held := none }, [.release connection])
  else (slot, [])

/-- Sets the mark for good and releases the connection held. -/
def shutDown (slot : Slot ι) : Slot ι × List (SlotEffect ι) :=
  ({ held := none, shuttingDown := true }, released slot.held)

end Slot

def SlotEffect.closed? {ι : Type} : SlotEffect ι → Option ι
  | .enter => none
  | .refuse connection => some connection
  | .release connection => some connection

/-- The gauge after an effect. -/
def SlotEffect.meter {ι : Type} : SlotEffect ι → Metrics → Metrics
  | .enter, metrics => metrics.connectionOpened
  | .refuse _, metrics => metrics
  | .release _, metrics => metrics.connectionClosed

/-! ### A slot with its account -/

inductive SlotStep (ι : Type)
  | install (connection : ι)
  | discard (connection : ι)
  | shutDown
deriving DecidableEq

/-- One slot, every close call so far with the latest first, and the metrics. -/
structure SlotLedger (ι : Type) where
  slot : Slot ι
  closed : List ι
  metrics : Metrics

namespace SlotLedger

variable {ι : Type}

def fresh : SlotLedger ι :=
  { slot := Slot.empty, closed := [], metrics := Metrics.untouched }

def closes [DecidableEq ι] (ledger : SlotLedger ι) (connection : ι) : Nat :=
  ledger.closed.count connection

def record (ledger : SlotLedger ι) (effect : SlotEffect ι) : SlotLedger ι :=
  { ledger with
    closed := effect.closed?.toList ++ ledger.closed
    metrics := effect.meter ledger.metrics }

/-- The slot after an operation, with its effects carried out in order. -/
def settle (ledger : SlotLedger ι) (change : Slot ι × List (SlotEffect ι)) : SlotLedger ι :=
  change.2.foldl record { ledger with slot := change.1 }

def apply [DecidableEq ι] (ledger : SlotLedger ι) : SlotStep ι → SlotLedger ι
  | .install connection => ledger.settle (ledger.slot.install connection)
  | .discard connection => ledger.settle (ledger.slot.discard connection)
  | .shutDown => ledger.settle ledger.slot.shutDown

def accepts (ledger : SlotLedger ι) : Bool :=
  !ledger.slot.shuttingDown

end SlotLedger

end SequencedFeed
