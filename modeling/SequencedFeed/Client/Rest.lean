import SequencedFeed.Client.Move
set_option autoImplicit false

/-!
# Coming to rest

A client moves until it is at rest. The moves that it can make at one instant are bounded by its work:
every dial uses up an outcome of the script, every read an item of a connection, and between two of
these the phases only go down in rank.
-/

namespace SequencedFeed

namespace Client

def workUnit : Nat := 10

def runningRank : Phase → Nat
  | .idle => 0
  | .hanging _ => 2
  | .connecting _ => 3
  | .retrying _ => 4
  | .backingOff .. => 4
  | .reading .. => 5
  | .looping => 6
  | .ready => 7
  | .sending .. => 7
  | .confirming _ => 8
  | .sinking .. => 9
  | .dialling .. => 9

def stoppingRank : Phase → Nat
  | .idle => 0
  | .reading .. => 2
  | .looping => 3
  | .ready => 4
  | .sending .. => 4
  | .confirming _ => 5
  | .sinking .. => 6
  | .hanging _ => 7
  | .connecting _ => 7
  | .retrying _ => 8
  | .backingOff .. => 8
  | .dialling .. => 9

def rank (client : Client) : Nat :=
  if client.shouldStop then stoppingRank client.phase else runningRank client.phase

end Client

def Stage.itemsOf (stage : Stage) (link : Nat) : Nat :=
  ((stage.links[link]?.map Link.items).getD []).length

/-- The items that a dial may bring. -/
def Stage.itemsBehind (stage : Stage) (ends : DialEnd) : Nat :=
  match ends with
  | .connect link => stage.itemsOf link
  | .fail _ => 0

def Stage.outcomeWork (stage : Stage) (outcome : Outcome) : Nat :=
  1 + ((outcome.ends.map stage.itemsBehind).getD 0)

/-- What is left in a script; the dials beyond its outcomes count as one, for a failure is followed by
a wait. -/
def Stage.scriptWork (stage : Stage) (script : DialScript) : Nat :=
  (script.outcomes.map stage.outcomeWork).foldr (· + ·) 0 +
    (if script.beyond.isSome then 1 else 0)

namespace Client

/-- The items of the connection that the client holds, reads, or is about to get. -/
def itemsInHand (client : Client) (stage : Stage) : Nat :=
  ((client.slot.held.map stage.itemsOf).getD 0) +
    match client.phase with
    | .reading link _ => if client.slot.held = some link then 0 else stage.itemsOf link
    | .dialling _ ends _ _ => stage.itemsBehind ends
    | _ => 0

/-- A bound for the moves that the client can make without time passing. -/
def work (client : Client) (stage : Stage) : Nat :=
  client.rank +
    workUnit * (client.itemsInHand stage + stage.scriptWork (stage.script client.url))

def moveUpTo : Nat → Client → Stage → Client × Stage
  | 0, client, stage => (client, stage)
  | count + 1, client, stage =>
      match client.move? stage with
      | none => (client, stage)
      | some (client, stage) => moveUpTo count client stage

/-- Moves at most as often as told, and not on from where start-up is over. -/
def moveToReady : Nat → Client → Stage → Client × Stage
  | 0, client, stage => (client, stage)
  | count + 1, client, stage =>
      match client.move? stage with
      | none => (client, stage)
      | some (client, stage) =>
          if client.phase = .ready then (client, stage) else moveToReady count client stage

def settle (client : Client) (stage : Stage) : Client × Stage :=
  moveUpTo (client.work stage) client stage

/-- One turn of a client among others: it moves until it is at rest, but leaves its reading for a later
turn if its start-up ends in this one. -/
def takeTurn (client : Client) (stage : Stage) : Client × Stage :=
  moveToReady (client.work stage) client stage

/-- Whether the client can do nothing now. -/
def atRest (client : Client) (stage : Stage) : Prop :=
  client.move? stage = none

end Client

end SequencedFeed
