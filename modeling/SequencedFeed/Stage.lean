import SequencedFeed.Channel
import SequencedFeed.Link
set_option autoImplicit false

/-!
# The stage of a scenario

Everything around the clients of a scenario: the clock, the token they are started under, the scripts
their dials follow, the connections those dials give, and the confirmation channel.
-/

namespace SequencedFeed

/-- How a scripted dial goes: it ends or hangs, after some milliseconds, and may ask for all clients
to be stopped right before it ends. -/
structure Outcome where
  ends : Option DialEnd
  after : Nat
  stops : Bool
deriving DecidableEq

namespace Outcome

def hang : Outcome :=
  { ends := none, after := 0, stops := false }

def failing (error : TransportError) : Outcome :=
  { ends := some (.fail error), after := 0, stops := false }

def link? (outcome : Outcome) : Option Nat :=
  match outcome.ends with
  | some (.connect link) => some link
  | _ => none

end Outcome

/-- The outcomes of the dials to one address, in order. Dials beyond them fail if there is an error
for that, and hang otherwise. -/
structure DialScript where
  outcomes : List Outcome
  beyond : Option TransportError

namespace DialScript

def empty : DialScript :=
  { outcomes := [], beyond := none }

def next (script : DialScript) : Outcome × DialScript :=
  match script.outcomes, script.beyond with
  | outcome :: rest, _ => (outcome, { script with outcomes := rest })
  | [], some error => (Outcome.failing error, script)
  | [], none => (Outcome.hang, script)

end DialScript

/-- The surroundings of the clients. `moves` counts what all clients did so far, and `stopAsked` is set
while a dial's request to stop everybody has not been passed on. -/
structure Stage where
  now : Nat
  tokenCancelled : Bool
  scripts : List (String × DialScript)
  links : List Link
  channel : Option Channel
  moves : Nat
  stopAsked : Bool

namespace Stage

def script (stage : Stage) (url : String) : DialScript :=
  (stage.scripts.lookup url).getD DialScript.empty

def setScript (url : String) (script : DialScript) :
    List (String × DialScript) → List (String × DialScript)
  | [] => []
  | (other, held) :: rest =>
      if url = other then (other, script) :: rest else (other, held) :: setScript url script rest

/-- Takes the outcome of the next dial to an address. -/
def nextOutcome (stage : Stage) (url : String) : Outcome × Stage :=
  let (outcome, script) := (stage.script url).next
  (outcome, { stage with scripts := setScript url script stage.scripts })

def changeLink (stage : Stage) (link : Nat) (change : Link → Link) : Stage :=
  { stage with links := stage.links.modify link change }

def readLink? (stage : Stage) (link : Nat) : Option (ReadResult × Stage) :=
  match stage.links[link]?.bind Link.read? with
  | none => none
  | some (result, rest) => some (result, { stage with links := stage.links.set link rest })

end Stage

end SequencedFeed
