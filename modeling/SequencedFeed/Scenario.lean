import SequencedFeed.Stage
set_option autoImplicit false

/-!
# Scenarios

What may be asked of a stage and its clients from outside, and how the dials of a scenario are laid
down in advance.
-/

namespace SequencedFeed

/-- A step of a scenario. Whatever can happen without time passing happens before the next step. -/
inductive ScenarioStep
  | look
  | start
  | cancel
  | stop
  | sleep (millis : Nat)
  | push (name : String) (item : ReadResult) (times : Nat)
  | hangUp (name : String)
  | receive (most : Option Nat)
  | closeReceiver

/-- How one or more dials are to end: with a connection of a name, with an error, with several
failures in a row, or never. -/
inductive PlannedEnd
  | connect (name : String)
  | fail (error : TransportError)
  | failNext (count : Nat)
  | hang
deriving DecidableEq

/-- A plan for dials, with the time they take and whether they stop all clients. -/
structure PlannedDial where
  ends : PlannedEnd
  after : Nat
  stops : Bool
deriving DecidableEq

namespace PlannedDial

/-- The outcomes of a plan, and the name of the connection that it makes, which has the number
`link`. -/
def outcomes (link : Nat) (plan : PlannedDial) : List Outcome × List String :=
  let ending (ends : Option DialEnd) : Outcome :=
    { ends, after := plan.after, stops := plan.stops }
  match plan.ends with
  | .connect name => ([ending (some (.connect link))], [name])
  | .fail error => ([ending (some (.fail error))], [])
  | .failNext count => (List.replicate count (ending (some (.fail scriptedFailure))), [])
  | .hang => ([ending none], [])

/-- The outcomes of several plans in order, with connections numbered from `link`. -/
def allOutcomes (link : Nat) : List PlannedDial → List Outcome × List String
  | [] => ([], [])
  | plan :: rest =>
      let (first, made) := plan.outcomes link
      let (others, names) := allOutcomes (link + made.length) rest
      (first ++ others, made ++ names)

end PlannedDial

/-- Scripts for the plans of several addresses, with connections numbered from `link`. -/
def plannedScripts (link : Nat) :
    List (String × List PlannedDial) → List (String × DialScript) × List String
  | [] => ([], [])
  | (url, plans) :: rest =>
      let (outcomes, made) := PlannedDial.allOutcomes link plans
      let (scripts, names) := plannedScripts (link + made.length) rest
      ((url, { outcomes, beyond := none }) :: scripts, made ++ names)

namespace Stage

def fresh (scripts : List (String × DialScript)) (names : List String) (capacity : Option Nat) :
    Stage :=
  { now := 0, tokenCancelled := false, scripts, links := names.map Link.ofName
    channel := capacity.map Channel.ofCapacity, moves := 0, stopAsked := false }

def planned (plans : List (String × List PlannedDial)) (capacity : Option Nat) : Stage :=
  let (scripts, names) := plannedScripts 0 plans
  fresh scripts names capacity

/-- A stage on which every dial to an address is refused. -/
def refusing (url : String) (error : TransportError) (capacity : Option Nat) : Stage :=
  fresh [(url, { outcomes := [], beyond := some error })] [] capacity

def changeNamed (stage : Stage) (name : String) (change : Link → Link) : Stage :=
  match Link.lastNamed? stage.links name with
  | none => stage
  | some link => stage.changeLink link change

def push (stage : Stage) (name : String) (item : ReadResult) (times : Nat) : Stage :=
  stage.changeNamed name (Nat.repeat (Link.push item) times)

def hangUp (stage : Stage) (name : String) : Stage :=
  stage.changeNamed name Link.hangUp

def receive (stage : Stage) (most : Option Nat) : List Nat × Stage :=
  match stage.channel with
  | none => ([], stage)
  | some channel =>
      let (values, channel) := channel.receive most
      (values, { stage with channel := some channel })

def closeReceiver (stage : Stage) : Stage :=
  { stage with channel := stage.channel.map Channel.closeReceiver }

end Stage

end SequencedFeed
