import SequencedFeed.Link
import SequencedFeed.Timeline
set_option autoImplicit false

/-!
# The in-memory transport by itself

Dials take the next outcome of a script, and hang if there is none. Reads of one connection take
turns in the order in which they begin; an idle deadline starts with the turn. Dials, reads and waits
for a close run side by side and are numbered together in the order in which they begin.
-/

namespace SequencedFeed

/-- A call that has not ended. -/
inductive WaitingCall
  | dial
  | read (link : Nat) (idle : Duration) (turn : Option Nat)
  | untilClosed (link : Nat)

inductive CallResult
  | dialled (dial : Nat)
  | read (result : ReadResult)
  | closed
  | failed (error : TransportError)

/-- A dial: when it began, its address, and the connection it gave. -/
structure RehearsedDial where
  time : Nat
  url : String
  link : Option Nat

structure Rehearsal where
  now : Nat
  script : List DialEnd
  links : List Link
  dials : List RehearsedDial
  calls : List (WaitingCall ⊕ CallResult)

/-- An outcome that is put at the end of the script. -/
inductive RehearsedOutcome
  | connect (name : String)
  | fail (error : TransportError)
  | failNext (count : Nat)

inductive RehearsalStep
  | queue (outcome : RehearsedOutcome)
  | dial (url : String)
  | read (dial : Nat) (idle : Duration)
  | waitClosed (name : String)
  | close (dial : Nat)
  | push (name : String) (item : ReadResult)
  | hangUp (name : String)
  | sleep (millis : Nat)

namespace Rehearsal

def fresh : Rehearsal :=
  { now := 0, script := [], links := [], dials := [], calls := [] }

def changeLink (rehearsal : Rehearsal) (index : Nat) (change : Link → Link) : Rehearsal :=
  { rehearsal with links := rehearsal.links.modify index change }

/-- Gives a read its turn, and ends it if something is there to read or its deadline has passed. -/
def resumeRead (now : Nat) (links : List Link) (link : Nat) (idle : Duration) (turn : Option Nat) :
    (WaitingCall ⊕ CallResult) × List Link :=
  let since := turn.getD now
  match links[link]?.bind Link.read? with
  | some (result, rest) => (.inr (.read result), links.set link rest)
  | none =>
      if idle.millis ≠ 0 ∧ expiry since idle.millis ≤ now then
        (.inr (.read (.error (.idleTimeout idle))), links)
      else (.inl (.read link idle (some since)), links)

def isClosed (links : List Link) (link : Nat) : Bool :=
  (links[link]?.map Link.isClosed).getD false

/-- Resumes calls in order. A read waits behind an earlier read of its connection, whose number is
then among the `busy`, unless the connection is closed. -/
def resumeAll (now : Nat) : List (WaitingCall ⊕ CallResult) → List Nat → List Link →
    List (WaitingCall ⊕ CallResult) × List Link
  | [], _, links => ([], links)
  | call :: rest, busy, links =>
      let (call, busy, links) :=
        match call with
        | .inr result => (Sum.inr result, busy, links)
        | .inl .dial => (.inl .dial, busy, links)
        | .inl (.untilClosed link) =>
            if isClosed links link then (.inr .closed, busy, links)
            else (.inl (.untilClosed link), busy, links)
        | .inl (.read link idle turn) =>
            if link ∈ busy ∧ !isClosed links link then (.inl (.read link idle turn), busy, links)
            else
              match resumeRead now links link idle turn with
              | (.inr result, links) => (.inr result, busy, links)
              | (.inl waiting, links) => (.inl waiting, link :: busy, links)
      let (rest, links) := resumeAll now rest busy links
      (call :: rest, links)

def settle (rehearsal : Rehearsal) : Rehearsal :=
  let (calls, links) := resumeAll rehearsal.now rehearsal.calls [] rehearsal.links
  { rehearsal with calls, links }

/-- The idle deadline of a read whose turn has come. -/
def callDue? : WaitingCall ⊕ CallResult → Option Nat
  | .inl (.read _ idle (some since)) => if idle.millis = 0 then none else some (expiry since idle.millis)
  | _ => none

def timed : Timed Rehearsal where
  due? rehearsal := earliest? (rehearsal.calls.map callDue?)
  wake instant rehearsal := { rehearsal with now := instant }.settle

def call (rehearsal : Rehearsal) (begun : WaitingCall ⊕ CallResult) : Rehearsal :=
  { rehearsal with calls := rehearsal.calls ++ [begun] }

def dial (rehearsal : Rehearsal) (url : String) : Rehearsal :=
  let number := rehearsal.dials.length
  let begun (link : Option Nat) : RehearsedDial := { time := rehearsal.now, url, link }
  match rehearsal.script with
  | [] => { rehearsal with dials := rehearsal.dials ++ [begun none] }.call (.inl .dial)
  | .connect link :: script =>
      { rehearsal with script, dials := rehearsal.dials ++ [begun (some link)] }.call
        (.inr (.dialled number))
  | .fail error :: script =>
      { rehearsal with script, dials := rehearsal.dials ++ [begun none] }.call (.inr (.failed error))

def dialled? (rehearsal : Rehearsal) (dial : Nat) : Option Nat :=
  rehearsal.dials[dial]?.bind RehearsedDial.link

def queue (rehearsal : Rehearsal) : RehearsedOutcome → Rehearsal
  | .connect name =>
      { rehearsal with
        script := rehearsal.script ++ [.connect rehearsal.links.length]
        links := rehearsal.links ++ [Link.ofName name] }
  | .fail error => { rehearsal with script := rehearsal.script ++ [.fail error] }
  | .failNext count =>
      { rehearsal with script := rehearsal.script ++ List.replicate count (.fail scriptedFailure) }

/-- Does something to the connection of a name or number, if there is one. -/
def withLink (rehearsal : Rehearsal) (link : Option Nat)
    (change : Nat → Rehearsal → Rehearsal) : Rehearsal :=
  match link with
  | none => rehearsal
  | some index => (change index rehearsal).settle

/-- One step, after which every call has ended or waits. -/
def apply (rehearsal : Rehearsal) : RehearsalStep → Rehearsal
  | .queue outcome => rehearsal.queue outcome
  | .dial url => rehearsal.dial url
  | .read dial idle =>
      rehearsal.withLink (rehearsal.dialled? dial) fun link state =>
        state.call (.inl (.read link idle none))
  | .waitClosed name =>
      rehearsal.withLink (Link.lastNamed? rehearsal.links name) fun link state =>
        state.call (.inl (.untilClosed link))
  | .close dial =>
      rehearsal.withLink (rehearsal.dialled? dial) fun link state =>
        state.changeLink link Link.close
  | .push name item =>
      rehearsal.withLink (Link.lastNamed? rehearsal.links name) fun link state =>
        state.changeLink link (Link.push item)
  | .hangUp name =>
      rehearsal.withLink (Link.lastNamed? rehearsal.links name) fun link state =>
        state.changeLink link Link.hangUp
  | .sleep millis => timed.pass rehearsal.now (rehearsal.now + millis) rehearsal

end Rehearsal

end SequencedFeed
