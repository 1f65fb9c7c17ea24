import SequencedFeed.Channel
import SequencedFeed.Timeline
set_option autoImplicit false

/-!
# A publisher with many calls

One publisher of confirmations whose calls run side by side, all under one cancellation token, on a
channel of its own. Calls are numbered in the order in which they begin.
-/

namespace SequencedFeed

/-- A call: what it sends, when it began, when it was last looked at, and where it stood then. -/
structure PublishCall where
  value : Nat
  begun : Nat
  time : Nat
  sending : Sending
deriving DecidableEq

/-- The instant at which a call still in line runs out of time. -/
def PublishCall.due? (call : PublishCall) : Option Nat :=
  match call.sending with
  | .inLine deadline => some deadline
  | .ended _ => none

/-- The publisher, its calls and everything they left behind. The latest records come first. -/
structure Publisher where
  now : Nat
  timeout : Duration
  cancelled : Bool
  channel : Channel
  calls : List PublishCall
  records : List LogRecord
  metrics : Metrics

/-- What may be done to a publisher from outside. -/
inductive PublisherStep
  | publish (value : Nat)
  | cancel
  | sleep (millis : Nat)
  | receive (most : Option Nat)
  | closeReceiver
deriving DecidableEq

namespace Publisher

def make (capacity : Nat) (timeout : Duration) : Publisher :=
  { now := 0, timeout, cancelled := false, channel := Channel.ofCapacity capacity, calls := []
    records := [], metrics := Metrics.untouched }

/-- Takes note of how an attempt to send went. -/
def note (publisher : Publisher) (value : Nat) (sending : Sending) : Publisher :=
  match sending with
  | .inLine _ => publisher
  | .ended how =>
      { publisher with
        records :=
          ((how.report? value publisher.timeout).map (LogRecord.mk publisher.now)).toList ++
            publisher.records
        metrics := how.meter publisher.metrics }

def publish (publisher : Publisher) (value : Nat) : Publisher :=
  let (sending, channel) := publisher.channel.beginSend publisher.calls.length value
    publisher.timeout publisher.cancelled publisher.now
  let call : PublishCall := { value, begun := publisher.now, time := publisher.now, sending }
  { publisher with channel, calls := publisher.calls ++ [call] }.note value sending

/-- One call looks again, if it is still in line. -/
def resume (publisher : Publisher) (sender : Nat) (call : PublishCall) : PublishCall × Publisher :=
  match call.sending with
  | .ended _ => (call, publisher)
  | .inLine deadline =>
      let (sending, channel) := publisher.channel.resumeSend sender call.value deadline
        publisher.cancelled publisher.now
      let seen : PublishCall := { call with time := publisher.now, sending }
      (seen, { publisher with channel }.note call.value sending)

/-- The calls from number `sender` on look again, one after the other. -/
def resumeFrom (publisher : Publisher) (sender : Nat) :
    List PublishCall → List PublishCall × Publisher
  | [] => ([], publisher)
  | call :: rest =>
      let (call, publisher) := publisher.resume sender call
      let (rest, publisher) := publisher.resumeFrom (sender + 1) rest
      (call :: rest, publisher)

/-- Every call in line looks again, in the order in which they began. -/
def settle (publisher : Publisher) : Publisher :=
  let (calls, publisher) := publisher.resumeFrom 0 publisher.calls
  { publisher with calls }

def timed : Timed Publisher where
  due? publisher := earliest? (publisher.calls.map PublishCall.due?)
  wake instant publisher := { publisher with now := instant }.settle

/-- One step, after which every call has ended or waits. Gives the values received by it. -/
def apply (publisher : Publisher) : PublisherStep → Publisher × List Nat
  | .publish value => (publisher.publish value, [])
  | .cancel => ({ publisher with cancelled := true }.settle, [])
  | .sleep millis => (timed.pass publisher.now (publisher.now + millis) publisher, [])
  | .receive most =>
      let (values, channel) := publisher.channel.receive most
      ({ publisher with channel }.settle, values)
  | .closeReceiver => ({ publisher with channel := publisher.channel.closeReceiver }.settle, [])

end Publisher

end SequencedFeed
