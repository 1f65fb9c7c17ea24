import SequencedFeed.Log
import SequencedFeed.Metrics
import SequencedFeed.Timeline
set_option autoImplicit false

/-!
# The confirmation channel

A bounded channel of sequence numbers. Senders that find it full wait in line; room that becomes
free is granted to the first of them, who uses it when they run next. Whoever receives only takes
what is there.
-/

namespace SequencedFeed

/-- Values in the channel, senders who may put one more into it, senders in line, and whether there
still is a receiver. -/
structure Channel where
  capacity : Nat
  queue : List Nat
  granted : List Nat
  waiting : List Nat
  isOpen : Bool
deriving DecidableEq

namespace Channel

def ofCapacity (capacity : Nat) : Channel :=
  { capacity, queue := [], granted := [], waiting := [], isOpen := true }

/-- Places that are neither taken nor granted. -/
def room (channel : Channel) : Nat :=
  channel.capacity - (channel.queue.length + channel.granted.length)

def put (channel : Channel) (value : Nat) : Channel :=
  { channel with queue := channel.queue ++ [value] }

/-- Grants what room there is to the first in line. -/
def grant (channel : Channel) : Channel :=
  { channel with
    granted := channel.granted ++ channel.waiting.take channel.room
    waiting := channel.waiting.drop channel.room }

def enqueue (channel : Channel) (sender : Nat) : Channel :=
  { channel with waiting := channel.waiting ++ [sender] }

def redeem (channel : Channel) (sender value : Nat) : Channel :=
  { channel with granted := channel.granted.erase sender }.put value

/-- A sender gives up; a place granted to them goes to the next in line. -/
def leave (channel : Channel) (sender : Nat) : Channel :=
  { channel with
    granted := channel.granted.erase sender
    waiting := channel.waiting.erase sender }.grant

/-- How many values a receiver takes who wants at most `most`. -/
def available (channel : Channel) (most : Option Nat) : Nat :=
  match most with
  | none => channel.queue.length
  | some most => min most channel.queue.length

/-- Takes values from the front, then grants the freed room. -/
def receive (channel : Channel) (most : Option Nat) : List Nat × Channel :=
  let count := channel.available most
  (channel.queue.take count, { channel with queue := channel.queue.drop count }.grant)

/-- The receiver goes, and the values in the channel with it. -/
def closeReceiver (channel : Channel) : Channel :=
  { channel with queue := [], granted := [], waiting := [], isOpen := false }

end Channel

/-! ### Sending with a time limit -/

inductive SendEnd
  | delivered
  | timedOut
  | closed
  | abandoned
deriving DecidableEq

/-- Where an attempt stands: ended, or in line until a deadline. -/
inductive Sending
  | ended (how : SendEnd)
  | inLine (deadline : Nat)
deriving DecidableEq

namespace Channel

/-- Begins to send. Cancellation is looked at first, then the channel; only without room does the time
limit matter, and a limit of zero is over at once. The limit is not cut off as that of a sleep is. -/
def beginSend (channel : Channel) (sender value : Nat) (timeout : Duration) (cancelled : Bool)
    (now : Nat) : Sending × Channel :=
  if cancelled then (.ended .abandoned, channel)
  else if !channel.isOpen then (.ended .closed, channel)
  else if 0 < channel.room then (.ended .delivered, channel.put value)
  else if timeout.millis = 0 then (.ended .timedOut, channel)
  else (.inLine (now + timeout.millis), channel.enqueue sender)

/-- Looks again at a sender in line, in the same order. -/
def resumeSend (channel : Channel) (sender value deadline : Nat) (cancelled : Bool) (now : Nat) :
    Sending × Channel :=
  if cancelled then (.ended .abandoned, channel.leave sender)
  else if sender ∈ channel.granted then (.ended .delivered, channel.redeem sender value)
  else if !channel.isOpen then (.ended .closed, channel)
  else if deadline ≤ now then (.ended .timedOut, channel.leave sender)
  else (.inLine deadline, channel)

end Channel

namespace SendEnd

/-- A value that is dropped is reported, unless the sender was cancelled. -/
def report? (how : SendEnd) (value : Nat) (timeout : Duration) : Option LogEvent :=
  match how with
  | .delivered => none
  | .timedOut => some (.channelFull value timeout)
  | .closed => some (.channelClosed value)
  | .abandoned => none

def meter (how : SendEnd) (metrics : Metrics) : Metrics :=
  match how with
  | .delivered => metrics
  | .timedOut => metrics.errorOccurred .confirmation
  | .closed => metrics.errorOccurred .confirmation
  | .abandoned => metrics

end SendEnd

end SequencedFeed
