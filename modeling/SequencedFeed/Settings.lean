import SequencedFeed.Duration
import SequencedFeed.Json.Record
set_option autoImplicit false

/-!
# Configuration

The settings of the inbound feeds as a host configuration holds them: where the feeds are, and how
long a connection may be silent.
-/

namespace SequencedFeed

open Json (Field Shape Reader)

/-- How long a connection may be silent unless configured otherwise. -/
def defaultIdleTimeout : Duration :=
  Duration.ofSeconds 20

structure FeedSettings where
  urls : List String
  timeout : Duration
deriving DecidableEq

namespace FeedSettings

/-- One empty address: no feed. -/
def standard : FeedSettings :=
  { urls := [""], timeout := defaultIdleTimeout }

/-- The feeds are switched off by an empty or missing first address. -/
def isEnabled (settings : FeedSettings) : Bool :=
  match settings.urls with
  | [] => false
  | first :: _ => first ≠ ""

/-- The addresses that are not empty, in configured order. -/
def endpoints (settings : FeedSettings) : List String :=
  settings.urls.filter (· ≠ "")

/-- Settings that are being read. -/
structure Draft where
  urls : Option (List String)
  timeout : Option Duration

/-- Fields that are left out keep their standard value. Timeouts are whole seconds. -/
def shape (budget : Nat) : Shape Draft FeedSettings where
  title := "FeedClientConfig"
  blank := ⟨none, none⟩
  fields := [
    { name := "urls"
      isHeld := fun draft => draft.urls.isSome
      store := fun draft input => do
        let (urls, rest) ← Json.listValue budget (fun _ => Json.stringValue) input
        return ({ draft with urls := some urls }, rest)
      required := false },
    { name := "timeout"
      isHeld := fun draft => draft.timeout.isSome
      store := fun draft input => do
        let (seconds, rest) ← Json.unsigned64 input
        return ({ draft with timeout := some (Duration.ofSeconds seconds) }, rest)
      required := false }]
  finish draft := .ok
    { urls := draft.urls.getD standard.urls, timeout := draft.timeout.getD standard.timeout }

def read (budget : Nat) : Reader FeedSettings :=
  Shape.read budget shape

def parse (text : List UInt8) : Except Json.Located FeedSettings :=
  Json.parse read text

/-- The section of a host configuration that holds the settings as its field `input`. -/
def sectionShape (budget : Nat) : Shape (Option FeedSettings) FeedSettings where
  title := "FeedConfig"
  blank := none
  fields := [
    { name := "input"
      isHeld := Option.isSome
      store := fun _ input => do
        let (settings, rest) ← FeedSettings.read budget input
        return (some settings, rest)
      required := false }]
  finish draft := .ok (draft.getD standard)

/-- Settings from the JSON text of their section. -/
def parseSection (text : List UInt8) : Except Json.Located FeedSettings :=
  Json.parse (fun budget => Shape.read budget sectionShape) text

end FeedSettings

end SequencedFeed
