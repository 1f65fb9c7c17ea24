set_option autoImplicit false

/-!
# Metrics

One gauge for the open connections and counters for what went well and wrong. A metric is shown from
the first time it is touched on; a counter is touched exactly when it is not zero.
-/

namespace SequencedFeed

/-- What a counted error is about. -/
inductive ErrorKind
  | read
  | decode
  | sink
  | confirmation
deriving DecidableEq

structure Metrics where
  gauge : Option Int
  frames : Nat
  dialFailures : Nat
  readErrors : Nat
  decodeErrors : Nat
  sinkErrors : Nat
  confirmationErrors : Nat
deriving DecidableEq

namespace Metrics

def untouched : Metrics := ⟨none, 0, 0, 0, 0, 0, 0⟩

/-- Open connections by the gauge, zero if it is untouched. -/
def active (metrics : Metrics) : Int :=
  metrics.gauge.getD 0

def connectionOpened (metrics : Metrics) : Metrics :=
  { metrics with gauge := some (metrics.active + 1) }

def connectionClosed (metrics : Metrics) : Metrics :=
  { metrics with gauge := some (metrics.active - 1) }

def frameReceived (metrics : Metrics) : Metrics :=
  { metrics with frames := metrics.frames + 1 }

def dialFailed (metrics : Metrics) : Metrics :=
  { metrics with dialFailures := metrics.dialFailures + 1 }

def errors (metrics : Metrics) : ErrorKind → Nat
  | .read => metrics.readErrors
  | .decode => metrics.decodeErrors
  | .sink => metrics.sinkErrors
  | .confirmation => metrics.confirmationErrors

def errorOccurred (metrics : Metrics) : ErrorKind → Metrics
  | .read => { metrics with readErrors := metrics.readErrors + 1 }
  | .decode => { metrics with decodeErrors := metrics.decodeErrors + 1 }
  | .sink => { metrics with sinkErrors := metrics.sinkErrors + 1 }
  | .confirmation => { metrics with confirmationErrors := metrics.confirmationErrors + 1 }

/-- What several metered parts amount to together. -/
def add (left right : Metrics) : Metrics :=
  { gauge :=
      match left.gauge, right.gauge with
      | none, gauge => gauge
      | gauge, none => gauge
      | some here, some there => some (here + there)
    frames := left.frames + right.frames
    dialFailures := left.dialFailures + right.dialFailures
    readErrors := left.readErrors + right.readErrors
    decodeErrors := left.decodeErrors + right.decodeErrors
    sinkErrors := left.sinkErrors + right.sinkErrors
    confirmationErrors := left.confirmationErrors + right.confirmationErrors }

instance : Add Metrics := ⟨add⟩

def sum (parts : List Metrics) : Metrics :=
  parts.foldr (· + ·) untouched

/-! ### Names -/

def ErrorKind.label : ErrorKind → String
  | .read => "read"
  | .decode => "decode"
  | .sink => "sink"
  | .confirmation => "confirmation"

/-- The name of an error counter carries its label. -/
def errorName (kind : ErrorKind) : String :=
  "feedclient_errors_total\x7bkind=" ++ ErrorKind.label kind ++ "\x7d"

/-- Names and values of the metrics touched so far. -/
def entries (metrics : Metrics) : List (String × Int) :=
  let counter (name : String) (count : Nat) : List (String × Int) :=
    if count = 0 then [] else [(name, count)]
  (match metrics.gauge with
    | none => []
    | some value => [("feedclient_connections_active", value)]) ++
  counter "feedclient_connect_failures_total" metrics.dialFailures ++
  counter (errorName .confirmation) metrics.confirmationErrors ++
  counter (errorName .decode) metrics.decodeErrors ++
  counter (errorName .read) metrics.readErrors ++
  counter (errorName .sink) metrics.sinkErrors ++
  counter "feedclient_frames_received_total" metrics.frames

end Metrics

end SequencedFeed
