import SequencedFeed.Backoff
import SequencedFeed.Settings
import SequencedFeed.Text.Quoted
set_option autoImplicit false

/-!
# Endpoints and client options

Where a client connects to, and everything else that is fixed when it is made.
-/

namespace SequencedFeed

/-- How long a dial may take unless told otherwise. -/
def defaultDialTimeout : Duration :=
  Duration.ofSeconds 10

/-- The wait between attempts before the first connection. -/
def defaultSupervisorDelay : Duration :=
  Duration.ofSeconds 5

/-- How long a confirmation may wait for room. -/
def defaultConfirmationTimeout : Duration :=
  Duration.ofSeconds 5

/-- An address with its time limits. A connection may be silent without end if the idle timeout is
zero. -/
structure Endpoint where
  url : String
  idleTimeout : Duration
  dialTimeout : Duration
deriving DecidableEq

namespace Endpoint

/-- An empty address switches the feed off. -/
def isDisabled (endpoint : Endpoint) : Bool :=
  endpoint.url = ""

def display (endpoint : Endpoint) : String :=
  "Endpoint \x7b url: " ++ Quoted.quote endpoint.url ++ ", idle_timeout: " ++
    endpoint.idleTimeout.text ++ ", dial_timeout: " ++ endpoint.dialTimeout.text ++ " \x7d"

end Endpoint

/-- What is fixed when a client is made. The starting sequence number is advice and never enforced. -/
structure ClientOptions where
  endpoint : Endpoint
  initialSequence : Nat
  backoff : Backoff
  supervisorDelay : Duration
  confirmationTimeout : Duration
deriving DecidableEq

namespace ClientOptions

/-- A client for an address, with everything else as usual. -/
def standard (url : String) : ClientOptions :=
  { endpoint := ⟨url, defaultIdleTimeout, defaultDialTimeout⟩
    initialSequence := 0
    backoff := Backoff.standard
    supervisorDelay := defaultSupervisorDelay
    confirmationTimeout := defaultConfirmationTimeout }

def withIdleTimeout (options : ClientOptions) (timeout : Duration) : ClientOptions :=
  { options with endpoint := { options.endpoint with idleTimeout := timeout } }

def withDialTimeout (options : ClientOptions) (timeout : Duration) : ClientOptions :=
  { options with endpoint := { options.endpoint with dialTimeout := timeout } }

def withInitialSequence (options : ClientOptions) (sequence : Nat) : ClientOptions :=
  { options with initialSequence := sequence }

/-- Back-off is normalised as it is set. -/
def withBackoff (options : ClientOptions) (backoff : Backoff) : ClientOptions :=
  { options with backoff := backoff.normalized }

def withSupervisorDelay (options : ClientOptions) (delay : Duration) : ClientOptions :=
  { options with supervisorDelay := delay }

def withConfirmationTimeout (options : ClientOptions) (timeout : Duration) : ClientOptions :=
  { options with confirmationTimeout := timeout }

/-- A client with these options on one line, for people; most of it is left out. -/
def display (options : ClientOptions) (retryCount : Nat) : String :=
  "FeedClient \x7b endpoint: " ++ options.endpoint.display ++ ", retry_count: " ++ Nat.repr retryCount ++
    ", .. \x7d"

end ClientOptions

end SequencedFeed
