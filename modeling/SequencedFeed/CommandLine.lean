import SequencedFeed.SocketAddress.Read
import SequencedFeed.Text.Terminal
set_option autoImplicit false

/-!
# The command line

The options that a feed follower takes, what they ask for, and what can be wrong with them.
-/

namespace SequencedFeed

/-- Options that take a value. -/
inductive ValueOption
  | url
  | timeout
  | startSequence
  | metricsAddress
deriving DecidableEq

/-- Everything that a word of the command line may name. -/
inductive Flag
  | option (which : ValueOption)
  | help
  | version
deriving DecidableEq

/-- What the command line asks for. Timeouts are whole seconds. -/
structure CommandLine where
  urls : List String
  timeout : Nat
  startSequence : Option Nat
  metricsAddress : Option SocketAddress
deriving DecidableEq

/-- How many seconds a connection may be silent unless asked otherwise. -/
def CommandLine.defaultTimeout : Nat := 20

namespace ValueOption

def valueName : ValueOption → String
  | .url => "URL"
  | .timeout => "SECS"
  | .startSequence => "N"
  | .metricsAddress => "ADDR"

def flag (option : ValueOption) : Flag := .option option

end ValueOption

namespace Flag

def all : List Flag :=
  [.option .url, .option .timeout, .option .startSequence, .option .metricsAddress, .help, .version]

def long : Flag → String
  | .option .url => "url"
  | .option .timeout => "timeout"
  | .option .startSequence => "start-sequence"
  | .option .metricsAddress => "metrics-addr"
  | .help => "help"
  | .version => "version"

def letter? : Flag → Option Char
  | .option .url => some 'u'
  | .option .timeout => some 't'
  | .option .startSequence => some 's'
  | .option .metricsAddress => none
  | .help => some 'h'
  | .version => some 'V'

def ofLong? (name : String) : Option Flag :=
  all.find? fun flag => flag.long = name

def ofLetter? (letter : Char) : Option Flag :=
  all.find? fun flag => flag.letter? = some letter

def usage (flag : Flag) : String :=
  match flag with
  | .option which => "--" ++ flag.long ++ " <" ++ which.valueName ++ ">"
  | _ => "--" ++ flag.long

def description : Flag → String
  | .option .url => "Feed endpoint; repeat for several feeds"
  | .option .timeout =>
      "Seconds without a frame before a connection is considered dead [default: " ++
        numeral 10 CommandLine.defaultTimeout ++ "]"
  | .option .startSequence => "Advisory sequence number to start from"
  | .option .metricsAddress => "Serve Prometheus metrics on this address"
  | .help => "Print help"
  | .version => "Print version"

end Flag

/-! ### Help -/

namespace CommandLine

def programName : String := "feedclient"

def versionText : String :=
  programName ++ " 0.1.0\n"

/-- The left column of the help text. -/
def helpEntry (flag : Flag) : String :=
  match flag.letter? with
  | some letter => "  -" ++ String.singleton letter ++ ", " ++ flag.usage
  | none => "      " ++ flag.usage

def helpWidth : Nat :=
  ((Flag.all.map fun flag => (helpEntry flag).length).foldl max 0) + 2

def helpLine (flag : Flag) : String :=
  let entry := helpEntry flag
  entry ++ String.ofList (List.replicate (helpWidth - entry.length) ' ') ++ flag.description ++ "\n"

def helpText : String :=
  "Follow sequenced message feeds over WebSocket\n\nUsage: " ++ programName ++ " [OPTIONS] " ++
    ValueOption.url.flag.usage ++ "\n\nOptions:\n" ++ String.join (Flag.all.map helpLine)

end CommandLine

/-! ### What can be wrong -/

inductive ValueFault
  | number (fault : NumeralFault)
  | socketAddress
deriving DecidableEq

def ValueFault.message : ValueFault → String
  | .number fault => fault.message
  | .socketAddress => "invalid socket address syntax"

/-- Why there is nothing to do but to show a text. -/
inductive CommandLineError
  | help
  | version
  | unexpected (argument : String)
  | surplusValue (flag : Flag) (value : String)
  | missingValue (option : ValueOption)
  | repeated (option : ValueOption)
  | invalidValue (option : ValueOption) (value : String) (fault : ValueFault)
  | noUrl
deriving DecidableEq

namespace CommandLineError

/-- A text up to its first line feed, or the carriage return right before it. -/
def firstLine (text : String) : String :=
  let line := text.toList.takeWhile (· ≠ '\n')
  let whole := line.length = text.length || line.getLast? ≠ some '\r'
  String.ofList (if whole then line else line.dropLast)

/-- The text as far as its first line, of which only the help has more. What was written on the command
line is shown plain. -/
def message : CommandLineError → String
  | .help => CommandLine.helpText
  | .version => CommandLine.versionText
  | .unexpected argument => firstLine ("error: unexpected argument '" ++ Terminal.plain argument ++ "' found")
  | .surplusValue flag value =>
      firstLine ("error: unexpected value '" ++ Terminal.plain value ++ "' for '" ++ flag.usage ++
        "' found; no more were expected")
  | .missingValue option =>
      "error: a value is required for '" ++ option.flag.usage ++ "' but none was supplied"
  | .repeated option =>
      "error: the argument '" ++ option.flag.usage ++ "' cannot be used multiple times"
  | .invalidValue option value fault =>
      firstLine ("error: invalid value '" ++ Terminal.plain value ++ "' for '" ++ option.flag.usage ++
        "': " ++ fault.message)
  | .noUrl => "error: the following required arguments were not provided:"

end CommandLineError

end SequencedFeed
