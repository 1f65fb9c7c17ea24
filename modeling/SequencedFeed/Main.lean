import SequencedFeed.CommandLine.Read
import SequencedFeed.WebSocket.Url
set_option autoImplicit false

/-!
# The program

Reads the command line and says of every address whether it can be dialled.
-/

namespace SequencedFeed

/-- What the program prints, whether that is an error, and its exit code. -/
structure Response where
  text : String
  isError : Bool
  code : UInt32
deriving DecidableEq

namespace Response

/-- One line about an address. -/
def verdict (url : String) : String :=
  match WebSocket.refusal? url with
  | none => url ++ ": ready to be dialled\n"
  | some error => url ++ ": " ++ error.message ++ "\n"

def ofWords (words : List String) : Response :=
  match CommandLine.read words with
  | .ok line => { text := String.join (line.urls.map verdict), isError := false, code := 0 }
  | .error .help => { text := CommandLine.helpText, isError := false, code := 0 }
  | .error .version => { text := CommandLine.versionText, isError := false, code := 0 }
  | .error error => { text := error.message ++ "\n", isError := true, code := 2 }

end Response

end SequencedFeed

def main (words : List String) : IO UInt32 := do
  let response := SequencedFeed.Response.ofWords words
  if response.isError then IO.eprint response.text else IO.print response.text
  return response.code
