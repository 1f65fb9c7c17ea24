import SequencedFeed.Failure
import SequencedFeed.Text.Numeral
set_option autoImplicit false

/-!
# Addresses of WebSocket feeds

An address is split into scheme, authority and the rest, each of which allows its own characters. From
the parts it follows whether a dial has somewhere to go: there must be an authority, and a port, either
written or implied by the scheme.
-/

namespace SequencedFeed

namespace WebSocket

inductive UrlFault
  | empty
  | tooLong
  | schemeTooLong
  | invalidCharacter
  | invalidFormat
  | invalidAuthority
  | noHost
  | unsupportedScheme
deriving DecidableEq

/-- The last two are found in addresses that are well formed. -/
def UrlFault.message : UrlFault → String
  | .empty => "HTTP format error: empty string"
  | .tooLong => "HTTP format error: uri too long"
  | .schemeTooLong => "HTTP format error: scheme too long"
  | .invalidCharacter => "HTTP format error: invalid uri character"
  | .invalidFormat => "HTTP format error: invalid format"
  | .invalidAuthority => "HTTP format error: invalid authority"
  | .noHost => "URL error: No host name in the URL"
  | .unsupportedScheme => "URL error: URL scheme not supported"

/-- The parts of an address that decide whether it can be dialled. -/
structure Url where
  scheme : Option String
  authority : Option String
deriving DecidableEq

namespace Url

/-! ### Characters -/

def isAlphanumeric (c : Char) : Bool :=
  ('0' ≤ c && c ≤ '9') || ('a' ≤ c && c ≤ 'z') || ('A' ≤ c && c ≤ 'Z')

def isSchemeCharacter (c : Char) : Bool :=
  isAlphanumeric c || "+-.~".toList.contains c

def isAuthorityCharacter (c : Char) : Bool :=
  isAlphanumeric c || "!$&'()*+,-.:;=@[]_~".toList.contains c

/-- An authority ends where a path, a query or a fragment begins. -/
def endsAuthority (c : Char) : Bool :=
  "/?#".toList.contains c

/-- Neither a blank nor one of the control characters of ASCII. -/
def isVisible (c : Char) : Bool :=
  0x20 < c.toNat && c.toNat ≠ 0x7F

/-- What a path may hold besides the marks that end it. -/
def isPathCharacter (c : Char) : Bool :=
  isVisible c && !"<>\x60".toList.contains c

/-- What a query may hold besides the mark that ends it. -/
def isQueryCharacter (c : Char) : Bool :=
  isVisible c && !"\x22<>".toList.contains c

/-! ### Scheme -/

def longestScheme : Nat := 64

/-- Whether a text begins with the letters of another one, in either case. -/
def beginsWith (start : String) (text : List Char) : Bool :=
  (text.take start.length).map Char.toLower = start.toList

/-- The scheme of an address with what follows it, or `none` if there is none. The two common schemes
are known in any case of their letters; everything else in front of a colon and two slashes is a scheme
if its characters allow it. -/
def splitScheme (text : List Char) : Except UrlFault (Option (String × List Char)) :=
  let candidate := text.takeWhile isSchemeCharacter
  let rest := text.dropWhile isSchemeCharacter
  if beginsWith "http://" text then .ok (some ("http", text.drop 7))
  else if beginsWith "https://" text then .ok (some ("https", text.drop 8))
  else if text.length ≤ 3 || rest.take 3 ≠ [':', '/', '/'] then .ok none
  else if longestScheme < candidate.length then .error .schemeTooLong
  else .ok (some (String.ofList candidate, rest.drop 3))

/-! ### Authority -/

/-- What the characters of an authority have shown so far: colons that may stand before a port,
brackets, a percent sign in the host, and the last character. -/
structure AuthorityScan where
  colons : Nat
  bracketOpened : Bool
  bracketClosed : Bool
  percent : Bool
  last : Option Char
deriving DecidableEq

namespace AuthorityScan

def blank : AuthorityScan := ⟨0, false, false, false, none⟩

/-- How many colons there may be between two marks that set the count back. -/
def mostColons : Nat := 8

/-- What stands before an at sign or within brackets is not the port, so its colons do not count, and
a percent sign is allowed there. -/
def setBack (scan : AuthorityScan) : AuthorityScan :=
  { scan with colons := 0, percent := false }

def step (scan : AuthorityScan) (c : Char) : Except UrlFault AuthorityScan :=
  if c = ':' then
    if mostColons ≤ scan.colons then .error .invalidAuthority
    else .ok { scan with colons := scan.colons + 1 }
  else if c = '[' then
    if scan.percent || scan.bracketOpened then .error .invalidAuthority
    else .ok { scan with bracketOpened := true }
  else if c = ']' then
    if !scan.bracketOpened || scan.bracketClosed then .error .invalidAuthority
    else .ok { scan.setBack with bracketClosed := true }
  else if c = '@' then .ok scan.setBack
  else if c = '%' then .ok { scan with percent := true }
  else if isAuthorityCharacter c then .ok scan
  else .error .invalidCharacter

/-- Takes the characters of an authority one by one. -/
def run (scan : AuthorityScan) : List Char → Except UrlFault AuthorityScan
  | [] => .ok scan
  | c :: rest => do
      let scan ← scan.step c
      AuthorityScan.run { scan with last := some c } rest

def isSound (scan : AuthorityScan) : Bool :=
  (scan.bracketOpened == scan.bracketClosed) && scan.colons ≤ 1 && scan.last ≠ some '@' &&
    !scan.percent

end AuthorityScan

def splitAuthority (text : List Char) : Except UrlFault (List Char × List Char) := do
  let authority := text.takeWhile fun c => !endsAuthority c
  let scan ← AuthorityScan.blank.run authority
  if scan.isSound then return (authority, text.dropWhile fun c => !endsAuthority c)
  else .error .invalidAuthority

/-! ### Path and query -/

/-- Checks a path and the query behind it, up to a fragment, which is not looked at. -/
def checkPath (text : List Char) : Except UrlFault Unit :=
  let path := text.takeWhile fun c => c ≠ '?' && c ≠ '#'
  if !path.all isPathCharacter then .error .invalidCharacter
  else
    match text.drop path.length with
    | '?' :: query =>
        if (query.takeWhile (· ≠ '#')).all isQueryCharacter then .ok () else .error .invalidCharacter
    | _ => .ok ()

/-! ### The whole address -/

def longest : Nat := 65534

/-- Reads an address that is more than one character and begins with no slash. Without a scheme it
must be an authority and nothing else. -/
def readFull (text : List Char) : Except UrlFault Url := do
  match ← splitScheme text with
  | none =>
      let (authority, rest) ← splitAuthority text
      if rest ≠ [] then .error .invalidFormat
      else return { scheme := none, authority := some (String.ofList authority) }
  | some (scheme, rest) =>
      if rest = [] then .error .empty
      else
        let (authority, rest) ← splitAuthority rest
        if authority = [] then .error .invalidFormat
        else
          checkPath rest
          return { scheme := some scheme, authority := some (String.ofList authority) }

def read (address : String) : Except UrlFault Url :=
  if longest < address.utf8ByteSize then .error .tooLong
  else
    match address.toList with
    | [] => .error .empty
    | ['/'] => .ok { scheme := none, authority := none }
    | ['*'] => .ok { scheme := none, authority := none }
    | [c] => do
        let (authority, rest) ← splitAuthority [c]
        if rest ≠ [] then .error .invalidCharacter
        else return { scheme := none, authority := some (String.ofList authority) }
    | '/' :: rest => do
        checkPath ('/' :: rest)
        return { scheme := none, authority := none }
    | text => readFull text

/-- Whether a port is written at the end of an authority: a number of sixteen bits behind its last
colon, perhaps with a plus sign. -/
def writesPort (authority : String) : Bool :=
  let reversed := authority.toList.reverse
  let last := (reversed.takeWhile (· ≠ ':')).reverse
  reversed.contains ':' &&
    match readUnsigned64 (String.ofList last) with
    | .ok port => port < 65536
    | .error _ => false

/-- Whether there is a host to dial and a port to dial it on. -/
def check (url : Url) : Except UrlFault Unit :=
  match url.authority with
  | none => .error .noHost
  | some authority =>
      if writesPort authority || url.scheme = some "ws" || url.scheme = some "wss" then .ok ()
      else .error .unsupportedScheme

end Url

/-- How a dial to an address fails before anything is sent, if it does. -/
def refusal? (address : String) : Option TransportError :=
  match (Url.read address).bind Url.check with
  | .ok () => none
  | .error fault => some (.io fault.message)

end WebSocket

end SequencedFeed
