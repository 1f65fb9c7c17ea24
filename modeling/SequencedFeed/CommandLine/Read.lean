import SequencedFeed.CommandLine
set_option autoImplicit false

/-!
# Reading the command line

Words are taken one by one. An option whose value has not come, or whose value came as a word of its
own, stays pending until the next option begins or the words end; only then is it checked. A word that
means nothing ends everything at once, whatever is pending.
-/

namespace SequencedFeed

/-- What a word looks like: the end of all options, an option by its name with a value that may be
attached, letters of options, or a plain text. -/
inductive CommandWord
  | endOfOptions
  | long (name : String) (value : Option String)
  | letters (first : Char) (rest : List Char)
  | plain
deriving DecidableEq

/-- A single hyphen is a plain text. -/
def CommandWord.ofString (word : String) : CommandWord :=
  match word.toList with
  | ['-', '-'] => .endOfOptions
  | '-' :: '-' :: body =>
      let name := body.takeWhile (· ≠ '=')
      let value :=
        match body.dropWhile (· ≠ '=') with
        | [] => none
        | _ :: value => some (String.ofList value)
      .long (String.ofList name) value
  | '-' :: first :: rest => .letters first rest
  | _ => .plain

/-- The value attached to the letter of an option. An equals sign may stand between them, and only
with it the value may be empty. -/
def attachedValue? (rest : List Char) : Option String :=
  match rest with
  | [] => none
  | '=' :: value => some (String.ofList value)
  | value => some (String.ofList value)

/-- The command line as far as it is read: an option that is pending, perhaps with its value, and
what has been stored. -/
structure CommandLineDraft where
  pending : Option (ValueOption × Option String)
  urls : List String
  timeout : Option Nat
  startSequence : Option Nat
  metricsAddress : Option SocketAddress

namespace CommandLineDraft

def blank : CommandLineDraft :=
  { pending := none, urls := [], timeout := none, startSequence := none, metricsAddress := none }

/-- Whether an option has been stored that may be given only once. -/
def isTaken (draft : CommandLineDraft) : ValueOption → Bool
  | .url => false
  | .timeout => draft.timeout.isSome
  | .startSequence => draft.startSequence.isSome
  | .metricsAddress => draft.metricsAddress.isSome

def numberValue (option : ValueOption) (value : String) : Except CommandLineError Nat :=
  (readUnsigned64 value).mapError fun fault => .invalidValue option value (.number fault)

def addressValue (option : ValueOption) (value : String) : Except CommandLineError SocketAddress :=
  match SocketAddress.ofString? value with
  | some address => .ok address
  | none => .error (.invalidValue option value .socketAddress)

/-- Stores the value of an option. That it is there twice is found before its value is read. -/
def store (draft : CommandLineDraft) (option : ValueOption) (value : String) :
    Except CommandLineError CommandLineDraft :=
  if draft.isTaken option then .error (.repeated option)
  else
    match option with
    | .url => .ok { draft with urls := draft.urls ++ [value] }
    | .timeout => do return { draft with timeout := some (← numberValue option value) }
    | .startSequence => do return { draft with startSequence := some (← numberValue option value) }
    | .metricsAddress => do return { draft with metricsAddress := some (← addressValue option value) }

/-- Checks what is pending. -/
def resolve (draft : CommandLineDraft) : Except CommandLineError CommandLineDraft :=
  match draft.pending with
  | none => .ok draft
  | some (option, none) => .error (.missingValue option)
  | some (option, some value) => { draft with pending := none }.store option value

/-- An option begins, with a value that may be attached. -/
def beginOption (draft : CommandLineDraft) (option : ValueOption) (value : Option String) :
    Except CommandLineError CommandLineDraft := do
  let draft ← draft.resolve
  match value with
  | some value => draft.store option value
  | none => return { draft with pending := some (option, none) }

/-- A flag without a value ends the reading, if nothing that is pending is wrong. -/
def raise (draft : CommandLineDraft) (request : CommandLineError) :
    Except CommandLineError CommandLineDraft := do
  let _ ← draft.resolve
  .error request

def takeLong (draft : CommandLineDraft) (name : String) (value : Option String) :
    Except CommandLineError CommandLineDraft :=
  match Flag.ofLong? name, value with
  | none, _ => .error (.unexpected ("--" ++ name))
  | some (.option option), value => draft.beginOption option value
  | some flag, some value => .error (.surplusValue flag value)
  | some .help, none => draft.raise .help
  | some .version, none => draft.raise .version

def takeLetters (draft : CommandLineDraft) (first : Char) (rest : List Char) :
    Except CommandLineError CommandLineDraft :=
  match Flag.ofLetter? first with
  | none => .error (.unexpected (String.ofList ['-', first]))
  | some (.option option) => draft.beginOption option (attachedValue? rest)
  | some .help => draft.raise .help
  | some .version => draft.raise .version

/-- A text is the value of an option that waits for one. -/
def takePlain (draft : CommandLineDraft) (word : String) :
    Except CommandLineError CommandLineDraft :=
  match draft.pending with
  | some (option, none) => .ok { draft with pending := some (option, some word) }
  | _ => .error (.unexpected word)

def readWords (draft : CommandLineDraft) : List String → Except CommandLineError CommandLineDraft
  | [] => draft.resolve
  | word :: rest =>
      match CommandWord.ofString word with
      | .endOfOptions =>
          match rest with
          | [] => draft.resolve
          | word :: _ => .error (.unexpected word)
      | .long name value => do
          let draft ← draft.takeLong name value
          draft.readWords rest
      | .letters first letters => do
          let draft ← draft.takeLetters first letters
          draft.readWords rest
      | .plain => do
          let draft ← draft.takePlain word
          draft.readWords rest

end CommandLineDraft

/-- Reads the words that follow the name of the program. At least one address is needed. -/
def CommandLine.read (words : List String) : Except CommandLineError CommandLine := do
  let draft ← CommandLineDraft.blank.readWords words
  if draft.urls = [] then .error .noUrl
  else
    return {
      urls := draft.urls
      timeout := draft.timeout.getD CommandLine.defaultTimeout
      startSequence := draft.startSequence
      metricsAddress := draft.metricsAddress }

end SequencedFeed
