set_option autoImplicit false

/-!
# What a terminal would obey

A text may hold sequences that steer a terminal: they begin with the escape character and end by rules
of their own. `plain` leaves the characters that would be shown, and the blanks; what it leaves stands
in the text in the same order (`shownFrom_sublist`).
-/

namespace SequencedFeed.Terminal

/-- What the characters so far have begun. -/
inductive State
  /-- Nothing: characters are shown. -/
  | text
  /-- An escape sequence, right behind the escape character. -/
  | escape
  /-- An escape sequence whose last character has not come. -/
  | escapeTail
  /-- A control sequence, with parameters. -/
  | control
  /-- A device control string, before its parameters. -/
  | deviceStart
  | deviceParameters
  /-- A device control string, behind its parameters. -/
  | deviceTail
  /-- The content of a string that a string terminator ends. -/
  | string
  /-- An operating system command, which a bell ends. -/
  | command
deriving DecidableEq

def isBlank (c : Char) : Bool :=
  "\t\n\x0c\r".toList.contains c

def within (low high : Nat) (c : Char) : Bool :=
  low ≤ c.toNat && c.toNat ≤ high

/-- The single byte that terminates a string. -/
def stringTerminator : UInt8 := 0x9C

/-- Strings are read byte by byte, so the terminator may be part of a character. -/
def holdsTerminator (c : Char) : Bool :=
  (String.utf8EncodeChar c).contains stringTerminator

namespace State

/-- Whether a blank is shown at once, which breaks the sequence off. -/
def yieldsToBlank : State → Bool
  | .text | .escape | .escapeTail | .control => true
  | .deviceStart | .deviceParameters | .deviceTail | .string | .command => false

/-- The state behind the first character of an escape sequence. -/
def ofEscape (c : Char) : State :=
  if within 0x20 0x2F c then .escapeTail
  else if c = 'P' then .deviceStart
  else if c = '[' then .control
  else if c = ']' then .command
  else if c = 'X' || c = '^' || c = '_' then .string
  else if within 0x30 0x7E c then .text
  else .escape

/-- The state behind any other character that belongs to what was begun. -/
def next (state : State) (c : Char) : State :=
  match state with
  | .text => .text
  | .escape => ofEscape c
  | .escapeTail => if within 0x30 0x7E c then .text else .escapeTail
  | .control => if within 0x40 0x7E c then .text else .control
  | .deviceStart =>
      if within 0x20 0x2F c then .deviceTail
      else if within 0x30 0x3F c then .deviceParameters
      else if within 0x40 0x7E c then .string
      else .deviceStart
  | .deviceParameters =>
      if within 0x20 0x2F c then .deviceTail
      else if within 0x3C 0x7E c then .string
      else .deviceParameters
  | .deviceTail => if within 0x30 0x7E c then .string else .deviceTail
  | .string => if holdsTerminator c then .text else .string
  | .command => if c = '\x07' then .text else .command

def shows (state : State) (c : Char) : Bool :=
  if isBlank c then state.yieldsToBlank
  else state = .text && 0x20 ≤ c.toNat && c ≠ '\x7f'

/-- The state behind a character. Cancel and substitute end everything, and an escape character begins
anew. -/
def step (state : State) (c : Char) : State :=
  if c = '\x18' || c = '\x1a' then .text
  else if c = '\x1b' then .escape
  else if state.shows c then .text
  else state.next c

end State

def shownFrom : State → List Char → List Char
  | _, [] => []
  | state, c :: rest =>
      let others := shownFrom (state.step c) rest
      if state.shows c then c :: others else others

theorem shownFrom_sublist (state : State) (text : List Char) :
    (shownFrom state text).Sublist text := by
  induction text generalizing state with
  | nil => exact List.Sublist.refl []
  | cons c rest ih =>
      simp only [shownFrom]
      split
      · exact (ih (state.step c)).cons_cons c
      · exact (ih (state.step c)).cons c

/-- A text without what a terminal would obey. -/
def plain (text : String) : String :=
  String.ofList (shownFrom .text text.toList)

end SequencedFeed.Terminal
