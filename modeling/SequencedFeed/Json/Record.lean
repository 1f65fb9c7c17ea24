import SequencedFeed.Json.Read
set_option autoImplicit false

/-!
# Records

A record is written as an object, with its fields in any order and unknown ones skipped, or as a
list with its fields in their declared order. A field that occurs twice, is missing though required,
or stands in a list too short is reported at the place where the record ends.
-/

namespace SequencedFeed.Json

/-- A field of a record that is being read. `store` reads the field's value into the draft, and
`isHeld` tells whether that has happened. A `required` field may not be left out of a list. -/
structure Field (σ : Type) where
  name : String
  isHeld : σ → Bool
  store : σ → Reader σ
  required : Bool

/-- How records of one type are read: drafts start from `blank`, and `finish` turns a draft into a
record or names the field that is missing. -/
structure Shape (σ ρ : Type) where
  title : String
  blank : σ
  fields : List (Field σ)
  finish : σ → Except Cause ρ

/-- Why the inside of a record could not be read: a fault with its place, or a cause that is placed
once the reader has tried to close the record. -/
inductive Refusal
  | placed (fault : Fault)
  | unplaced (cause : Cause) (rest : List UInt8)

/-- A reader of the inside of a record. -/
abbrev Inside (α : Type) : Type :=
  List UInt8 → Except Refusal (α × List UInt8)

def Inside.ofReader {α : Type} (reader : Reader α) : Inside α := fun input =>
  (reader input).mapError .placed

namespace Shape

variable {σ ρ : Type}

/-- The members of a record up to its closing brace, at most one for every byte of `bound`. -/
def membersWithin (shape : Shape σ ρ) : List UInt8 → Bool → σ → Inside σ
  | [], _, draft, input => .ok (draft, input)
  | _ :: bound, first, draft, input => do
      let (more, input) ← Inside.ofReader (nextKey first) input
      if more then
        let (key, input) ← Inside.ofReader stringToken input
        match shape.fields.find? (·.name == key) with
        | some field =>
            if field.isHeld draft then .error (.unplaced (.duplicateField field.name) input)
            else
              let ((), input) ← Inside.ofReader colon input
              let (draft, input) ← Inside.ofReader (field.store draft) input
              membersWithin shape bound false draft input
        | none =>
            let ((), input) ← Inside.ofReader colon input
            let ((), input) ← Inside.ofReader skipValue input
            membersWithin shape bound false draft input
      else
        return (draft, input)

/-- The inside of a record written as an object. -/
def ofMembers (shape : Shape σ ρ) : Inside ρ := fun input => do
  let (draft, rest) ← membersWithin shape (0 :: input) true shape.blank input
  match shape.finish draft with
  | .ok record => return (record, rest)
  | .error cause => .error (.unplaced cause rest)

/-- The fields of a record written as a list; those at its end may be left out if not required. -/
def itemsFrom (shape : Shape σ ρ) : List (Field σ) → Nat → σ → Inside σ
  | [], _, draft, input => .ok (draft, input)
  | field :: fields, count, draft, input => do
      let (more, input) ← Inside.ofReader (nextItem (count == 0)) input
      if more then
        let (draft, input) ← Inside.ofReader (field.store draft) input
        itemsFrom shape fields (count + 1) draft input
      else if field.required then
        .error (.unplaced (.wrongLength count (.recordOf shape.title shape.fields.length)) input)
      else
        itemsFrom shape fields (count + 1) draft input

/-- The inside of a record written as a list. -/
def ofItems (shape : Shape σ ρ) : Inside ρ := fun input => do
  let (draft, rest) ← itemsFrom shape shape.fields 0 shape.blank input
  match shape.finish draft with
  | .ok record => return (record, rest)
  | .error cause => .error (.unplaced cause rest)

/-- Closes a record. A cause without a place gets the place behind the attempt to close. -/
def closed (inside : Except Refusal (ρ × List UInt8))
    (close : List UInt8 → Except Fault Unit × List UInt8) : Except Fault (ρ × List UInt8) :=
  match inside with
  | .ok (record, rest) => closing record (close rest)
  | .error (.placed fault) => .error fault
  | .error (.unplaced cause rest) => .error (cause.before (close rest).2)

/-- A record in either form. The shape of its insides depends on the budget left for them. -/
def read (budget : Nat) (shape : Nat → Shape σ ρ) : Reader ρ := fun input =>
  let input := skipBlanks input
  match input with
  | [] => .error (Cause.endInValue.at input)
  | next :: _ =>
      if next = byte '[' then
        nested budget (fun inner rest => closed ((shape inner).ofItems rest) closeList) input
      else if next = byte '\x7b' then
        nested budget (fun inner rest => closed ((shape inner).ofMembers rest) closeObject) input
      else .error (otherKind (.record (shape budget).title) input)

end Shape

end SequencedFeed.Json
