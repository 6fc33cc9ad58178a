-- SUMMARY: Records read from an object or from an array of their fields in order.
import DocQuery.Decode.Basic

/-!
# Records

A record is written as an object, whose members may come in any order and among unknown ones, or
as an array of its fields in the order of declaration. Either way its fields are read as they
come. `σ` is the record under construction.
-/

namespace DocQuery

open Json (Draft Items Members)

/-- A field of a record under construction. -/
structure Field (σ : Type) where
  name : String
  /-- Whether the field may be left out at the end of an array. -/
  optional : Bool
  /-- Whether the field has been read already. -/
  given : σ → Bool
  read : Draft → σ → Except ReadError σ

/-- Reads the members of an object into a record. Unknown members are stepped over, and a second
    member for one field is refused before its value is looked at. -/
def readMembers {σ : Type} (fields : List (Field σ)) : Members → σ → Except ReadError σ
  | .close, s => .ok s
  | .cut fault, _ => .error (.text fault)
  | .noKey found, _ => .error (.text found.keyFault)
  | .member key value rest, s => do
    let name ← ofText key.read
    match fields.find? fun f => f.name == name with
    | none =>
      ofText value.skip
      readMembers fields rest s
    | some f =>
      if f.given s then refuse (.duplicateField name)
      else readMembers fields rest (← f.read value s)

/-- The end of an array that holds all it should. -/
def expectClose : Items → Except ReadError Unit
  | .close => .ok ()
  | .cut fault => .error (.text fault)
  | .item .. => .error (.text .malformed)

/-- Reads the items of an array into the fields. `expected` describes the full array, `length`
    counts the items read. -/
def readFields {σ : Type} (expected : String) (length : Nat) :
    List (Field σ) → Items → σ → Except ReadError σ
  | [], items, s => do
    expectClose items
    return s
  | f :: fields, items, s =>
    match items with
    | .close =>
      if f.optional then readFields expected (length + 1) fields .close s
      else refuse (.wrongLength length expected)
    | .cut fault => .error (.text fault)
    | .item head rest => do
      readFields expected (length + 1) fields rest (← f.read head s)

/-- A number of elements in words. -/
def describeLength (n : Nat) : String :=
  if n = 1 then "1 element" else toString n ++ " elements"

/-- Reads a record. `fields` is absent if there is no room to open a container. -/
def readRecord {σ : Type} (type : String) (fields : Option (List (Field σ))) (empty : σ) :
    Draft → Except ReadError σ
  | .array items =>
    match fields with
    | none => .error (.text .malformed)
    | some fields =>
      readFields (type ++ " with " ++ describeLength fields.length) 0 fields items empty
  | .object members =>
    match fields with
    | none => .error (.text .malformed)
    | some fields => readMembers fields members empty
  | d => wrongType type d

/-- The value of a field that a record cannot do without. -/
def required {α : Type} (name : String) : Option α → Except ReadError α
  | some a => .ok a
  | none => refuse (.missingField name)

end DocQuery
