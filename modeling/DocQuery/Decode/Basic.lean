-- SUMMARY: Why a document is not read, and how texts, lists and counts are read from a draft.
import DocQuery.CompileError
import DocQuery.Json.Draft
import DocQuery.Json.Printer

/-!
# Reading from drafts

A document is refused either because its text is no JSON, or because a value in it is not the one
that is needed there. The second kind of refusal has a cause, a `Mismatch`, and `Mismatch.message`
puts it into words.

Readers take the number of containers that may still be opened, `room`. Opening one more counts as
a fault of the text.
-/

namespace DocQuery

open Json (Fault Draft Items Members)

/-! ## Refusals -/

/-- What stands where something else was expected. -/
inductive Found where
  | null
  | bool (b : Bool)
  | int (n : Int)
  /-- A whole number beyond 64 bits, with the name of a type that holds it. -/
  | wideInt (n : Int) (type : String)
  | float (x : Float)
  | string (s : String)
  | sequence
  | map
  /-- The name of a choice without what belongs to it. -/
  | bareName

/-- Why a value is not the one that is needed. -/
inductive Mismatch where
  | wrongType (found : Found) (expected : String)
  | wrongValue (found : Found) (expected : String)
  | wrongLength (length : Nat) (expected : String)
  | missingField (name : String)
  | duplicateField (name : String)
  | unknownField (name : String) (choices : List String)
  | unknownVariant (name : String) (choices : List String)
  /-- A list or an object stands where a literal should. -/
  | noLiteral
  /-- A clause is well typed but makes no sense. -/
  | refused (error : CompileError)

/-- Why a document is not read. -/
inductive ReadError where
  | text (fault : Fault)
  | mismatch (cause : Mismatch)

/-! ## Wording -/

/-- What was found, with floating-point numbers spelled as the document's format spells them. -/
def Found.describe (spell : Float → String) : Found → String
  | .null => "null"
  | .bool b => "boolean `" ++ (if b then "true" else "false") ++ "`"
  | .int n => "integer `" ++ toString n ++ "`"
  | .wideInt n type => "integer `" ++ toString n ++ "` as " ++ type
  | .float x => "floating point `" ++ spell x ++ "`"
  | .string s => "string " ++ Text.quote s
  | .sequence => "sequence"
  | .map => "map"
  | .bareName => "unit variant"

/-- The choices as they are listed in a message. -/
def describeChoices (choices : List String) : String :=
  let quoted := choices.map fun c => "`" ++ c ++ "`"
  match quoted with
  | [a, b] => a ++ " or " ++ b
  | quoted => "one of " ++ String.intercalate ", " quoted

def Mismatch.message (spell : Float → String) : Mismatch → String
  | .wrongType found expected =>
    "invalid type: " ++ found.describe spell ++ ", expected " ++ expected
  | .wrongValue found expected =>
    "invalid value: " ++ found.describe spell ++ ", expected " ++ expected
  | .wrongLength length expected =>
    "invalid length " ++ toString length ++ ", expected " ++ expected
  | .missingField name => "missing field `" ++ name ++ "`"
  | .duplicateField name => "duplicate field `" ++ name ++ "`"
  | .unknownField name choices =>
    "unknown field `" ++ name ++ "`, expected " ++ describeChoices choices
  | .unknownVariant name choices =>
    "unknown variant `" ++ name ++ "`, expected " ++ describeChoices choices
  | .noLiteral => "data did not match any variant of untagged enum Value"
  | .refused error => error.message

def ReadError.message : ReadError → String
  | .text .malformed => "the text is no JSON"
  | .text .truncated => "the text ends too early"
  | .mismatch cause => cause.message Json.writeFloat

/-! ## Results of reading -/

/-- Reads a part of the text. -/
def ofText {α : Type} (read : Except Fault α) : Except ReadError α :=
  match read with
  | .ok a => .ok a
  | .error fault => .error (.text fault)

/-- Refuses a value. -/
def refuse {α : Type} (cause : Mismatch) : Except ReadError α :=
  .error (.mismatch cause)

/-- What a value of the tree looks like to a reader who expected another. -/
def Found.ofJson : Json → Found
  | .null => .null
  | .bool b => .bool b
  | .number (.int n) => .int n
  | .number (.float x) => .float x
  | .string s => .string s
  | .array _ => .sequence
  | .object _ => .map

/-- What a draft looks like to a reader who expected another value. Containers are not entered. -/
def Found.ofDraft : Draft → Except Fault Found
  | .absent => .error .truncated
  | .broken fault => .error fault
  | .null => .ok .null
  | .bool b => .ok (.bool b)
  | .number n => n.read.map fun n => .ofJson (.number n)
  | .string s => s.read.map .string
  | .array _ => .ok .sequence
  | .object _ => .ok .map

/-- Refuses a draft of the wrong type. -/
def wrongType {α : Type} (expected : String) (d : Draft) : Except ReadError α := do
  refuse (.wrongType (← ofText (Found.ofDraft d)) expected)

/-! ## Readers -/

/-- A reader for the parts of a container, if there is room to open one. -/
def inside {α : Type} (room : Nat) (reader : Nat → α) : Option α :=
  match room with
  | 0 => none
  | room + 1 => some (reader room)

def readString : Draft → Except ReadError String
  | .string s => ofText s.read
  | d => wrongType "a string" d

/-- A null stands for nothing. -/
def readOption {α : Type} (read : Draft → Except ReadError α) :
    Draft → Except ReadError (Option α)
  | .null => .ok none
  | d => (read d).map some

/-- A count is a whole number of 64 bits without a sign. -/
def readCount : Draft → Except ReadError UInt64
  | .number n => do
    match ← ofText n.read with
    | .int n => if 0 ≤ n then .ok (UInt64.ofNat n.toNat) else refuse (.wrongValue (.int n) "u64")
    | .float x => refuse (.wrongType (.float x) "u64")
  | d => wrongType "u64" d

/-- Reads the items of an array one after the other. -/
def readItems {α : Type} (read : Draft → Except ReadError α) :
    Items → Except ReadError (List α)
  | .close => .ok []
  | .cut fault => .error (.text fault)
  | .item head rest => do
    let a ← read head
    return a :: (← readItems read rest)

/-- A list; `read` is absent if there is no room to open it. -/
def readList {α : Type} (read : Option (Draft → Except ReadError α)) :
    Draft → Except ReadError (List α)
  | .array items =>
    match read with
    | none => .error (.text .malformed)
    | some read => readItems read items
  | d => wrongType "a sequence" d

end DocQuery
