-- SUMMARY: Reading literals, operators and comparisons.
import DocQuery.Comparison
import DocQuery.Decode.Choice
import DocQuery.Decode.Record

/-!
# Reading comparisons
-/

namespace DocQuery

open Json (Draft)

/-! ## Literals -/

/-- A whole number as a literal: one that needs more than 63 bits and a sign is a floating-point
    number. -/
def Literal.ofInt (n : Int) : Literal :=
  if Int64.minValue.toInt ≤ n && n ≤ Int64.maxValue.toInt then .int (Int64.ofInt n)
  else .float (Float.ofInt n)

def Literal.ofJson? : Json → Option Literal
  | .null => some .null
  | .bool b => some (.bool b)
  | .number (.int n) => some (Literal.ofInt n)
  | .number (.float x) => some (.float x)
  | .string s => some (.text s)
  | .array _ => none
  | .object _ => none

/-- Reads a literal. Its whole value is read before its type is looked at. -/
def Literal.read (room : Nat) (d : Draft) : Except ReadError Literal := do
  match Literal.ofJson? (← ofText (d.toJson room)) with
  | some v => .ok v
  | none => refuse .noLiteral

/-! ## Comparisons -/

def Operator.choices : List (String × Operator) :=
  Operator.all.map fun op => (op.name, op)

def Operator.read (room : Nat) : Draft → Except ReadError Operator :=
  readName room Operator.choices

/-- The three forms of an operand. -/
inductive Operand.Form where
  | value
  | values
  | column
deriving DecidableEq, Repr

def Operand.Form.choices : List (String × Operand.Form) :=
  [("value", .value), ("values", .values), ("column", .column)]

/-- Reads what belongs to an operand of the given form. -/
def Operand.readContent (room : Nat) : Operand.Form → Draft → Except ReadError Operand
  | .value, d => (Literal.read room d).map .value
  | .values, d => (readList (inside room Literal.read) d).map .values
  | .column, d => (readString d).map .column

def Operand.read (room : Nat) : Draft → Except ReadError Operand :=
  readChoice Operand.Form.choices
    (fun _ => refuse (.wrongType .bareName "newtype variant"))
    (inside room Operand.readContent)

/-- A comparison under construction. -/
structure Comparison.Parts where
  operator : Option Operator := none
  right : Option Operand := none

def Comparison.fields (room : Nat) : List (Field Comparison.Parts) := [
  { name := "operator", optional := false, given := fun p => p.operator.isSome,
    read := fun d p => do return { p with operator := some (← Operator.read room d) } },
  { name := "right", optional := false, given := fun p => p.right.isSome,
    read := fun d p => do return { p with right := some (← Operand.read room d) } }]

def Comparison.read (room : Nat) (d : Draft) : Except ReadError Comparison := do
  let p ← readRecord "struct Comparison" (inside room Comparison.fields) {} d
  return { operator := ← required "operator" p.operator, right := ← required "right" p.right }

end DocQuery
