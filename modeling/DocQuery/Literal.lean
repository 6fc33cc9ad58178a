-- SUMMARY: Literal values that columns are compared with.
import DocQuery.Json.Printer

/-!
# Literals
-/

namespace DocQuery

/-- A literal of the query language. Whole numbers are 64-bit words with a sign. -/
inductive Literal where
  | null
  | bool (b : Bool)
  | int (n : Int64)
  | float (x : Float)
  | text (s : String)
deriving BEq

namespace Literal

def isNull : Literal → Bool
  | .null => true
  | _ => false

/-- The text of a text literal. -/
def text? : Literal → Option String
  | .text s => some s
  | _ => none

/-- The literal of an optional value. -/
def ofOption {α : Type} (literal : α → Literal) : Option α → Literal
  | some a => literal a
  | none => .null

/-- JSON has no number that is not finite; such a literal is written as `null`. -/
def toJson : Literal → Json
  | .null => .null
  | .bool b => .bool b
  | .int n => .int n.toInt
  | .float x => if x.isFinite then .number (.float x) else .null
  | .text s => .string s

/-! ## Display -/

/-- Numbers shown to people are written out in full, without a needless fraction. -/
def displayFormat : NumberFormat where
  tie := .upward
  positional _ := true
  keepsFraction := false

def displayFloat (x : Float) : String :=
  if x.isNaN then "NaN"
  else if x.isInf then (if signBit x then "-inf" else "inf")
  else displayFormat.write x

/-- A literal as shown to people. -/
def display : Literal → String
  | .null => "null"
  | .bool b => if b then "true" else "false"
  | .int n => toString n.toInt
  | .float x => displayFloat x
  | .text s => Text.quote s

end Literal

end DocQuery
