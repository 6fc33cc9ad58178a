-- SUMMARY: A comparison: an operator with what stands on its right.
import DocQuery.Operator
import DocQuery.Literal

/-!
# Comparisons
-/

namespace DocQuery

/-- The right-hand side of a comparison: a literal, several of them, or another column of the
    same record. -/
inductive Operand where
  | value (v : Literal)
  | values (vs : List Literal)
  | column (name : String)
deriving BEq

structure Comparison where
  operator : Operator
  right : Operand
deriving BEq

/-- A single text on the right. -/
def Operand.text? : Operand → Option String
  | .value v => v.text?
  | _ => none

def Operand.toJson : Operand → Json
  | .value v => .object [("value", v.toJson)]
  | .values vs => .object [("values", .array (vs.map Literal.toJson))]
  | .column name => .object [("column", .string name)]

def Comparison.toJson (c : Comparison) : Json :=
  .object [("operator", .string c.operator.name), ("right", c.right.toJson)]

end DocQuery
