-- SUMMARY: Clauses, the condition trees of a query.
import DocQuery.Comparison
import DocQuery.Json.Sorted

/-!
# Clauses

A clause compares a column, connects clauses, asks for a related record of another table, or
passes an expression of the engine through unread.
-/

namespace DocQuery

/-- How conditions are connected. -/
inductive Connective where
  | and
  | or
deriving DecidableEq, Repr

def Connective.name : Connective → String
  | and => "and"
  | or => "or"

/-- An expression of the engine itself. The order of object members means nothing to the engine,
    so they are kept sorted. -/
structure Expression where
  json : Json
  sorted : json.Sorted

namespace Expression

def ofJson (j : Json) : Expression :=
  ⟨j.sort, j.sorted_sort⟩

instance : BEq Expression := ⟨fun a b => a.json == b.json⟩

end Expression

/-- One node of a condition tree. -/
inductive Clause where
  /-- Compares a column. -/
  | compare (column : String) (comparison : Comparison)
  /-- Connects clauses. -/
  | group (connective : Connective) (conditions : List Clause)
  /-- Holds where a related record of the table meets the conditions. -/
  | on (table : String) (conditions : List Clause)
  /-- Passes an expression through. -/
  | raw (expression : Expression)

namespace Clause

instance : Inhabited Clause := ⟨.group .and []⟩

/-- The kind of a clause, as its JSON names it. -/
def kind : Clause → String
  | .compare .. => "where"
  | .group connective _ => connective.name
  | .on .. => "on"
  | .raw _ => "loki"

/-! ## Equality -/

mutual

/-- Whether two clauses are equal. Literals compare as values, so no clause with a literal that
    is not a number equals itself. -/
def beq : Clause → Clause → Bool
  | .compare a c, .compare b d => a == b && c == d
  | .group a cs, .group b ds => a == b && beqList cs ds
  | .on a cs, .on b ds => a == b && beqList cs ds
  | .raw a, .raw b => a == b
  | _, _ => false

def beqList : List Clause → List Clause → Bool
  | [], [] => true
  | c :: cs, d :: ds => beq c d && beqList cs ds
  | _, _ => false

end

instance : BEq Clause := ⟨beq⟩

/-! ## JSON -/

mutual

def toJson : Clause → Json
  | .compare column comparison =>
    .object [("type", .string "where"), ("left", .string column),
      ("comparison", comparison.toJson)]
  | .group connective conditions =>
    .object [("type", .string connective.name), ("conditions", .array (listToJson conditions))]
  | .on table conditions =>
    .object [("type", .string "on"), ("table", .string table),
      ("conditions", .array (listToJson conditions))]
  | .raw expression => .object [("type", .string "loki"), ("expr", expression.json)]

def listToJson : List Clause → List Json
  | [] => []
  | c :: cs => toJson c :: listToJson cs

end

end Clause

end DocQuery
