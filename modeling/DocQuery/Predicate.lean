-- SUMMARY: Predicates of the document engine on records, and compiled queries.
import DocQuery.Clause
import DocQuery.FieldTest
import DocQuery.Settings

/-!
# Predicates
-/

namespace DocQuery

/-- A predicate on the records of a table. -/
inductive Predicate where
  | field (column : String) (test : FieldTest)
  | group (connective : Connective) (children : List Predicate)
  /-- Some record of `table` meets `query`, and its `mapKey` equals the `joinKey` of the record at
      hand. The conditions that `query` was compiled from go along, for whoever has to check the
      comparisons between columns. -/
  | join (table : String) (query : Option Predicate) (conditions : List Clause)
      (mapKey joinKey : String)
  /-- Holds of every record, as no record has the column. -/
  | alwaysTrue (column : String)
  | raw (expression : Expression)

/-- The keyword of a connective in the engine's queries. -/
def Connective.keyword : Connective → String
  | and => "$and"
  | or => "$or"

namespace Predicate

instance : Inhabited Predicate := ⟨.group .and []⟩

/-- The predicate that holds of every record. -/
def always (settings : Settings) : Predicate :=
  .alwaysTrue settings.alwaysTrueColumn

def isAlwaysTrue : Predicate → Bool
  | .alwaysTrue _ => true
  | _ => false

mutual

def toJson : Predicate → Json
  | .field column test => .object [(column, test.toJson)]
  | .group connective children => .object [(connective.keyword, .array (listToJson children))]
  | .join table query conditions mapKey joinKey =>
    .object [("$join", .object ([("table", .string table)] ++ optionToJson query
      ++ [("originalConditions", .array (Clause.listToJson conditions)),
        ("mapKey", .string mapKey), ("joinKey", .string joinKey)]))]
  | .alwaysTrue column => .object [(column, (FieldTest.present false).toJson)]
  | .raw expression => expression.json

def listToJson : List Predicate → List Json
  | [] => []
  | p :: ps => toJson p :: listToJson ps

/-- The member for a predicate that may be absent. -/
def optionToJson : Option Predicate → List (String × Json)
  | none => []
  | some p => [("query", toJson p)]

end

end Predicate

/-- A query for the document engine. Without a predicate it asks for every record. -/
structure CompiledQuery where
  table : String
  query : Option Predicate
  hasJoins : Bool

def CompiledQuery.toJson (q : CompiledQuery) : Json :=
  .object ([("table", .string q.table)] ++ Predicate.optionToJson q.query
    ++ [("hasJoins", .bool q.hasJoins)])

end DocQuery
