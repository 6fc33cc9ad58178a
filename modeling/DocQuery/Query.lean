-- SUMMARY: Queries: a table, conditions on its records, and declared associations.
import DocQuery.Clause
import DocQuery.Association

/-!
# Queries
-/

namespace DocQuery

inductive Direction where
  | asc
  | desc
deriving DecidableEq, Repr

/-- A column to sort by. -/
structure SortKey where
  column : String
  direction : Direction
deriving DecidableEq, Repr

/-- What is asked of the records of a table. -/
structure Description where
  conditions : List Clause := []
  /-- Tables declared to take part in joins. -/
  joinTables : List String := []
  sortBy : List SortKey := []
  take : Option UInt64 := none
  skip : Option UInt64 := none

structure Query where
  table : String
  description : Description := {}
  associations : List Association := []

/-! ## JSON -/

def Direction.name : Direction → String
  | asc => "asc"
  | desc => "desc"

def SortKey.toJson (k : SortKey) : Json :=
  .object [("sortColumn", .string k.column), ("sortOrder", .string k.direction.name)]

/-- A member that is left out when there is no number. -/
def countMember (name : String) : Option UInt64 → List (String × Json)
  | none => []
  | some n => [(name, .int n.toNat)]

def Description.toJson (d : Description) : Json :=
  .object ([("where", .array (Clause.listToJson d.conditions)),
    ("joinTables", .array (d.joinTables.map .string)),
    ("sortBy", .array (d.sortBy.map SortKey.toJson))]
    ++ countMember "take" d.take ++ countMember "skip" d.skip)

def Query.toJson (q : Query) : Json :=
  .object [("table", .string q.table), ("description", q.description.toJson),
    ("associations", .array (q.associations.map Association.toJson))]

end DocQuery
