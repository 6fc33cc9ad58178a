-- SUMMARY: Declared associations between tables.
import DocQuery.Json.Basic

/-!
# Associations
-/

namespace DocQuery

/-- How the records of a table relate to those of another one. -/
inductive Relation where
  /-- The own column `key` names a record there. -/
  | belongsTo (key : String)
  /-- The column `foreignKey` there names a record here. -/
  | hasMany (foreignKey : String)
deriving DecidableEq, Repr

/-- An association with another table. -/
structure Association where
  target : String
  relation : Relation
deriving DecidableEq, Repr

def Relation.toJson : Relation → Json
  | belongsTo key => .object [("type", .string "belongs_to"), ("key", .string key)]
  | hasMany foreignKey =>
    .object [("type", .string "has_many"), ("foreignKey", .string foreignKey)]

def Association.toJson (a : Association) : Json :=
  .object [("to", .string a.target), ("info", a.relation.toJson)]

end DocQuery
