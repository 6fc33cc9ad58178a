-- SUMMARY: Comparison operators of the query language and their names.

/-!
# Operators
-/

namespace DocQuery

/-- A comparison operator. `weakGt` differs from `gt` only between two columns. -/
inductive Operator where
  | eq
  | notEq
  | gt
  | gte
  | weakGt
  | lt
  | lte
  | oneOf
  | notIn
  | between
  | like
  | notLike
deriving DecidableEq, Repr

namespace Operator

/-- Every operator, in the order in which choices are listed. -/
def all : List Operator :=
  [eq, notEq, gt, gte, weakGt, lt, lte, oneOf, notIn, between, like, notLike]

/-- The name of an operator in queries and messages. -/
def name : Operator → String
  | eq => "eq"
  | notEq => "notEq"
  | gt => "gt"
  | gte => "gte"
  | weakGt => "weakGt"
  | lt => "lt"
  | lte => "lte"
  | oneOf => "oneOf"
  | notIn => "notIn"
  | between => "between"
  | like => "like"
  | notLike => "notLike"

end Operator

end DocQuery
