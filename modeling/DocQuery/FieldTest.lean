-- SUMMARY: Tests of the document engine on the value of one field.
import DocQuery.LikePattern
import DocQuery.Literal

/-!
# Field tests
-/

namespace DocQuery

/-- A relation of the engine between the value of a field and a literal. -/
inductive Relator where
  /-- Equality that converts between types. -/
  | aeq
  | eq
  | ne
  | gt
  | gte
  | lt
  | lte
deriving DecidableEq, Repr

def Relator.keyword : Relator → String
  | aeq => "$aeq"
  | eq => "$eq"
  | ne => "$ne"
  | gt => "$gt"
  | gte => "$gte"
  | lt => "$lt"
  | lte => "$lte"

/-- A test on the value of a field. -/
inductive FieldTest where
  | relate (relator : Relator) (v : Literal)
  | among (vs : List Literal)
  | notAmong (vs : List Literal)
  | between (low high : Literal)
  | regex (pattern : LikePattern)
  | present (expected : Bool)
  | not (test : FieldTest)
  | all (tests : List FieldTest)

namespace FieldTest

instance : Inhabited FieldTest := ⟨.all []⟩

/-- The name of a test in the engine's queries. -/
def keyword : FieldTest → String
  | .relate relator _ => relator.keyword
  | .among _ => "$in"
  | .notAmong _ => "$nin"
  | .between .. => "$between"
  | .regex _ => "$regex"
  | .present _ => "$exists"
  | .not _ => "$not"
  | .all _ => "$and"

mutual

/-- What belongs to the name of a test. -/
def content : FieldTest → Json
  | .relate _ v => v.toJson
  | .among vs => .array (vs.map Literal.toJson)
  | .notAmong vs => .array (vs.map Literal.toJson)
  | .between low high => .array [low.toJson, high.toJson]
  | .regex pattern => pattern.toJson
  | .present expected => .bool expected
  | .not test => .object [(test.keyword, content test)]
  | .all tests => .array (contents tests)

def contents : List FieldTest → List Json
  | [] => []
  | t :: ts => .object [(t.keyword, content t)] :: contents ts

end

def toJson (t : FieldTest) : Json :=
  .object [(t.keyword, t.content)]

end FieldTest

end DocQuery
