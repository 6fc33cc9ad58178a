-- SUMMARY: JSON values as trees whose objects keep the order of their members.

/-!
# JSON trees

Numbers are either whole or floating-point, and the two are kept apart: `1` and `1.0` are
different values. An object is a list of members, so that order and repetitions are visible;
`DocQuery/Json/Sorted.lean` singles out the trees in which neither carries information.
-/

namespace DocQuery

/-- A JSON number. -/
inductive Json.Number where
  | int (n : Int)
  | float (x : Float)
deriving BEq

/-- A JSON value. -/
inductive Json where
  | null
  | bool (b : Bool)
  | number (n : Json.Number)
  | string (s : String)
  | array (items : List Json)
  | object (members : List (String × Json))

namespace Json

instance : Inhabited Json := ⟨.null⟩

/-- A whole number. -/
def int (n : Int) : Json :=
  .number (.int n)

/-! ## Equality

Floating-point numbers compare as numbers: a zero equals the zero of the other sign. -/

mutual

/-- Whether two values are equal, member by member and in order. -/
def beq : Json → Json → Bool
  | .null, .null => true
  | .bool a, .bool b => a == b
  | .number a, .number b => a == b
  | .string a, .string b => a == b
  | .array as, .array bs => beqItems as bs
  | .object as, .object bs => beqMembers as bs
  | _, _ => false

def beqItems : List Json → List Json → Bool
  | [], [] => true
  | a :: as, b :: bs => beq a b && beqItems as bs
  | _, _ => false

def beqMembers : List (String × Json) → List (String × Json) → Bool
  | [], [] => true
  | (j, a) :: as, (k, b) :: bs => j == k && beq a b && beqMembers as bs
  | _, _ => false

end

instance : BEq Json := ⟨beq⟩

end Json

end DocQuery
