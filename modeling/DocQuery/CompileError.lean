-- SUMMARY: Why a query cannot be compiled: causes, their classes and their wording.
import DocQuery.Operator

/-!
# Compile errors

A cause is data; `message` is the only place where it is put into words.
-/

namespace DocQuery

/-- Parts of a query description that the document engine cannot carry out. -/
inductive Feature where
  | sortBy
  | take
  | skip
deriving DecidableEq, Repr

/-- The call of the query builder that asks for the feature. -/
def Feature.label : Feature → String
  | sortBy => "Q.sortBy()"
  | take => "Q.take()"
  | skip => "Q.skip()"

/-- What an operator expects on its right. -/
inductive OperandShape where
  | scalar
  | list
  | pair
deriving DecidableEq, Repr

def OperandShape.label : OperandShape → String
  | scalar => "a single value"
  | list => "a list of values"
  | pair => "a list of exactly two values"

/-- A coarse classification for callers. -/
inductive ErrorClass where
  | invalid
  | invariantViolation
  | notFound
  | unsupported
deriving DecidableEq, Repr

def ErrorClass.label : ErrorClass → String
  | invalid => "invalid"
  | invariantViolation => "invariant_violation"
  | notFound => "not_found"
  | unsupported => "unsupported"

/-- Why a query, or a clause of it, is refused. -/
inductive CompileError where
  | ambiguousAssociation (table : String) (count : Nat)
  | invalidClause (kind reason : String)
  | invalidOperand (operator : Operator) (expected : OperandShape)
  | missingAssociation (table : String)
  /-- Two columns are compared where only a value can stand. -/
  | columnComparison (column : String)
  | unknownClauseKind (kind : String)
  | unsupportedFeature (feature : Feature)
deriving DecidableEq, Repr

namespace CompileError

/-- The error of a clause without a member that its kind needs. -/
def missingMember (kind member : String) : CompileError :=
  .invalidClause kind ("missing field `" ++ member ++ "`")

/-- The error of a connective with nothing to connect. -/
def noConditions (kind : String) : CompileError :=
  .invalidClause kind "conditions must not be empty"

def errorClass : CompileError → ErrorClass
  | ambiguousAssociation .. => .invalid
  | invalidClause .. => .invalid
  | invalidOperand .. => .invalid
  | missingAssociation .. => .notFound
  | columnComparison .. => .invariantViolation
  | unknownClauseKind .. => .invariantViolation
  | unsupportedFeature .. => .unsupported

def message : CompileError → String
  | ambiguousAssociation table count =>
    "table '" ++ table ++ "' has " ++ toString count
      ++ " declared associations; a join needs exactly one"
  | invalidClause kind reason => "invalid '" ++ kind ++ "' clause: " ++ reason
  | invalidOperand operator expected =>
    "operator '" ++ operator.name ++ "' expects " ++ expected.label
  | missingAssociation table =>
    "no association declared for joined table '" ++ table
      ++ "'; to nest Q.on inside Q.and/Q.or you must explicitly declare "
      ++ "Q.experimentalJoinTables at the beginning of the query"
  | columnComparison column =>
    "column comparison against '" ++ column
      ++ "' is not encodable; defer it to the row matcher"
  | unknownClauseKind kind => "unknown clause kind '" ++ kind ++ "'"
  | unsupportedFeature feature => feature.label ++ " is not supported by the loki backend"

/-- The message behind the name of its class. -/
def fullMessage (e : CompileError) : String :=
  e.errorClass.label ++ ": " ++ e.message

end CompileError

end DocQuery
