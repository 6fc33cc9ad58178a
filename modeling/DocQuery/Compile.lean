-- SUMMARY: Compiling queries into predicates of the document engine.
import DocQuery.Predicate
import DocQuery.Query
import DocQuery.Trace

/-!
# Compilation

Conditions are compiled from left to right and the first problem ends compilation. The engine's
own comparisons with null are looser than those of the query language: `$lt`, `$lte` and `$nin`
accept null, so the operators that use them exclude it.
-/

namespace DocQuery

/-! ## Comparisons -/

/-- What a comparison asks of a column: a test, or nothing that the engine could check. -/
inductive Condition where
  | test (t : FieldTest)
  | always

/-- The test, of values other than null. -/
def FieldTest.notNull (t : FieldTest) : FieldTest :=
  .all [t, .not (.relate .aeq .null)]

/-- The single value on the right of an operator. -/
def Operand.scalar (op : Operator) : Operand → Except CompileError Literal
  | .value v => .ok v
  | .values _ => .error (.invalidOperand op .scalar)
  | .column name => .error (.columnComparison name)

/-- The list on the right of an operator. -/
def Operand.list (op : Operator) : Operand → Except CompileError (List Literal)
  | .value _ => .error (.invalidOperand op .list)
  | .values vs => .ok vs
  | .column name => .error (.columnComparison name)

/-- The text on the right of an operator, if it is one. -/
def Operand.pattern? : Operand → Except CompileError (Option String)
  | .column name => .error (.columnComparison name)
  | right => .ok right.text?

/-- The condition for an operator. Between a column and a value `weakGt` is another name for `gt`.
    A pattern that is no text cannot be matched, and must not exclude any record. -/
def Operator.condition (settings : Settings) (right : Operand) :
    Operator → Except CompileError Condition
  | .eq => do return .test (.relate .aeq (← right.scalar .eq))
  | .notEq => do return .test (.not (.relate .aeq (← right.scalar .notEq)))
  | .gt => do return .test (.relate .gt (← right.scalar .gt))
  | .weakGt => do return .test (.relate .gt (← right.scalar .gt))
  | .gte => do return .test (.relate .gte (← right.scalar .gte))
  | .lt => do return .test (.notNull (.relate .lt (← right.scalar .lt)))
  | .lte => do return .test (.notNull (.relate .lte (← right.scalar .lte)))
  | .oneOf => do return .test (.among (← right.list .oneOf))
  | .notIn => do return .test (.notNull (.notAmong (← right.list .notIn)))
  | .between => do
    match ← right.list .between with
    | [low, high] => return .test (.between low high)
    | _ => .error (.invalidOperand .between .pair)
  | .like => do
    match ← right.pattern? with
    | some pattern => return .test (.regex (.ofPattern pattern settings.caseInsensitiveLike))
    | none => return .always
  | .notLike => do
    match ← right.pattern? with
    | some pattern =>
      return .test (.all [.not (.relate .eq .null),
        .not (.regex (.ofPattern pattern settings.caseInsensitiveLike))])
    | none => return .always

/-- The condition for a comparison. Equality with a text is the strict one of the engine, which can
    use an index, in place of the weak one of the operator table. They agree on the texts in
    records, but not on the numbers that the text spells. -/
def Comparison.condition (settings : Settings) (c : Comparison) :
    Except CompileError Condition :=
  match c.operator, c.right.text? with
  | .eq, some s => .ok (.test (.relate .eq (.text s)))
  | .notEq, some s => .ok (.test (.relate .ne (.text s)))
  | op, _ => op.condition settings c.right

/-- A condition on a column. -/
def Condition.toPredicate (settings : Settings) (column : String) : Condition → Predicate
  | .test t => .field column t
  | .always => .always settings

/-! ## Joins -/

/-- The column of the joined records that is compared. -/
def Relation.mapKey (settings : Settings) : Relation → String
  | .belongsTo _ => settings.identityColumn
  | .hasMany foreignKey => foreignKey

/-- The column of the record at hand that is compared. -/
def Relation.joinKey (settings : Settings) : Relation → String
  | .belongsTo key => key
  | .hasMany _ => settings.identityColumn

/-- The only association with a table. -/
def findAssociation (associations : List Association) (table : String) :
    Except CompileError Association :=
  match associations.filter fun a => a.target == table with
  | [] => .error (.missingAssociation table)
  | [a] => .ok a
  | found => .error (.ambiguousAssociation table found.length)

/-! ## Clauses -/

/-- All of the predicates together. -/
def Predicate.conjunction? : List Predicate → Option Predicate
  | [] => none
  | [p] => some p
  | ps => some (.group .and ps)

/-- Connects predicates, of which there must be some. One alone needs no connective. -/
def Predicate.connect (connective : Connective) : List Predicate → Except CompileError Predicate
  | [] => .error (.noConditions connective.name)
  | [p] => .ok p
  | ps => .ok (.group connective ps)

mutual

/-- Compiles a clause. A comparison between columns is deferred. -/
def Clause.compile (settings : Settings) (associations : List Association) :
    Clause → Traced Predicate
  | .compare column comparison =>
    match comparison.right with
    | .column comparedTo => do
      Traced.emit (.deferred column comparedTo)
      return .always settings
    | _ => do
      let condition ← Traced.ofExcept (comparison.condition settings)
      return condition.toPredicate settings column
  | .group connective conditions => do
    let ps ← compileList settings associations conditions
    Traced.ofExcept (Predicate.connect connective ps)
  | .on table conditions => do
    let association ← Traced.ofExcept (findAssociation associations table)
    let mapKey := association.relation.mapKey settings
    let joinKey := association.relation.joinKey settings
    let ps ← compileList settings associations conditions
    Traced.emit (.join table mapKey joinKey)
    return .join table (Predicate.conjunction? ps) conditions mapKey joinKey
  | .raw expression => return .raw expression

/-- Compiles clauses from left to right. -/
def Clause.compileList (settings : Settings) (associations : List Association) :
    List Clause → Traced (List Predicate)
  | [] => return []
  | c :: cs => do
    let p ← c.compile settings associations
    let ps ← compileList settings associations cs
    return p :: ps

end

/-- Compiles clauses that have to hold together. No clauses give no predicate. -/
def Clause.compileConjunction (settings : Settings) (associations : List Association)
    (conditions : List Clause) : Traced (Option Predicate) := do
  let ps ← compileList settings associations conditions
  return Predicate.conjunction? ps

/-! ## Queries -/

/-- The first feature of a description that the engine lacks. -/
def Description.unsupported? (d : Description) : Option Feature :=
  if !d.sortBy.isEmpty then some .sortBy
  else if d.take.isSome then some .take
  else if d.skip.isSome then some .skip
  else none

/-- Compiles a query. Nothing is traced if a feature is refused. -/
def Query.compile (settings : Settings) (q : Query) : Traced CompiledQuery :=
  match q.description.unsupported? with
  | some feature => Traced.fail (.unsupportedFeature feature)
  | none => do
    Traced.emit (.start q.table q.description.conditions.length)
    let query ← Clause.compileConjunction settings q.associations q.description.conditions
    let compiled : CompiledQuery := {
      table := q.table
      query
      hasJoins := !q.description.joinTables.isEmpty }
    Traced.emit (.finish compiled.table compiled.query.isSome compiled.hasJoins)
    return compiled

end DocQuery
