-- SUMMARY: The meaning of comparisons in the query language, and that compilation preserves the meaning of every clause.
import DocQuery.Proofs.Reading

/-!
# Compilation preserves meaning

`Comparison.Meaning` is the reference for comparisons: equality converts between types, null is
never below anything nor outside of a list, and a pattern that is no text asks for nothing. The
compiler relies on a few laws of the engine, `Engine.Lawful`, and on a column that no record
carries.
-/

namespace DocQuery

variable {Value : Type}

/-- What the compiler relies on. The order of values, membership and regular expressions are left
    to the engine. -/
structure Engine.Lawful (E : Engine Value) : Prop where
  ne_iff : ∀ v x, E.relate .ne v x ↔ ¬ E.relate .eq v x
  eq_text_iff : ∀ v s, E.relate .eq v (.text s) ↔ E.relate .aeq v (.text s)
  eq_null_iff : ∀ v, E.relate .eq v .null ↔ v = E.null
  aeq_null_iff : ∀ v, E.relate .aeq v .null ↔ v = E.null
  absent : E.present none false

/-- A comparison as the query language means it, of a column that has the value `v`. A comparison
    of two columns is for others to check. An operand of the wrong shape means nothing. -/
def Comparison.Meaning (E : Engine Value) (settings : Settings) (c : Comparison) (v : Value) :
    Prop :=
  match c.right with
  | .column _ => True
  | .value x =>
    match c.operator with
    | .eq => E.relate .aeq v x
    | .notEq => ¬ E.relate .aeq v x
    | .gt => E.relate .gt v x
    | .weakGt => E.relate .gt v x
    | .gte => E.relate .gte v x
    | .lt => E.relate .lt v x ∧ v ≠ E.null
    | .lte => E.relate .lte v x ∧ v ≠ E.null
    | .like => ∀ s, x = .text s → E.regex v (.ofPattern s settings.caseInsensitiveLike)
    | .notLike => ∀ s, x = .text s →
      v ≠ E.null ∧ ¬ E.regex v (.ofPattern s settings.caseInsensitiveLike)
    | .oneOf => False
    | .notIn => False
    | .between => False
  | .values xs =>
    match c.operator with
    | .oneOf => E.among v xs
    | .notIn => E.notAmong v xs ∧ v ≠ E.null
    | .between => ∃ low high, xs = [low, high] ∧ E.between v low high
    | .like => True
    | .notLike => True
    | _ => False

/-- The reference reading of comparisons. -/
def meaningReading (E : Engine Value) (settings : Settings) : Reading Value :=
  fun column comparison r => comparison.Meaning E settings (E.read r column)

/-! ## Conditions -/

section Conditions

variable {E : Engine Value} {db : Database Value} {settings : Settings} {r : Record Value}
  {column : String}

/-- The always-true node does its work on records without its column. -/
theorem holds_always (hE : E.Lawful) (hr : r settings.alwaysTrueColumn = none) :
    (Predicate.always settings).Holds E db r := by
  simp only [Predicate.always, Predicate.Holds, FieldTest.Holds, hr]
  exact hE.absent

theorem holds_notNull (hnull : ∀ v, E.relate .aeq v .null ↔ v = E.null) {test : FieldTest}
    {v : Option Value} :
    test.notNull.Holds E v ↔ test.Holds E v ∧ v.getD E.null ≠ E.null := by
  simp [FieldTest.notNull, FieldTest.Holds, FieldTest.EveryHolds, hnull]

private theorem holds_test {test : FieldTest} :
    ((Condition.test test).toPredicate settings column).Holds E db r ↔
      test.Holds E (r column) := by
  simp only [Condition.toPredicate, Predicate.Holds]

private theorem holds_always_condition (hE : E.Lawful)
    (hr : r settings.alwaysTrueColumn = none) :
    (Condition.always.toPredicate settings column).Holds E db r := by
  simp only [Condition.toPredicate]
  exact holds_always hE hr

/-- The operator table: each operator compiles to a condition with its meaning. -/
theorem Operator.exists_condition_iff (hE : E.Lawful) (hr : r settings.alwaysTrueColumn = none)
    {op : Operator} {right : Operand} (hright : ∀ other, right ≠ .column other) :
    (∃ condition, op.condition settings right = .ok condition ∧
        (condition.toPredicate settings column).Holds E db r) ↔
      Comparison.Meaning E settings ⟨op, right⟩ (E.read r column) := by
  cases right with
  | column other => exact absurd rfl (hright other)
  | value x =>
    cases op
    case eq | notEq | gt | weakGt | gte =>
      simp [condition, Operand.scalar, bind, Except.bind, pure, Except.pure, holds_test,
        FieldTest.Holds, Comparison.Meaning, Engine.read]
    case lt | lte =>
      simp [condition, Operand.scalar, bind, Except.bind, pure, Except.pure, holds_test,
        holds_notNull hE.aeq_null_iff, FieldTest.Holds, Comparison.Meaning, Engine.read]
    case oneOf | notIn | between =>
      simp [condition, Operand.list, bind, Except.bind, Comparison.Meaning]
    case like | notLike =>
      cases x with
      | text s =>
        simp [condition, Operand.pattern?, Operand.text?, Literal.text?, bind, Except.bind, pure,
          Except.pure, holds_test, FieldTest.Holds, FieldTest.EveryHolds, hE.eq_null_iff,
          Comparison.Meaning, Engine.read]
      | null | bool _ | int _ | float _ =>
        simp [condition, Operand.pattern?, Operand.text?, Literal.text?, bind, Except.bind, pure,
          Except.pure, holds_always_condition hE hr, Comparison.Meaning]
  | values xs =>
    cases op
    case eq | notEq | gt | weakGt | gte | lt | lte =>
      simp [condition, Operand.scalar, bind, Except.bind, Comparison.Meaning]
    case oneOf =>
      simp [condition, Operand.list, bind, Except.bind, pure, Except.pure, holds_test,
        FieldTest.Holds, Comparison.Meaning, Engine.read]
    case notIn =>
      simp [condition, Operand.list, bind, Except.bind, pure, Except.pure, holds_test,
        holds_notNull hE.aeq_null_iff, FieldTest.Holds, Comparison.Meaning, Engine.read]
    case between =>
      match xs with
      | [low, high] =>
        simp [condition, Operand.list, bind, Except.bind, pure, Except.pure, holds_test,
          FieldTest.Holds, Comparison.Meaning, Engine.read]
      | [] | [_] | _ :: _ :: _ :: _ =>
        simp [condition, Operand.list, bind, Except.bind, Comparison.Meaning]
    case like | notLike =>
      simp [condition, Operand.pattern?, Operand.text?, bind, Except.bind, pure, Except.pure,
        holds_always_condition hE hr, Comparison.Meaning]

private theorem Operand.text?_eq_some {right : Operand} {s : String} :
    right.text? = some s ↔ right = .value (.text s) := by
  cases right with
  | value x => cases x <;> simp [Operand.text?, Literal.text?]
  | values xs => simp [Operand.text?]
  | column other => simp [Operand.text?]

/-- The strict equality that texts are compared with has the meaning of the weak one. -/
theorem Comparison.exists_condition_iff (hE : E.Lawful)
    (hr : r settings.alwaysTrueColumn = none) {c : Comparison}
    (hright : ∀ other, c.right ≠ .column other) :
    (∃ condition, c.condition settings = .ok condition ∧
        (condition.toPredicate settings column).Holds E db r) ↔
      c.Meaning E settings (E.read r column) := by
  obtain ⟨op, right⟩ := c
  simp only [Comparison.condition]
  split
  next s htext =>
    obtain rfl := Operand.text?_eq_some.1 htext
    simp [holds_test, FieldTest.Holds, Comparison.Meaning, Engine.read, hE.eq_text_iff]
  next s htext =>
    obtain rfl := Operand.text?_eq_some.1 htext
    simp [holds_test, FieldTest.Holds, Comparison.Meaning, Engine.read, hE.ne_iff, hE.eq_text_iff]
  next => exact Operator.exists_condition_iff hE hr hright

/-- On records without the column of the always-true node, what the engine checks is what the
    comparison means. -/
theorem deferredReading_iff (hE : E.Lawful) (hr : r settings.alwaysTrueColumn = none)
    {comparison : Comparison} :
    deferredReading E db settings column comparison r ↔
      meaningReading E settings column comparison r := by
  simp only [deferredReading, engineReading, meaningReading]
  split
  next other hright => simp [Comparison.Meaning, hright, holds_always hE hr]
  next hright => exact Comparison.exists_condition_iff hE hr hright

end Conditions

/-! ## Clauses -/

/-- Compilation preserves meaning: conditions that compile give a predicate that accepts exactly
    the records that satisfy every condition. -/
theorem Clause.compileConjunction_correct {E : Engine Value} (hE : E.Lawful) {db : Database Value}
    {settings : Settings} {associations : List Association} {cs : List Clause}
    {query : Option Predicate}
    (h : (compileConjunction settings associations cs).outcome = .ok query)
    (hdb : ∀ table, ∀ r ∈ db table, r settings.alwaysTrueColumn = none)
    {r : Record Value} (hr : r settings.alwaysTrueColumn = none) :
    Predicate.Accepts E db query r ↔
      ∀ c ∈ cs, c.Satisfied E db settings associations (meaningReading E settings) r := by
  rw [accepts_iff_satisfied h]
  constructor
  · intro hsat c hc
    exact (hsat c hc).mono hdb (fun _ _ _ hr => (deferredReading_iff hE hr).1) hr
  · intro hsat c hc
    exact (hsat c hc).mono hdb (fun _ _ _ hr => (deferredReading_iff hE hr).2) hr

theorem Engine.literals_lawful : Engine.literals.Lawful where
  ne_iff _ _ := Iff.rfl
  eq_text_iff _ _ := Iff.rfl
  eq_null_iff _ := Iff.rfl
  aeq_null_iff _ := Iff.rfl
  absent := rfl

/-- A task without a score satisfies the sample conditions through its project, and only if there
    is one. -/
theorem Clause.compileConjunction_correct_sample :
    (∀ c ∈ Sample.conditions, c.Satisfied Engine.literals Sample.database {} Sample.associations
      (meaningReading Engine.literals {}) (.ofList [("project_id", .int 7)])) ∧
    ¬ ∀ c ∈ Sample.conditions, c.Satisfied Engine.literals Sample.database {} Sample.associations
      (meaningReading Engine.literals {}) (.ofList [("project_id", .int 8)]) := by
  have haccepts := fun (r : Record Literal) (hr : r "_fakeAlwaysTrue" = none) =>
    compileConjunction_correct Engine.literals_lawful Sample.compileConjunction_conditions
      Sample.database_lacks_column hr
  rw [← haccepts _ rfl, ← haccepts _ rfl]
  simp [Sample.predicate, Predicate.Accepts, Predicate.Holds, Predicate.EveryHolds,
    Predicate.SomeHolds, FieldTest.Holds, FieldTest.EveryHolds, Engine.literals, Engine.read,
    Sample.database, Record.ofList, List.lookup_cons]

end DocQuery
