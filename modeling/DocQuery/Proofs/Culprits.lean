-- SUMMARY: The comparisons at fault for an error about operands, and the operator that goes by another one's name in it.
import DocQuery.Proofs.RoundTrip
import DocQuery.Proofs.Traversal

/-!
# Who is at fault for an error about operands

An error about operands names an operator and the shape that it expects, and not where in the query
it occurred. A reader of the error looks for a comparison with that operator whose literals have
another shape, a `Comparison.Culprit`. There is one for every operator but `weakGt`, which is
reported as `gt`: a query that uses `weakGt` on a list and `gt` on none has no culprit for its own
error.
-/

namespace DocQuery

/-- Literals have a shape. Another column has none. -/
def Operand.HasShape : Operand → OperandShape → Prop
  | .value _, .scalar => True
  | .values _, .list => True
  | .values vs, .pair => vs.length = 2
  | _, _ => False

/-- A comparison with literals that do not have the shape its operator is said to expect. -/
structure Comparison.Culprit (operator : Operator) (expected : OperandShape) (c : Comparison) :
    Prop where
  operator : c.operator = operator
  literal : ∀ other, c.right ≠ .column other
  shape : ¬ c.right.HasShape expected

/-- The comparisons of a clause, at any depth and in order. -/
def Clause.comparisons : Clause → List Comparison :=
  collect (fun comparison => [comparison]) fun _ => []

@[simp] theorem Clause.comparisons_group (connective : Connective) (cs : List Clause) :
    comparisons (.group connective cs) = cs.flatMap comparisons :=
  collectList_eq_flatMap _ _ cs

@[simp] theorem Clause.comparisons_on (table : String) (cs : List Clause) :
    comparisons (.on table cs) = cs.flatMap comparisons :=
  collectList_eq_flatMap _ _ cs

/-- The comparisons of a query, those of its joins included. -/
def Query.comparisons (q : Query) : List Comparison :=
  q.description.conditions.flatMap Clause.comparisons

/-! ## From errors to comparisons -/

/-- A comparison is its own culprit, unless its operator is `weakGt`. -/
theorem Comparison.culprit_of_fault {c : Comparison} {operator : Operator}
    {expected : OperandShape} (h : c.fault? = some (.invalidOperand operator expected)) :
    c.Culprit operator expected ∨ operator = .gt ∧ c.Culprit .weakGt expected := by
  obtain ⟨op, right⟩ := c
  cases right with
  | column other => cases h
  | value x =>
    cases op
    case oneOf | notIn | between =>
      cases h
      exact .inl ⟨rfl, by simp, id⟩
    case eq | notEq | gt | weakGt | gte | lt | lte | like | notLike => cases h
  | values xs =>
    cases op
    case weakGt =>
      cases h
      exact .inr ⟨rfl, rfl, by simp, id⟩
    case eq | notEq | gt | gte | lt | lte =>
      cases h
      exact .inl ⟨rfl, by simp, id⟩
    case between =>
      simp only [Comparison.fault?] at h
      split at h
      next => cases h
      next hlength =>
        cases h
        exact .inl ⟨rfl, by simp, hlength⟩
    case oneOf | notIn | like | notLike => cases h

private theorem associationFault?_ne_invalidOperand {associations : List Association}
    {table : String} {operator : Operator} {expected : OperandShape} :
    associationFault? associations table ≠ some (.invalidOperand operator expected) := by
  intro h
  simp only [associationFault?] at h
  split at h <;> cases h

/-- A fault about operands, wherever in a clause, is the fault of one of its comparisons. -/
theorem Clause.exists_comparison_of_fault {settings : Settings} {associations : List Association}
    {c : Clause} {operator : Operator} {expected : OperandShape}
    (h : .fault (.invalidOperand operator expected) ∈ c.actions settings associations) :
    ∃ comparison ∈ c.comparisons,
      comparison.fault? = some (.invalidOperand operator expected) := by
  induction c with
  | compare column comparison =>
    refine ⟨comparison, List.mem_cons_self, ?_⟩
    rw [actions] at h
    split at h
    next => simp at h
    next => simpa using h
  | group connective cs ih =>
    rw [actions, List.mem_append, mem_actionsList] at h
    rcases h with ⟨c, hc, h⟩ | h
    · obtain ⟨comparison, hmem, hfault⟩ := ih c hc h
      rw [comparisons_group]
      exact ⟨comparison, List.mem_flatMap_of_mem hc hmem, hfault⟩
    · split at h <;> simp at h
  | on table cs ih =>
    rw [actions, List.mem_append, List.mem_append, mem_actionsList] at h
    rcases h with (h | ⟨c, hc, h⟩) | h
    · exact absurd (by simpa using h) associationFault?_ne_invalidOperand
    · obtain ⟨comparison, hmem, hfault⟩ := ih c hc h
      rw [comparisons_on]
      exact ⟨comparison, List.mem_flatMap_of_mem hc hmem, hfault⟩
    · simp at h
  | raw expression => simp [actions] at h

/-- Some comparison is at fault for an error about operands. -/
theorem Query.exists_comparison_of_error {settings : Settings} {q : Query} {operator : Operator}
    {expected : OperandShape}
    (h : (q.compile settings).outcome = .error (.invalidOperand operator expected)) :
    ∃ c ∈ q.comparisons, c.Culprit operator expected ∨
      operator = .gt ∧ c.Culprit .weakGt expected := by
  have hfault := Action.mem_of_firstFault?
    ((Query.performs_compile settings q).outcome_eq_error.1 h)
  simp only [Query.actions, List.mem_append, List.mem_map, List.mem_singleton, reduceCtorEq,
    or_false, Clause.mem_actionsList, Action.fault.injEq, and_false, exists_false,
    false_or] at hfault
  obtain ⟨clause, hclause, hfault⟩ := hfault
  obtain ⟨c, hc, hfault⟩ := Clause.exists_comparison_of_fault hfault
  exact ⟨c, List.mem_flatMap_of_mem hclause hc, Comparison.culprit_of_fault hfault⟩

/-! ## Errors without a culprit -/

/-- Tasks of a size beyond a list of one number. -/
def Sample.beyondList : Query where
  table := "tasks"
  description := { conditions := [.compare "size" ⟨.weakGt, .values [.int 1]⟩] }

/-- Not every error about operands has a culprit. -/
theorem Query.exists_error_without_culprit :
    ¬ ∀ (settings : Settings) (q : Query) (operator : Operator) (expected : OperandShape),
      (q.compile settings).outcome = .error (.invalidOperand operator expected) →
      ∃ c ∈ q.comparisons, c.Culprit operator expected := by
  intro hculprit
  obtain ⟨c, hc, hoperator, _, _⟩ := hculprit {} Sample.beyondList .gt .scalar rfl
  cases List.mem_singleton.1 hc
  cases hoperator

/-- For every error about operands some comparison is at fault, and it is reported by its own
    operator unless that is `weakGt`. So an error is without a culprit exactly if it names `gt`,
    some `weakGt` compares with literals of the wrong shape, and no `gt` does. -/
theorem Query.operand_error_has_culprit {settings : Settings} {q : Query} {operator : Operator}
    {expected : OperandShape}
    (h : (q.compile settings).outcome = .error (.invalidOperand operator expected)) :
    (∃ c ∈ q.comparisons, c.Culprit operator expected ∨
      operator = .gt ∧ c.Culprit .weakGt expected) ∧
    ((∃ c ∈ q.comparisons, c.Culprit operator expected) ↔
      ¬ (operator = .gt ∧ (∃ c ∈ q.comparisons, c.Culprit .weakGt expected) ∧
        ∀ c ∈ q.comparisons, ¬ c.Culprit .gt expected)) := by
  have hfault := exists_comparison_of_error h
  refine ⟨hfault, ?_, ?_⟩
  · rintro ⟨c, hc, hculprit⟩ ⟨rfl, _, hnone⟩
    exact hnone c hc hculprit
  · intro hnot
    obtain ⟨c, hc, hculprit | ⟨rfl, hweak⟩⟩ := hfault
    · exact ⟨c, hc, hculprit⟩
    · -- The error names `gt` on behalf of a `weakGt`; some `gt` must be at fault as well.
      apply Classical.byContradiction
      intro hnone
      refine hnot ⟨rfl, ⟨c, hc, hweak⟩, ?_⟩
      intro c hc hculprit
      exact hnone ⟨c, hc, hculprit⟩

/-- Tasks of a project with a budget between three bounds. -/
def Sample.threeBounds : Query where
  table := "tasks"
  description := {
    conditions := [.compare "size" ⟨.weakGt, .value (.int 1)⟩, .on "projects" [.group .or [
      .compare "budget" ⟨.between, .values [.int 1, .int 2, .int 3]⟩,
      .compare "name" ⟨.like, .values []⟩]]] }
  associations := [⟨"projects", .belongsTo "project_id"⟩]

theorem Query.operand_error_has_culprit_bounds :
    (Sample.threeBounds.compile {}).outcome = .error (.invalidOperand .between .pair) ∧
    (∃ c ∈ Sample.threeBounds.comparisons, c.Culprit .between .pair) ∧
    (Sample.beyondList.compile {}).outcome = .error (.invalidOperand .gt .scalar) ∧
    ∃ c ∈ Sample.beyondList.comparisons, c.Culprit .weakGt .scalar := by
  have hbounds : (Sample.threeBounds.compile {}).outcome =
      .error (.invalidOperand .between .pair) := rfl
  have hlist : (Sample.beyondList.compile {}).outcome = .error (.invalidOperand .gt .scalar) := rfl
  refine ⟨hbounds, (operand_error_has_culprit hbounds).2.2 nofun, hlist, ?_⟩
  obtain ⟨c, hc, hculprit | ⟨_, hweak⟩⟩ := (operand_error_has_culprit hlist).1
  · cases List.mem_singleton.1 hc
    cases hculprit.operator
  · exact ⟨c, hc, hweak⟩

end DocQuery
