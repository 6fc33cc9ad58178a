-- SUMMARY: What compilation returns: the outcome of each construct, and induction over successful compilations.
import DocQuery.Compile
import Mathlib.Data.List.Forall2

/-!
# Outcomes of compilation

Compilation leaves events and returns an outcome. The lemmas here read the outcome of a compound
clause off the outcomes of its parts, so that no later proof opens the compiler.
`Clause.compile_induction` is the induction over successful compilations: it says everything that
compiling a clause can return, with the predicates of sub-clauses in the order of the clauses.
-/

namespace DocQuery

theorem exists_of_forall₂ {α β : Type} {R : α → β → Prop} {as : List α} {bs : List β}
    (h : List.Forall₂ R as bs) {b : β} (hb : b ∈ bs) : ∃ a ∈ as, R a b := by
  induction h with
  | nil => cases hb
  | @cons a b' as bs hab _ ih =>
    rcases List.mem_cons.1 hb with rfl | hb
    · exact ⟨a, List.mem_cons_self, hab⟩
    · obtain ⟨a', ha', hab'⟩ := ih hb
      exact ⟨a', List.mem_cons_of_mem _ ha', hab'⟩

/-! ## Traced computations -/

namespace Traced

variable {α β : Type}

@[simp] theorem outcome_pure (a : α) : (pure a : Traced α).outcome = .ok a := rfl

@[simp] theorem outcome_emit (event : Event) : (emit event).outcome = .ok () := rfl

@[simp] theorem outcome_ofExcept (x : Except CompileError α) : (ofExcept x).outcome = x := rfl

@[simp] theorem outcome_fail (e : CompileError) : (fail e : Traced α).outcome = .error e := rfl

theorem outcome_bind (x : Traced α) (f : α → Traced β) :
    (x >>= f).outcome = x.outcome >>= fun a => (f a).outcome := by
  change (Traced.bind x f).outcome = _
  unfold Traced.bind
  cases x.outcome with
  | error e => rfl
  | ok a => rfl

theorem bind_eq_ok {x : Traced α} {f : α → Traced β} {b : β} :
    (x >>= f).outcome = .ok b ↔ ∃ a, x.outcome = .ok a ∧ (f a).outcome = .ok b := by
  rw [outcome_bind]
  cases x.outcome with
  | error e => simp [bind, Except.bind]
  | ok a => simp [bind, Except.bind]

end Traced

/-! ## Predicates from several -/

namespace Predicate

theorem connect_eq_ok {connective : Connective} {ps : List Predicate} {p : Predicate} :
    connect connective ps = .ok p ↔
      ps = [p] ∨ (2 ≤ ps.length ∧ p = .group connective ps) := by
  match ps with
  | [] => simp [connect]
  | [q] => simp [connect]
  | q :: q' :: qs => simp [connect, eq_comm]

theorem conjunction?_eq_some {ps : List Predicate} {p : Predicate} :
    conjunction? ps = some p ↔ ps = [p] ∨ (2 ≤ ps.length ∧ p = .group .and ps) := by
  match ps with
  | [] => simp [conjunction?]
  | [q] => simp [conjunction?]
  | q :: q' :: qs => simp [conjunction?, eq_comm]

/-- A conjunction is a connective that may have nothing to connect. -/
theorem connect_and_eq_ok {ps : List Predicate} {p : Predicate} :
    connect .and ps = .ok p ↔ conjunction? ps = some p := by
  rw [connect_eq_ok, conjunction?_eq_some]

@[simp] theorem conjunction?_eq_none {ps : List Predicate} : conjunction? ps = none ↔ ps = [] := by
  match ps with
  | [] => simp [conjunction?]
  | [q] => simp [conjunction?]
  | q :: q' :: qs => simp [conjunction?]

end Predicate

/-! ## Associations -/

theorem findAssociation_eq_ok {associations : List Association} {table : String}
    {a : Association} :
    findAssociation associations table = .ok a ↔
      associations.filter (fun a => a.target == table) = [a] := by
  unfold findAssociation
  split
  next h => simp [h]
  next b h => simp [h]
  next found h _ => simp_all

/-- The association found is the only one with the table. -/
theorem mem_of_findAssociation {associations : List Association} {table : String}
    {a b : Association} (h : findAssociation associations table = .ok a) :
    b ∈ associations ∧ b.target = table ↔ b = a := by
  have hfilter : b ∈ associations.filter (fun a => a.target == table) ↔ b ∈ [a] := by
    rw [findAssociation_eq_ok.1 h]
  simpa using hfilter

/-! ## Clauses -/

namespace Clause

/-- Induction over a clause, with the hypothesis for all of its conditions. -/
@[induction_eliminator]
theorem induction {motive : Clause → Prop}
    (compare : ∀ column comparison, motive (.compare column comparison))
    (group : ∀ connective cs, (∀ c ∈ cs, motive c) → motive (.group connective cs))
    (on : ∀ table cs, (∀ c ∈ cs, motive c) → motive (.on table cs))
    (raw : ∀ expression, motive (.raw expression)) (c : Clause) : motive c :=
  @Clause.rec motive (fun cs => ∀ c ∈ cs, motive c) compare group on raw
    (fun _ h => nomatch h) (fun _ _ hc hcs => List.forall_mem_cons.2 ⟨hc, hcs⟩) c

variable {settings : Settings} {associations : List Association}

theorem compile_deferred {column other : String} {operator : Operator} :
    (compile settings associations (.compare column ⟨operator, .column other⟩)).outcome =
      .ok (.always settings) := by
  simp only [compile, Traced.outcome_bind, Traced.outcome_emit, Traced.outcome_pure]
  rfl

theorem compile_compare {column : String} {comparison : Comparison}
    (h : ∀ other, comparison.right ≠ .column other) :
    (compile settings associations (.compare column comparison)).outcome =
      (comparison.condition settings).map (Condition.toPredicate settings column) := by
  unfold compile
  split
  next other heq => exact absurd heq (h other)
  next =>
    rw [Traced.outcome_bind]
    cases comparison.condition settings with
    | error e => rfl
    | ok condition => rfl

theorem compile_group {connective : Connective} {cs : List Clause} :
    (compile settings associations (.group connective cs)).outcome =
      (compileList settings associations cs).outcome >>= Predicate.connect connective := by
  simp [compile, Traced.outcome_bind]

/-- The association is looked up before the conditions are compiled. -/
theorem compile_on {table : String} {cs : List Clause} :
    (compile settings associations (.on table cs)).outcome =
      findAssociation associations table >>= fun a =>
        (compileConjunction settings associations cs).outcome >>= fun query =>
          .ok (.join table query cs (a.relation.mapKey settings) (a.relation.joinKey settings)) := by
  simp only [compile, compileConjunction, Traced.outcome_bind, Traced.outcome_ofExcept,
    Traced.outcome_pure, Traced.outcome_emit]
  cases findAssociation associations table with
  | error e => rfl
  | ok a =>
    cases (compileList settings associations cs).outcome with
    | error e => rfl
    | ok ps => rfl

theorem compile_raw {expression : Expression} :
    (compile settings associations (.raw expression)).outcome = .ok (.raw expression) := by
  simp [compile]

@[simp] theorem compileList_nil :
    (compileList settings associations []).outcome = .ok [] := by
  simp [compileList]

theorem compileList_cons {c : Clause} {cs : List Clause} :
    (compileList settings associations (c :: cs)).outcome =
      (compile settings associations c).outcome >>= fun p =>
        (compileList settings associations cs).outcome >>= fun ps => .ok (p :: ps) := by
  simp [compileList, Traced.outcome_bind]

/-- Clauses compile one by one and in order. -/
theorem compileList_eq_ok {cs : List Clause} {ps : List Predicate} :
    (compileList settings associations cs).outcome = .ok ps ↔
      List.Forall₂ (fun c p => (compile settings associations c).outcome = .ok p) cs ps := by
  induction cs generalizing ps with
  | nil => simp [eq_comm]
  | cons c cs ih =>
    rw [compileList_cons, List.forall₂_cons_left_iff]
    cases (compile settings associations c).outcome with
    | error e => simp [bind, Except.bind]
    | ok p =>
      simp only [← ih]
      cases (compileList settings associations cs).outcome with
      | error e => simp [bind, Except.bind]
      | ok qs => simp [bind, Except.bind, eq_comm]

theorem compileConjunction_eq_ok {cs : List Clause} {query : Option Predicate} :
    (compileConjunction settings associations cs).outcome = .ok query ↔
      ∃ ps, (compileList settings associations cs).outcome = .ok ps ∧
        Predicate.conjunction? ps = query := by
  simp [compileConjunction, Traced.bind_eq_ok]

/-- Only the absence of conditions gives no predicate. -/
theorem isSome_of_compileConjunction {cs : List Clause} {query : Option Predicate}
    (h : (compileConjunction settings associations cs).outcome = .ok query) :
    query.isSome = !cs.isEmpty := by
  obtain ⟨ps, hps, rfl⟩ := compileConjunction_eq_ok.1 h
  have hlength := (compileList_eq_ok.1 hps).length_eq
  match cs, ps with
  | [], [] => rfl
  | [_], [_] => rfl
  | _ :: _ :: _, _ :: _ :: _ => rfl

/-! ## Induction over successful compilations -/

/-- Compiling a clause step by step keeps `motive`, a relation between a clause and its predicate:
    one field for each way to compile a clause. -/
structure Preserved (settings : Settings) (associations : List Association)
    (motive : Clause → Predicate → Prop) : Prop where
  deferred : ∀ column operator other,
    motive (.compare column ⟨operator, .column other⟩) (.always settings)
  compared : ∀ column comparison condition,
    (∀ other, comparison.right ≠ .column other) →
    comparison.condition settings = .ok condition →
    motive (.compare column comparison) (condition.toPredicate settings column)
  group : ∀ connective cs ps p,
    (compileList settings associations cs).outcome = .ok ps →
    List.Forall₂ motive cs ps → Predicate.connect connective ps = .ok p →
    motive (.group connective cs) p
  on : ∀ table cs ps association,
    findAssociation associations table = .ok association →
    (compileList settings associations cs).outcome = .ok ps →
    List.Forall₂ motive cs ps →
    motive (.on table cs) (.join table (Predicate.conjunction? ps) cs
      (association.relation.mapKey settings) (association.relation.joinKey settings))
  raw : ∀ expression, motive (.raw expression) (.raw expression)

variable {motive : Clause → Predicate → Prop}

/-- What every step keeps holds of every clause that compiles. -/
theorem compile_induction (step : Preserved settings associations motive) {c : Clause}
    {p : Predicate} (h : (compile settings associations c).outcome = .ok p) : motive c p := by
  -- The predicates of the sub-clauses are those that the sub-clauses compile to.
  have hlist : ∀ {cs : List Clause} {ps : List Predicate},
      (∀ c ∈ cs, ∀ {p}, (compile settings associations c).outcome = .ok p → motive c p) →
      (compileList settings associations cs).outcome = .ok ps → List.Forall₂ motive cs ps := by
    intro cs ps ih hps
    have hboth := (List.forall₂_and_left _ _).2 ⟨ih, compileList_eq_ok.1 hps⟩
    exact hboth.imp fun c p hcp => hcp.1 hcp.2
  induction c generalizing p with
  | compare column comparison =>
    by_cases hright : ∃ other, comparison.right = .column other
    · obtain ⟨other, hright⟩ := hright
      obtain ⟨operator, right⟩ := comparison
      subst hright
      rw [compile_deferred] at h
      cases h
      exact step.deferred column operator other
    · have hright : ∀ other, comparison.right ≠ .column other := not_exists.1 hright
      rw [compile_compare hright] at h
      cases hcondition : comparison.condition settings with
      | error e => simp [hcondition, Except.map] at h
      | ok condition =>
        simp only [hcondition, Except.map, Except.ok.injEq] at h
        subst h
        exact step.compared column comparison condition hright hcondition
  | group connective cs ih =>
    rw [compile_group] at h
    cases hps : (compileList settings associations cs).outcome with
    | error e => rw [hps] at h; cases h
    | ok ps =>
      rw [hps] at h
      exact step.group connective cs ps p hps (hlist ih hps) h
  | on table cs ih =>
    rw [compile_on] at h
    cases hassociation : findAssociation associations table with
    | error e => rw [hassociation] at h; cases h
    | ok association =>
      cases hquery : (compileConjunction settings associations cs).outcome with
      | error e => rw [hassociation, hquery] at h; cases h
      | ok query =>
        rw [hassociation, hquery] at h
        cases h
        obtain ⟨ps, hps, rfl⟩ := compileConjunction_eq_ok.1 hquery
        exact step.on table cs ps association hassociation hps (hlist ih hps)
  | raw expression =>
    rw [compile_raw] at h
    cases h
    exact step.raw expression

end Clause

/-! ## Queries -/

theorem Query.compile_unsupported {settings : Settings} {q : Query} {feature : Feature}
    (h : q.description.unsupported? = some feature) :
    (q.compile settings).outcome = .error (.unsupportedFeature feature) := by
  simp [Query.compile, h]

theorem Query.compile_supported {settings : Settings} {q : Query}
    (h : q.description.unsupported? = none) :
    (q.compile settings).outcome =
      (Clause.compileConjunction settings q.associations q.description.conditions).outcome.map
        fun query => { table := q.table, query, hasJoins := !q.description.joinTables.isEmpty } := by
  simp only [Query.compile, h, Traced.outcome_bind, Traced.outcome_emit, Traced.outcome_pure]
  cases (Clause.compileConjunction settings q.associations q.description.conditions).outcome with
  | error e => rfl
  | ok query => rfl

/-- What a query compiles to. -/
theorem Query.compile_eq_ok {settings : Settings} {q : Query} {compiled : CompiledQuery} :
    (q.compile settings).outcome = .ok compiled ↔
      q.description.unsupported? = none ∧
      ∃ query, (Clause.compileConjunction settings q.associations
          q.description.conditions).outcome = .ok query ∧
        compiled = { table := q.table, query, hasJoins := !q.description.joinTables.isEmpty } := by
  cases h : q.description.unsupported? with
  | some feature => simp [compile_unsupported h]
  | none =>
    rw [compile_supported h]
    cases (Clause.compileConjunction settings q.associations q.description.conditions).outcome with
    | error e => simp [Except.map]
    | ok query => simp [Except.map, eq_comm]

end DocQuery
