-- SUMMARY: The shape of compiled predicates: no needless connective, and the leaves of the clauses one by one in their order.
import DocQuery.Proofs.Joins

/-!
# The shape of compiled predicates

Connectives of a single predicate are left out, at the root, inside of connectives and inside of
joins, so a predicate is no image of its clauses, node for node. What stays is the sequence of
leaves, from left to right: `Clause.leaves` and `Predicate.leaves` agree one by one. A join is a
leaf, and the predicate that it carries has the same shape with respect to its own conditions.
-/

namespace DocQuery

/-! ## Leaves -/

namespace Predicate

mutual

/-- What a predicate connects, from left to right. Joins are not entered. -/
def leaves : Predicate → List Predicate
  | .group _ ps => leavesList ps
  | p => [p]

def leavesList : List Predicate → List Predicate
  | [] => []
  | p :: ps => leaves p ++ leavesList ps

end

def leavesOption : Option Predicate → List Predicate
  | none => []
  | some p => p.leaves

/-- Leaving out the connective of a single predicate moves no leaf. -/
theorem leaves_connect {connective : Connective} {ps : List Predicate} {p : Predicate}
    (h : connect connective ps = .ok p) : p.leaves = leavesList ps := by
  rcases connect_eq_ok.1 h with rfl | ⟨_, rfl⟩
  · simp [leavesList]
  · rw [leaves]

private theorem leavesOption_conjunction? {ps : List Predicate} :
    leavesOption (conjunction? ps) = leavesList ps := by
  cases h : conjunction? ps with
  | none =>
    rw [conjunction?_eq_none] at h
    rw [h, leavesOption, leavesList]
  | some p =>
    rw [leavesOption]
    exact leaves_connect (connect_and_eq_ok.2 h)

theorem mem_leavesList {leaf : Predicate} {ps : List Predicate} :
    leaf ∈ leavesList ps ↔ ∃ p ∈ ps, leaf ∈ p.leaves := by
  induction ps with
  | nil => simp [leavesList]
  | cons p ps ih => simp [leavesList, ih]

end Predicate

mutual

/-- What a clause connects, from left to right: comparisons, expressions and `on` clauses, which
    are not entered. -/
def Clause.leaves : Clause → List Clause
  | .group _ cs => leavesList cs
  | c => [c]

def Clause.leavesList : List Clause → List Clause
  | [] => []
  | c :: cs => c.leaves ++ leavesList cs

end

theorem Clause.mem_leavesList {leaf : Clause} {cs : List Clause} :
    leaf ∈ leavesList cs ↔ ∃ c ∈ cs, leaf ∈ c.leaves := by
  induction cs with
  | nil => simp [leavesList]
  | cons c cs ih => simp [leavesList, ih]

/-! ## Normal predicates -/

mutual

/-- Whether a test asks, at any depth, if its column is there. -/
def FieldTest.asksPresence : FieldTest → Bool
  | .present _ => true
  | .not test => test.asksPresence
  | .all tests => anyAsksPresence tests
  | _ => false

def FieldTest.anyAsksPresence : List FieldTest → Bool
  | [] => false
  | t :: ts => t.asksPresence || anyAsksPresence ts

end

/-- A predicate without needless connectives, inside of joins too. Only always-true nodes ask for
    the presence of a column, of the one that the settings name. -/
inductive Predicate.Normal (settings : Settings) : Predicate → Prop where
  | field (column : String) {test : FieldTest} :
    test.asksPresence = false → Normal settings (.field column test)
  | group (connective : Connective) {ps : List Predicate} :
    2 ≤ ps.length → (∀ p ∈ ps, Normal settings p) → Normal settings (.group connective ps)
  | join (table : String) {query : Option Predicate} (conditions : List Clause)
      (mapKey joinKey : String) :
    (∀ p, query = some p → Normal settings p) →
    Normal settings (.join table query conditions mapKey joinKey)
  | alwaysTrue : Normal settings (.alwaysTrue settings.alwaysTrueColumn)
  | raw (expression : Expression) : Normal settings (.raw expression)

variable {settings : Settings} {associations : List Association}

private theorem Predicate.normal_of_connect {connective : Connective} {ps : List Predicate}
    {p : Predicate} (h : ∀ p ∈ ps, p.Normal settings) (hconnect : connect connective ps = .ok p) :
    p.Normal settings := by
  obtain rfl | ⟨hlength, rfl⟩ := connect_eq_ok.1 hconnect
  · exact h p List.mem_cons_self
  · exact .group connective hlength h

private theorem Predicate.normal_of_conjunction? {ps : List Predicate}
    (h : ∀ p ∈ ps, p.Normal settings) :
    ∀ p, conjunction? ps = some p → p.Normal settings := by
  intro p hp
  exact normal_of_connect h (connect_and_eq_ok.2 hp)

/-- No operator of the query language asks for the presence of a column. -/
theorem Comparison.asksPresence_of_condition {c : Comparison} {t : FieldTest}
    (h : c.condition settings = .ok (.test t)) : t.asksPresence = false := by
  obtain ⟨op, right⟩ := c
  cases right with
  | value v =>
    cases op
    case oneOf | notIn | between => cases h
    case gt | weakGt | gte | lt | lte => cases h; rfl
    case eq | notEq | like | notLike => cases v <;> cases h <;> rfl
  | values vs =>
    cases op
    case oneOf | notIn => cases h; rfl
    case between =>
      match vs, h with
      | [low, high], h => cases h; rfl
    case eq | notEq | gt | weakGt | gte | lt | lte | like | notLike => cases h
  | column other => cases op <;> cases h

namespace Clause

private theorem normal_list {cs : List Clause} {ps : List Predicate}
    (h : List.Forall₂ (fun _ p => p.Normal settings) cs ps) : ∀ p ∈ ps, p.Normal settings := by
  intro p hp
  obtain ⟨_, _, hnormal⟩ := exists_of_forall₂ h hp
  exact hnormal

theorem preserved_normal : Preserved settings associations fun _ p => p.Normal settings where
  deferred column operator other := .alwaysTrue
  compared column comparison condition _ hcondition := by
    cases condition with
    | test t => exact .field column (Comparison.asksPresence_of_condition hcondition)
    | always => exact .alwaysTrue
  group connective cs ps p _ hps hconnect :=
    Predicate.normal_of_connect (normal_list hps) hconnect
  on table cs ps association _ _ hps :=
    .join table cs _ _ (Predicate.normal_of_conjunction? (normal_list hps))
  raw expression := .raw expression

/-! ## Leaf by leaf -/

/-- The leaves of a predicate are what the leaves of a clause compile to. -/
def LeavesAgree (settings : Settings) (associations : List Association) (c : Clause)
    (p : Predicate) : Prop :=
  List.Forall₂ (fun c p => (compile settings associations c).outcome = .ok p) c.leaves p.leaves

private theorem leavesAgree_list {cs : List Clause} {ps : List Predicate}
    (h : List.Forall₂ (LeavesAgree settings associations) cs ps) :
    List.Forall₂ (fun c p => (compile settings associations c).outcome = .ok p)
      (leavesList cs) (Predicate.leavesList ps) := by
  induction h with
  | nil => exact .nil
  | cons hcp _ ih =>
    rw [leavesList, Predicate.leavesList]
    exact List.rel_append hcp ih

/-- A clause that is a leaf compiles to a predicate that is one. -/
theorem preserved_leavesAgree :
    Preserved settings associations fun c p =>
      (compile settings associations c).outcome = .ok p →
        LeavesAgree settings associations c p where
  deferred column operator other h := .cons h .nil
  compared column comparison condition _ _ h := by
    cases condition with
    | test t => exact .cons h .nil
    | always => exact .cons h .nil
  group connective cs ps p hcompiled hps hconnect _ := by
    have hagree := (compileList_eq_ok.1 hcompiled).mp (fun _ _ hcp hagree => hagree hcp) hps
    rw [LeavesAgree, Predicate.leaves_connect hconnect, leaves]
    exact leavesAgree_list hagree
  on table cs ps association _ _ _ h := .cons h .nil
  raw expression h := .cons h .nil

theorem leavesAgree_of_compile {c : Clause} {p : Predicate}
    (h : (compile settings associations c).outcome = .ok p) :
    LeavesAgree settings associations c p :=
  compile_induction preserved_leavesAgree h h

/-- Nothing of the conditions is lost, doubled or moved in a predicate, and nothing needless is in
    it. -/
structure Shapes (settings : Settings) (associations : List Association) (cs : List Clause)
    (query : Option Predicate) : Prop where
  absent : query = none ↔ cs = []
  normal : ∀ p, query = some p → p.Normal settings
  leaves : List.Forall₂ (fun c p => (compile settings associations c).outcome = .ok p)
    (leavesList cs) (Predicate.leavesOption query)

private theorem shapes_of_compileConjunction {cs : List Clause} {query : Option Predicate}
    (h : (compileConjunction settings associations cs).outcome = .ok query) :
    Shapes settings associations cs query := by
  have hsome := isSome_of_compileConjunction h
  obtain ⟨ps, hps, rfl⟩ := compileConjunction_eq_ok.1 h
  have hcompiled := compileList_eq_ok.1 hps
  refine ⟨?_, ?_, ?_⟩
  · rw [← Option.isNone_iff_eq_none, ← Option.not_isSome, hsome, Bool.not_not, List.isEmpty_iff]
  · exact Predicate.normal_of_conjunction?
      (normal_list (hcompiled.imp fun _ _ => compile_induction preserved_normal))
  · rw [Predicate.leavesOption_conjunction?]
    exact leavesAgree_list (hcompiled.imp fun _ _ => leavesAgree_of_compile)

end Clause

/-- A compiled query has the shape of its conditions, and so has every join in it with respect to
    the conditions that it carries. -/
theorem Query.shapes_of_compile {q : Query} {compiled : CompiledQuery}
    (h : (q.compile settings).outcome = .ok compiled) :
    Clause.Shapes settings q.associations q.description.conditions compiled.query ∧
    ∀ j ∈ Predicate.joinsOption compiled.query,
      Clause.Shapes settings q.associations j.conditions j.query := by
  obtain ⟨_, query, hquery, rfl⟩ := Query.compile_eq_ok.1 h
  refine ⟨Clause.shapes_of_compileConjunction hquery, ?_⟩
  intro j hj
  exact Clause.shapes_of_compileConjunction
    ((Clause.joinsAgree_conjunction hquery).2 j hj).compiled

/-- Connectives of one clause at the root, inside of a connective and inside of a join. -/
def Sample.needless : Query where
  table := "tasks"
  description := { conditions := [
    .group .and [.group .or [.compare "title" ⟨.like, .value .null⟩]],
    .group .or [.compare "size" ⟨.lt, .value (.int 3)⟩,
      .group .and [.on "projects" [.group .or [.compare "name" ⟨.eq, .value (.text "new")⟩]]]]] }
  associations := [⟨"projects", .belongsTo "project_id"⟩]

/-- Three leaves are left, and inside of the join as many as in its conditions. -/
theorem Query.shapes_of_compile_needless :
    ∃ compiled, (Sample.needless.compile {}).outcome = .ok compiled ∧
      Clause.Shapes {} Sample.needless.associations Sample.needless.description.conditions
        compiled.query ∧
      (Predicate.leavesOption compiled.query).length = 3 ∧
      ∀ j ∈ Predicate.joinsOption compiled.query,
        (Predicate.leavesOption j.query).length = (Clause.leavesList j.conditions).length := by
  refine ⟨_, rfl, ?_⟩
  obtain ⟨hshapes, hjoins⟩ := @Query.shapes_of_compile {} Sample.needless _ rfl
  exact ⟨hshapes, hshapes.leaves.length_eq.symm, fun j hj => (hjoins j hj).leaves.length_eq.symm⟩

end DocQuery
