-- SUMMARY: The joins of a compiled query: which clauses they come from, what they carry, and which queries are flagged as having some.
import DocQuery.Proofs.Outcome

/-!
# Joins

A query asks for related records by `on` clauses, and its predicate does so by joins. Both are
listed in post-order here: what stands inside comes before what it stands in. The two lists agree
one for one, and each join carries the conditions of its clause beside the predicate that these
conditions compile to.

Whether a query is flagged as having joins is another matter: the flag follows the tables that the
query declares, and nothing compares those with its clauses.
-/

namespace DocQuery

/-- A join as it stands in a predicate. -/
structure Join where
  table : String
  query : Option Predicate
  conditions : List Clause
  mapKey : String
  joinKey : String

/-- The table and the conditions that a join was compiled from. -/
def Join.source (j : Join) : String × List Clause :=
  (j.table, j.conditions)

/-! ## Post-order -/

namespace Predicate

mutual

/-- The joins within a predicate, at any depth and in post-order. -/
def joins : Predicate → List Join
  | .field .. => []
  | .group _ ps => joinsList ps
  | .join table query conditions mapKey joinKey =>
    joinsOption query ++ [⟨table, query, conditions, mapKey, joinKey⟩]
  | .alwaysTrue _ => []
  | .raw _ => []

def joinsList : List Predicate → List Join
  | [] => []
  | p :: ps => joins p ++ joinsList ps

def joinsOption : Option Predicate → List Join
  | none => []
  | some p => joins p

end

/-- Leaving out the connective of a single predicate loses no join. -/
theorem joins_connect {connective : Connective} {ps : List Predicate} {p : Predicate}
    (h : connect connective ps = .ok p) : p.joins = joinsList ps := by
  rcases connect_eq_ok.1 h with rfl | ⟨_, rfl⟩
  · simp [joinsList]
  · rw [joins]

theorem joinsOption_conjunction? {ps : List Predicate} :
    joinsOption (conjunction? ps) = joinsList ps := by
  cases h : conjunction? ps with
  | none =>
    rw [conjunction?_eq_none] at h
    rw [h, joinsOption, joinsList]
  | some p =>
    rw [joinsOption]
    exact joins_connect (connect_and_eq_ok.2 h)

end Predicate

mutual

/-- The `on` clauses within a clause, at any depth and in post-order, each as its table and its
    conditions. -/
def Clause.ons : Clause → List (String × List Clause)
  | .compare .. => []
  | .group _ cs => onsList cs
  | .on table cs => onsList cs ++ [(table, cs)]
  | .raw _ => []

def Clause.onsList : List Clause → List (String × List Clause)
  | [] => []
  | c :: cs => c.ons ++ onsList cs

end

/-! ## Consistent joins -/

/-- The keys of a join over a relation: one side of it is the identity of a record. -/
def Join.HasKeys (j : Join) (settings : Settings) : Relation → Prop
  | .belongsTo key => j.mapKey = settings.identityColumn ∧ j.joinKey = key
  | .hasMany foreignKey => j.mapKey = foreignKey ∧ j.joinKey = settings.identityColumn

/-- What a join carries fits together, and fits the associations. -/
structure Join.Consistent (settings : Settings) (associations : List Association) (j : Join) :
    Prop where
  /-- There is one association with the table, and the keys are its keys. -/
  keys : ∃ a, associations.filter (fun a => a.target == j.table) = [a] ∧
    j.HasKeys settings a.relation
  /-- The predicate is what the conditions compile to. -/
  compiled : (Clause.compileConjunction settings associations j.conditions).outcome = .ok j.query
  absent : j.query = none ↔ j.conditions = []

private theorem Join.hasKeys_relation {settings : Settings} {table : String}
    {query : Option Predicate} {conditions : List Clause} (relation : Relation) :
    Join.HasKeys ⟨table, query, conditions, relation.mapKey settings, relation.joinKey settings⟩
      settings relation := by
  cases relation with
  | belongsTo key => exact ⟨rfl, rfl⟩
  | hasMany foreignKey => exact ⟨rfl, rfl⟩

variable {settings : Settings} {associations : List Association}

/-- The joins of a predicate are consistent and come from the `on` clauses of a clause. -/
def Clause.JoinsAgree (settings : Settings) (associations : List Association) (c : Clause)
    (p : Predicate) : Prop :=
  p.joins.map Join.source = c.ons ∧ ∀ j ∈ p.joins, j.Consistent settings associations

private theorem Clause.joinsAgree_list {cs : List Clause} {ps : List Predicate}
    (h : List.Forall₂ (JoinsAgree settings associations) cs ps) :
    (Predicate.joinsList ps).map Join.source = onsList cs ∧
      ∀ j ∈ Predicate.joinsList ps, j.Consistent settings associations := by
  induction h with
  | nil => simp [Predicate.joinsList, onsList]
  | @cons c p cs ps hcp _ ih =>
    obtain ⟨hsource, hconsistent⟩ := hcp
    obtain ⟨ihsource, ihconsistent⟩ := ih
    rw [Predicate.joinsList, onsList]
    constructor
    · rw [List.map_append, hsource, ihsource]
    · intro j hj
      rcases List.mem_append.1 hj with hj | hj
      · exact hconsistent j hj
      · exact ihconsistent j hj

private theorem Join.consistent_of_compile {table : String} {cs : List Clause} {ps : List Predicate}
    {a : Association} (ha : findAssociation associations table = .ok a)
    (hps : (Clause.compileList settings associations cs).outcome = .ok ps) :
    Join.Consistent settings associations
      ⟨table, Predicate.conjunction? ps, cs, a.relation.mapKey settings,
        a.relation.joinKey settings⟩ where
  keys := ⟨a, findAssociation_eq_ok.1 ha, Join.hasKeys_relation a.relation⟩
  compiled := Clause.compileConjunction_eq_ok.2 ⟨ps, hps, rfl⟩
  absent := by
    have hlength := (Clause.compileList_eq_ok.1 hps).length_eq
    rw [Predicate.conjunction?_eq_none, ← List.length_eq_zero_iff, ← hlength,
      List.length_eq_zero_iff]

private theorem Clause.preserved_joinsAgree :
    Preserved settings associations (JoinsAgree settings associations) where
  deferred column operator other := by simp [JoinsAgree, Predicate.always, Predicate.joins, ons]
  compared column comparison condition _ _ := by
    cases condition with
    | test t => simp [JoinsAgree, Condition.toPredicate, Predicate.joins, ons]
    | always =>
      simp [JoinsAgree, Condition.toPredicate, Predicate.always, Predicate.joins, ons]
  group connective cs ps p _ hagree hconnect := by
    rw [JoinsAgree, Predicate.joins_connect hconnect, ons]
    exact joinsAgree_list hagree
  on table cs ps a ha hps hagree := by
    obtain ⟨hsource, hconsistent⟩ := joinsAgree_list hagree
    rw [JoinsAgree, Predicate.joins, Predicate.joinsOption_conjunction?, ons]
    constructor
    · rw [List.map_append, hsource]
      rfl
    · -- The joins inside come first, the join itself is the last one.
      intro j hj
      rcases List.mem_append.1 hj with hj | hj
      · exact hconsistent j hj
      · rw [List.mem_singleton.1 hj]
        exact Join.consistent_of_compile ha hps
  raw expression := by simp [JoinsAgree, Predicate.joins, ons]

theorem Clause.joinsAgree_conjunction {cs : List Clause} {query : Option Predicate}
    (h : (compileConjunction settings associations cs).outcome = .ok query) :
    (Predicate.joinsOption query).map Join.source = onsList cs ∧
      ∀ j ∈ Predicate.joinsOption query, j.Consistent settings associations := by
  obtain ⟨ps, hps, rfl⟩ := compileConjunction_eq_ok.1 h
  rw [Predicate.joinsOption_conjunction?]
  refine joinsAgree_list ((compileList_eq_ok.1 hps).imp ?_)
  intro c p hcp
  exact compile_induction preserved_joinsAgree hcp

/-- Every join of a compiled query is consistent. In post-order, the joins come from the `on`
    clauses of the query one for one, with the tables and the conditions as they were given. -/
theorem Query.joins_consistent {settings : Settings} {q : Query} {compiled : CompiledQuery}
    (h : (q.compile settings).outcome = .ok compiled) :
    (∀ j ∈ Predicate.joinsOption compiled.query, j.Consistent settings q.associations) ∧
    (Predicate.joinsOption compiled.query).map Join.source =
      Clause.onsList q.description.conditions := by
  obtain ⟨_, query, hquery, rfl⟩ := Query.compile_eq_ok.1 h
  exact (Clause.joinsAgree_conjunction hquery).symm

/-- Tasks whose project is named, or belongs to some team. -/
def Sample.nested : Query where
  table := "tasks"
  description := {
    conditions := [.on "projects" [.group .or [
      .compare "name" ⟨.eq, .value (.text "new")⟩, .on "teams" []]]]
    joinTables := ["projects", "teams"] }
  associations := [⟨"teams", .hasMany "project_id"⟩, ⟨"projects", .belongsTo "project_id"⟩]

/-- The join with the teams stands inside the join with the projects and comes first. -/
theorem Query.joins_consistent_nested :
    ∃ compiled, (Sample.nested.compile {}).outcome = .ok compiled ∧
      (Predicate.joinsOption compiled.query).map Join.source =
        [("teams", []), ("projects", [.group .or [
          .compare "name" ⟨.eq, .value (.text "new")⟩, .on "teams" []]])] ∧
      ∀ j ∈ Predicate.joinsOption compiled.query,
        j.Consistent {} Sample.nested.associations := by
  refine ⟨_, rfl, ?_⟩
  obtain ⟨hconsistent, hsource⟩ := @Query.joins_consistent {} Sample.nested _ rfl
  exact ⟨hsource, hconsistent⟩

/-! ## The flag -/

/-- A predicate has a join exactly if the clauses that it was compiled from ask for one. -/
theorem Clause.joinsOption_eq_nil {cs : List Clause} {query : Option Predicate}
    (h : (compileConjunction settings associations cs).outcome = .ok query) :
    Predicate.joinsOption query = [] ↔ onsList cs = [] := by
  have hsource := (joinsAgree_conjunction h).1
  rw [← hsource, List.map_eq_nil_iff]

/-- Tasks that belong to some project. The table of projects is not declared. -/
def Sample.undeclared : Query where
  table := "tasks"
  description := { conditions := [.on "projects" []] }
  associations := [⟨"projects", .belongsTo "project_id"⟩]

/-- Not every query with a join is flagged as having one. -/
theorem Query.exists_join_without_flag :
    ¬ ∀ (settings : Settings) (q : Query) (compiled : CompiledQuery),
      (q.compile settings).outcome = .ok compiled →
      Predicate.joinsOption compiled.query ≠ [] → compiled.hasJoins = true := by
  intro hflag
  have hjoins := hflag {} Sample.undeclared _ rfl (List.cons_ne_nil _ _)
  cases hjoins

/-- The flag is set exactly for queries that declare a table. So a join goes without the flag
    exactly if the query asks for joins and declares no table at all, and never if the query
    declares every table that it joins. -/
theorem Query.hasJoins_iff_declared {settings : Settings} {q : Query} {compiled : CompiledQuery}
    (h : (q.compile settings).outcome = .ok compiled) :
    (compiled.hasJoins = true ↔ q.description.joinTables ≠ []) ∧
    (Predicate.joinsOption compiled.query ≠ [] ∧ compiled.hasJoins = false ↔
      Clause.onsList q.description.conditions ≠ [] ∧ q.description.joinTables = []) ∧
    ((∀ table conditions, (table, conditions) ∈ Clause.onsList q.description.conditions →
        table ∈ q.description.joinTables) →
      Predicate.joinsOption compiled.query ≠ [] → compiled.hasJoins = true) := by
  obtain ⟨_, query, hquery, rfl⟩ := Query.compile_eq_ok.1 h
  have hnil := not_congr (Clause.joinsOption_eq_nil hquery)
  have hflag : (!q.description.joinTables.isEmpty) = true ↔ q.description.joinTables ≠ [] := by
    simp
  refine ⟨hflag, ?_, ?_⟩
  · refine and_congr hnil ?_
    simp
  · intro hdeclared hjoins
    obtain ⟨⟨table, conditions⟩, hmem⟩ := List.exists_mem_of_ne_nil _ (hnil.1 hjoins)
    exact hflag.2 (List.ne_nil_of_mem (hdeclared table conditions hmem))

/-- Both joins of the nested sample are declared, and the flag is set. -/
theorem Query.hasJoins_iff_declared_nested :
    ∃ compiled, (Sample.nested.compile {}).outcome = .ok compiled ∧
      Predicate.joinsOption compiled.query ≠ [] ∧ compiled.hasJoins = true := by
  refine ⟨_, rfl, List.cons_ne_nil _ _, ?_⟩
  obtain ⟨_, _, hdeclared⟩ := @Query.hasJoins_iff_declared {} Sample.nested _ rfl
  refine hdeclared ?_ (List.cons_ne_nil _ _)
  intro table conditions hmem
  change (table, conditions) ∈ [("teams", _), ("projects", _)] at hmem
  simp only [List.mem_cons, Prod.mk.injEq, List.not_mem_nil, or_false] at hmem
  rcases hmem with ⟨rfl, _⟩ | ⟨rfl, _⟩
  · exact List.mem_cons_of_mem _ List.mem_cons_self
  · exact List.mem_cons_self

end DocQuery
