-- SUMMARY: What associations and declared tables decide: an association the joins with its own table, the declared tables a flag and nothing else.
import DocQuery.Proofs.Joins

/-!
# What associations and declared tables decide

Every `on` clause looks its table up in one list of associations, which is handed through all of
compilation. Two lists that say the same about the joined tables (`SameWith`) compile alike, so
neither the order of the list nor an association with any other table matters. The declared tables
reach a compiled query in one place, its flag.
-/

namespace DocQuery

/-! ## Looking up an association -/

/-- Two lists say the same about a table: they have as many associations with it, and the same
    relation if they have one. -/
structure SameWith (associations associations' : List Association) (table : String) : Prop where
  count : associations.countP (fun a => a.target == table) =
    associations'.countP (fun a => a.target == table)
  relation : associations.countP (fun a => a.target == table) = 1 →
    ∀ a ∈ associations, ∀ a' ∈ associations', a.target = table → a'.target = table →
      a.relation = a'.relation

/-- The order of the associations with a table does not matter. -/
theorem SameWith.of_perm_filter {associations associations' : List Association} {table : String}
    (h : (associations.filter fun a => a.target == table).Perm
      (associations'.filter fun a => a.target == table)) :
    SameWith associations associations' table where
  count := by
    simp only [List.countP_eq_length_filter]
    exact h.length_eq
  relation := by
    intro hone a ha a' ha' htarget htarget'
    rw [List.countP_eq_length_filter, List.length_eq_one_iff] at hone
    obtain ⟨b, hb⟩ := hone
    have hmem : a ∈ associations.filter fun a => a.target == table := by
      simp [ha, htarget]
    have hmem' : a' ∈ associations.filter fun a => a.target == table := by
      apply h.mem_iff.2
      simp [ha', htarget']
    rw [hb, List.mem_singleton] at hmem hmem'
    rw [hmem, hmem']

private theorem findAssociation_congr {associations associations' : List Association}
    {table : String} (h : SameWith associations associations' table) :
    findAssociation associations table = findAssociation associations' table := by
  have hcount := h.count
  have hrelation := h.relation
  have hmem : ∀ a, a ∈ associations.filter (fun a => a.target == table) →
      a ∈ associations ∧ a.target = table := by simp
  have hmem' : ∀ a, a ∈ associations'.filter (fun a => a.target == table) →
      a ∈ associations' ∧ a.target = table := by simp
  simp only [List.countP_eq_length_filter] at hcount hrelation
  unfold findAssociation
  generalize associations.filter (fun a => a.target == table) = found at *
  generalize associations'.filter (fun a => a.target == table) = found' at *
  match found, found', hcount with
  | [], [], _ => rfl
  | [a], [a'], _ =>
    obtain ⟨ha, htarget⟩ := hmem a List.mem_cons_self
    obtain ⟨ha', htarget'⟩ := hmem' a' List.mem_cons_self
    have heq := hrelation rfl a ha a' ha' htarget htarget'
    cases a
    cases a'
    simp_all
  | _ :: _ :: _, _ :: _ :: _, hcount =>
    simp only [List.length_cons, Nat.add_right_cancel_iff] at hcount
    simp only [List.length_cons, hcount]

/-! ## Clauses -/

namespace Clause

private theorem mem_onsList {cs : List Clause} {source : String × List Clause} :
    source ∈ onsList cs ↔ ∃ c ∈ cs, source ∈ c.ons := by
  induction cs with
  | nil => simp [onsList]
  | cons c cs ih => simp [onsList, ih]

variable {settings : Settings} {associations associations' : List Association}

private theorem compileList_congr {cs : List Clause}
    (h : ∀ c ∈ cs, compile settings associations c = compile settings associations' c) :
    compileList settings associations cs = compileList settings associations' cs := by
  induction cs with
  | nil => rw [compileList, compileList]
  | cons c cs ih =>
    obtain ⟨hc, hcs⟩ := List.forall_mem_cons.1 h
    rw [compileList, compileList, hc, ih hcs]

/-- Compiling a clause, at any depth, looks up nothing but the tables of its `on` clauses. -/
theorem compile_congr {c : Clause}
    (h : ∀ table conditions, (table, conditions) ∈ c.ons →
      findAssociation associations table = findAssociation associations' table) :
    compile settings associations c = compile settings associations' c := by
  induction c with
  | compare column comparison => rw [compile, compile]
  | group connective cs ih =>
    have hcs := compileList_congr fun c hc => ih c hc fun table conditions hon =>
      h table conditions (by rw [ons]; exact mem_onsList.2 ⟨c, hc, hon⟩)
    rw [compile, compile, hcs]
  | on table cs ih =>
    have hcs := compileList_congr fun c hc => ih c hc fun table' conditions hon =>
      h table' conditions (by
        rw [ons]
        exact List.mem_append_left _ (mem_onsList.2 ⟨c, hc, hon⟩))
    have htable := h table cs (by
      rw [ons]
      exact List.mem_append_right _ List.mem_cons_self)
    rw [compile, compile, hcs, htable]
  | raw expression => rw [compile, compile]

private theorem compileConjunction_congr {cs : List Clause}
    (h : ∀ table conditions, (table, conditions) ∈ onsList cs →
      SameWith associations associations' table) :
    compileConjunction settings associations cs = compileConjunction settings associations' cs := by
  have hcs : compileList settings associations cs = compileList settings associations' cs := by
    apply compileList_congr
    intro c hc
    apply compile_congr
    intro table conditions hon
    exact findAssociation_congr (h table conditions (mem_onsList.2 ⟨c, hc, hon⟩))
  rw [compileConjunction, compileConjunction, hcs]

end Clause

/-! ## Queries -/

namespace Query

/-- The query with other associations. -/
def withAssociations (q : Query) (associations : List Association) : Query :=
  { q with associations }

/-- The query with other tables declared to take part in joins. -/
def withJoinTables (q : Query) (joinTables : List String) : Query :=
  { q with description := { q.description with joinTables } }

/-- Compiling with associations that say the same about the joined tables leaves the same trace and
    ends the same way. -/
theorem compile_withAssociations {settings : Settings} {q : Query}
    {associations associations' : List Association}
    (h : ∀ table conditions, (table, conditions) ∈ Clause.onsList q.description.conditions →
      SameWith associations associations' table) :
    (q.withAssociations associations).compile settings =
      (q.withAssociations associations').compile settings := by
  have hconditions := @Clause.compileConjunction_congr settings _ _ _ h
  simp only [compile, withAssociations, hconditions]

/-- Declaring other tables sets the flag and does nothing else. -/
theorem compile_withJoinTables (settings : Settings) (q : Query) (joinTables : List String) :
    ((q.withJoinTables joinTables).compile settings).outcome =
      (q.compile settings).outcome.map fun compiled =>
        { compiled with hasJoins := !joinTables.isEmpty } := by
  have hsame : (q.withJoinTables joinTables).description.unsupported? =
      q.description.unsupported? := rfl
  cases hunsupported : q.description.unsupported? with
  | some feature =>
    rw [compile_unsupported (hsame.trans hunsupported), compile_unsupported hunsupported]
    rfl
  | none =>
    rw [compile_supported (hsame.trans hunsupported), compile_supported hunsupported]
    change Except.map _ (Clause.compileConjunction settings q.associations
      q.description.conditions).outcome = _
    cases (Clause.compileConjunction settings q.associations q.description.conditions).outcome with
    | error e => rfl
    | ok query => rfl

/-- Associations matter for the tables that a query joins and for no others, and only by what they
    say about them: their order does not matter. Declared tables matter for the flag of a compiled
    query and for nothing else. -/
theorem only_joined_tables_matter (settings : Settings) (q : Query) :
    (∀ associations associations',
      (∀ table conditions, (table, conditions) ∈ Clause.onsList q.description.conditions →
        SameWith associations associations' table) →
      (q.withAssociations associations).compile settings =
        (q.withAssociations associations').compile settings) ∧
    (∀ associations associations', associations.Perm associations' →
      (q.withAssociations associations).compile settings =
        (q.withAssociations associations').compile settings) ∧
    (∀ before others after,
      (∀ a ∈ others, ∀ conditions,
        (a.target, conditions) ∉ Clause.onsList q.description.conditions) →
      (q.withAssociations (before ++ others ++ after)).compile settings =
        (q.withAssociations (before ++ after)).compile settings) ∧
    ∀ joinTables joinTables',
      (∀ e, ((q.withJoinTables joinTables).compile settings).outcome = .error e ↔
        ((q.withJoinTables joinTables').compile settings).outcome = .error e) ∧
      ∀ compiled compiled',
        ((q.withJoinTables joinTables).compile settings).outcome = .ok compiled →
        ((q.withJoinTables joinTables').compile settings).outcome = .ok compiled' →
        compiled.table = compiled'.table ∧ compiled.query = compiled'.query ∧
        (compiled.hasJoins = true ↔ joinTables ≠ []) ∧
        (compiled'.hasJoins = true ↔ joinTables' ≠ []) := by
  refine ⟨?_, ?_, ?_, ?_⟩
  · intro associations associations' h
    exact compile_withAssociations h
  · intro associations associations' hperm
    apply compile_withAssociations
    intro table _ _
    exact .of_perm_filter (hperm.filter _)
  · intro before others after hothers
    apply compile_withAssociations
    intro table conditions hon
    have hnone : others.filter (fun a => a.target == table) = [] := by
      apply List.filter_eq_nil_iff.2
      intro a ha htarget
      exact hothers a ha conditions (by rwa [beq_iff_eq.1 htarget])
    apply SameWith.of_perm_filter
    simp only [List.filter_append, hnone, List.append_nil]
    exact List.Perm.refl _
  · intro joinTables joinTables'
    rw [compile_withJoinTables, compile_withJoinTables]
    cases (q.compile settings).outcome with
    | error e => simp [Except.map]
    | ok compiled =>
      simp only [Except.map, Except.ok.injEq, reduceCtorEq, implies_true, true_and]
      rintro _ _ rfl rfl
      simp

/-- The associations of the nested sample the other way round, with one that it has no use for. -/
def Sample.rearranged : List Association :=
  [⟨"users", .belongsTo "user_id"⟩, ⟨"projects", .belongsTo "project_id"⟩,
    ⟨"teams", .hasMany "project_id"⟩]

theorem only_joined_tables_matter_nested :
    (∀ table conditions, (table, conditions) ∈ Clause.onsList Sample.nested.description.conditions →
      SameWith Sample.nested.associations Sample.rearranged table) ∧
    Sample.nested.compile {} = (Sample.nested.withAssociations Sample.rearranged).compile {} ∧
    ∃ compiled compiled', (Sample.nested.compile {}).outcome = .ok compiled ∧
      ((Sample.nested.withJoinTables []).compile {}).outcome = .ok compiled' ∧
      compiled.query = compiled'.query ∧ compiled.hasJoins = true ∧ compiled'.hasJoins ≠ true := by
  obtain ⟨hassociations, _, _, hjoinTables⟩ := only_joined_tables_matter {} Sample.nested
  have hsame : ∀ table conditions,
      (table, conditions) ∈ Clause.onsList Sample.nested.description.conditions →
      SameWith Sample.nested.associations Sample.rearranged table := by
    intro table conditions hon
    change (table, conditions) ∈ [("teams", _), ("projects", _)] at hon
    simp only [List.mem_cons, Prod.mk.injEq, List.not_mem_nil, or_false] at hon
    rcases hon with ⟨rfl, _⟩ | ⟨rfl, _⟩
    · exact .of_perm_filter (by decide)
    · exact .of_perm_filter (by decide)
  obtain ⟨_, hcompiled⟩ := hjoinTables Sample.nested.description.joinTables []
  obtain ⟨_, hquery, hset, hunset⟩ := hcompiled _ _ rfl rfl
  refine ⟨hsame, hassociations _ _ hsame, _, _, rfl, rfl, hquery, ?_, ?_⟩
  · exact hset.2 (List.cons_ne_nil _ _)
  · exact fun hjoins => hunset.1 hjoins rfl

end Query

end DocQuery
