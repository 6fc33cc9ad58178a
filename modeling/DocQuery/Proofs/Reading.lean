-- SUMMARY: Reading clauses on the records of a database, and the reading that compiled predicates carry out.
import DocQuery.Proofs.Engine

/-!
# Readings of clauses

A clause is read on a record without compiling it: connectives are boolean, and `on` asks for a
record of the other table that is related by a declared association. What a single comparison asks
of a record is a parameter, the `Reading`.

`Clause.holds_iff_satisfied` ties this to compilation. A compiled predicate holds where its clause
is satisfied, if a comparison is read as the condition that it compiles to and a comparison of two
columns as the always-true node.
-/

namespace DocQuery

variable {Value : Type}

/-- What the comparison of a column asks of a record. -/
abbrev Reading (Value : Type) : Type := String → Comparison → Record Value → Prop

/-- A record here and a record of the other table belong together. -/
def Relation.Relates (E : Engine Value) (settings : Settings) :
    Relation → Record Value → Record Value → Prop
  | .belongsTo key, r, related => E.read related settings.identityColumn = E.read r key
  | .hasMany foreignKey, r, related => E.read related foreignKey = E.read r settings.identityColumn

theorem Relation.relates_iff {E : Engine Value} {settings : Settings} {relation : Relation}
    {r related : Record Value} :
    relation.Relates E settings r related ↔
      E.read related (relation.mapKey settings) = E.read r (relation.joinKey settings) := by
  cases relation with
  | belongsTo key => rfl
  | hasMany foreignKey => rfl

namespace Clause

/-! ## Satisfaction -/

section Satisfied

variable (E : Engine Value) (db : Database Value) (settings : Settings)
  (associations : List Association) (reading : Reading Value)

mutual

/-- A record satisfies a clause. -/
def Satisfied : Clause → Record Value → Prop
  | .compare column comparison, r => reading column comparison r
  | .group .and cs, r => EverySatisfied cs r
  | .group .or cs, r => SomeSatisfied cs r
  | .on table cs, r =>
    ∃ association ∈ associations, association.target = table ∧
      ∃ related ∈ db table,
        association.relation.Relates E settings r related ∧ EverySatisfied cs related
  | .raw expression, r => E.raw expression r

def EverySatisfied : List Clause → Record Value → Prop
  | [], _ => True
  | c :: cs, r => Satisfied c r ∧ EverySatisfied cs r

def SomeSatisfied : List Clause → Record Value → Prop
  | [], _ => False
  | c :: cs, r => Satisfied c r ∨ SomeSatisfied cs r

end

end Satisfied

variable {E : Engine Value} {db : Database Value} {settings : Settings}
  {associations : List Association} {reading reading' : Reading Value}

theorem everySatisfied_iff {cs : List Clause} {r : Record Value} :
    EverySatisfied E db settings associations reading cs r ↔
      ∀ c ∈ cs, c.Satisfied E db settings associations reading r := by
  induction cs with
  | nil => simp [EverySatisfied]
  | cons c cs ih => simp [EverySatisfied, ih]

theorem someSatisfied_iff {cs : List Clause} {r : Record Value} :
    SomeSatisfied E db settings associations reading cs r ↔
      ∃ c ∈ cs, c.Satisfied E db settings associations reading r := by
  induction cs with
  | nil => simp [SomeSatisfied]
  | cons c cs ih => simp [SomeSatisfied, ih]

/-- Clauses have no negation: if comparisons ask for less, so does every clause. It is enough that
    they do on the records at hand, which `S` delimits. -/
theorem Satisfied.mono {S : Record Value → Prop} (hdb : ∀ table, ∀ r ∈ db table, S r)
    (hreading : ∀ column comparison r, S r →
      reading column comparison r → reading' column comparison r)
    {c : Clause} {r : Record Value} (hr : S r)
    (h : c.Satisfied E db settings associations reading r) :
    c.Satisfied E db settings associations reading' r := by
  induction c generalizing r with
  | compare column comparison =>
    simp only [Satisfied] at h ⊢
    exact hreading column comparison r hr h
  | group connective cs ih =>
    cases connective with
    | and =>
      simp only [Satisfied, everySatisfied_iff] at h ⊢
      intro c hc
      exact ih c hc hr (h c hc)
    | or =>
      simp only [Satisfied, someSatisfied_iff] at h ⊢
      obtain ⟨c, hc, hsat⟩ := h
      exact ⟨c, hc, ih c hc hr hsat⟩
  | on table cs ih =>
    simp only [Satisfied, everySatisfied_iff] at h ⊢
    obtain ⟨association, hmem, htarget, related, hrelated, hrelates, hsat⟩ := h
    refine ⟨association, hmem, htarget, related, hrelated, hrelates, ?_⟩
    intro c hc
    exact ih c hc (hdb table related hrelated) (hsat c hc)
  | raw expression =>
    simpa only [Satisfied] using h

end Clause

/-! ## The reading of compiled predicates -/

/-- Comparisons as the engine carries them out: a comparison with literals is the condition that
    it compiles to. What becomes of a comparison of two columns is left open. -/
def engineReading (E : Engine Value) (db : Database Value) (settings : Settings)
    (columns : String → Operator → String → Record Value → Prop) : Reading Value :=
  fun column comparison r =>
    match comparison.right with
    | .column other => columns column comparison.operator other r
    | _ => ∃ condition, comparison.condition settings = .ok condition ∧
      (condition.toPredicate settings column).Holds E db r

/-- A deferred comparison is left out: its place is taken by the always-true node. -/
def deferredReading (E : Engine Value) (db : Database Value) (settings : Settings) :
    Reading Value :=
  engineReading E db settings fun _ _ _ r => (Predicate.always settings).Holds E db r

namespace Clause

variable {E : Engine Value} {db : Database Value} {settings : Settings}
  {associations : List Association} {cs : List Clause} {ps : List Predicate}

private theorem forall_holds_iff {r : Record Value} {P : Clause → Prop}
    (h : List.Forall₂ (fun c p => Predicate.Holds E db p r ↔ P c) cs ps) :
    (∀ p ∈ ps, p.Holds E db r) ↔ ∀ c ∈ cs, P c := by
  induction h with
  | nil => simp
  | cons hcp _ ih => simp [hcp, ih]

private theorem exists_holds_iff {r : Record Value} {P : Clause → Prop}
    (h : List.Forall₂ (fun c p => Predicate.Holds E db p r ↔ P c) cs ps) :
    (∃ p ∈ ps, p.Holds E db r) ↔ ∃ c ∈ cs, P c := by
  induction h with
  | nil => simp
  | cons hcp _ ih => simp [hcp, ih]

/-- The join for an association asks for a related record. -/
private theorem holds_join_iff {table : String} {association : Association} {r : Record Value}
    {P : Record Value → Prop} (hfound : findAssociation associations table = .ok association)
    (hquery : ∀ related, Predicate.Accepts E db (Predicate.conjunction? ps) related ↔ P related) :
    (Predicate.join table (Predicate.conjunction? ps) cs (association.relation.mapKey settings)
        (association.relation.joinKey settings)).Holds E db r ↔
      ∃ association ∈ associations, association.target = table ∧
        ∃ related ∈ db table, association.relation.Relates E settings r related ∧ P related := by
  have hmem : ∀ a, a ∈ associations ∧ a.target = table ↔ a = association :=
    fun _ => mem_of_findAssociation hfound
  simp only [Predicate.Holds, hquery, ← Relation.relates_iff]
  constructor
  · rintro ⟨related, hrelated, hP, hrelates⟩
    obtain ⟨hin, htarget⟩ := (hmem association).2 rfl
    exact ⟨association, hin, htarget, related, hrelated, hrelates, hP⟩
  · rintro ⟨a, hin, htarget, related, hrelated, hrelates, hP⟩
    obtain rfl := (hmem a).1 ⟨hin, htarget⟩
    exact ⟨related, hrelated, hP, hrelates⟩

/-- One step of compilation keeps the meaning, whatever the record. -/
theorem preserved_holds_iff_satisfied :
    Preserved settings associations fun c p => ∀ r,
      p.Holds E db r ↔
        c.Satisfied E db settings associations (deferredReading E db settings) r where
  deferred column operator other r := by
    simp [Satisfied, deferredReading, engineReading]
  compared column comparison condition hright hcondition r := by
    simp only [Satisfied, deferredReading, engineReading]
    simp [hcondition]
  group connective cs ps p _ hps hconnect r := by
    have hr := hps.imp fun c p h => h r
    rw [Predicate.holds_connect hconnect]
    cases connective with
    | and =>
      simp only [Predicate.Holds, Predicate.everyHolds_iff, Satisfied, everySatisfied_iff]
      exact forall_holds_iff hr
    | or =>
      simp only [Predicate.Holds, Predicate.someHolds_iff, Satisfied, someSatisfied_iff]
      exact exists_holds_iff hr
  on table cs ps association hfound _ hps r := by
    simp only [Satisfied, everySatisfied_iff]
    refine holds_join_iff hfound fun related => ?_
    rw [Predicate.accepts_conjunction?]
    exact forall_holds_iff (hps.imp fun c p h => h related)
  raw expression r := by
    simp [Predicate.Holds, Satisfied]

/-- A compiled predicate holds exactly where its clause is satisfied, up to deferred
    comparisons. -/
theorem holds_iff_satisfied {c : Clause} {p : Predicate}
    (h : (compile settings associations c).outcome = .ok p) (r : Record Value) :
    p.Holds E db r ↔
      c.Satisfied E db settings associations (deferredReading E db settings) r :=
  compile_induction preserved_holds_iff_satisfied h r

theorem accepts_iff_satisfied {query : Option Predicate}
    (h : (compileConjunction settings associations cs).outcome = .ok query) (r : Record Value) :
    Predicate.Accepts E db query r ↔
      ∀ c ∈ cs, c.Satisfied E db settings associations (deferredReading E db settings) r := by
  obtain ⟨ps, hps, rfl⟩ := compileConjunction_eq_ok.1 h
  rw [Predicate.accepts_conjunction?]
  exact forall_holds_iff ((compileList_eq_ok.1 hps).imp fun c p hcp => holds_iff_satisfied hcp r)

end Clause

/-! ## A sample -/

namespace Sample

def associations : List Association :=
  [⟨"projects", .belongsTo "project_id"⟩]

/-- Tasks with a low score or of a project that is not called `old`, and with the start behind
    the stop. -/
def conditions : List Clause :=
  [.group .or [.compare "score" ⟨.lt, .value (.int 5)⟩,
      .on "projects" [.compare "name" ⟨.notEq, .value (.text "old")⟩]],
    .compare "title" ⟨.like, .value .null⟩,
    .compare "start" ⟨.gt, .column "stop"⟩]

/-- What the conditions compile to. -/
def predicate : Predicate :=
  .group .and
    [.group .or [.field "score" (.all [.relate .lt (.int 5), .not (.relate .aeq .null)]),
      .join "projects" (some (.field "name" (.relate .ne (.text "old"))))
        [.compare "name" ⟨.notEq, .value (.text "old")⟩] "id" "project_id"],
    .alwaysTrue "_fakeAlwaysTrue", .alwaysTrue "_fakeAlwaysTrue"]

theorem compileConjunction_conditions :
    (Clause.compileConjunction {} associations conditions).outcome = .ok (some predicate) := rfl

end Sample

end DocQuery
