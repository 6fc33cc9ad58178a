-- SUMMARY: What the settings decide: three kinds of places in a compiled query, and neither its form nor whether it compiles.
import DocQuery.Proofs.Outcome

/-!
# What the settings decide

The settings are handed through all of compilation. They reach a compiled query in three kinds of
places: the column of an always-true node, the case of a regular expression, and the identity of a
record on one side of a join. `withSettings` puts other settings into these places and leaves
everything else as it is.

Compiling under other settings is compiling and then replacing (`Clause.compile_withSettings`), so
two compilations of a query differ in these places only and fail together.
-/

namespace DocQuery

/-! ## Other settings in a compiled query -/

mutual

def FieldTest.withSettings (settings : Settings) : FieldTest → FieldTest
  | .regex pattern => .regex { pattern with caseInsensitive := settings.caseInsensitiveLike }
  | .not test => .not (test.withSettings settings)
  | .all tests => .all (listWithSettings settings tests)
  | test => test

def FieldTest.listWithSettings (settings : Settings) : List FieldTest → List FieldTest
  | [] => []
  | t :: ts => t.withSettings settings :: listWithSettings settings ts

end

def Condition.withSettings (settings : Settings) : Condition → Condition
  | .test t => .test (t.withSettings settings)
  | .always => .always

/-- The keys of a join with a table. The association tells on which side the identity of a record
    stands: over there if a record here names one there, and here if one there names it. -/
def keysWithSettings (settings : Settings) (associations : List Association) (table : String)
    (mapKey joinKey : String) : String × String :=
  match (associations.find? fun a => a.target == table).map Association.relation with
  | some (.belongsTo _) => (settings.identityColumn, joinKey)
  | some (.hasMany _) => (mapKey, settings.identityColumn)
  | none => (mapKey, joinKey)

namespace Predicate

variable (settings : Settings) (associations : List Association)

mutual

/-- The predicate with what other settings decide, inside of joins too. -/
def withSettings : Predicate → Predicate
  | .field column test => .field column (test.withSettings settings)
  | .group connective ps => .group connective (listWithSettings ps)
  | .join table query conditions mapKey joinKey =>
    let keys := keysWithSettings settings associations table mapKey joinKey
    .join table (optionWithSettings query) conditions keys.1 keys.2
  | .alwaysTrue _ => .alwaysTrue settings.alwaysTrueColumn
  | .raw expression => .raw expression

def listWithSettings : List Predicate → List Predicate
  | [] => []
  | p :: ps => withSettings p :: listWithSettings ps

def optionWithSettings : Option Predicate → Option Predicate
  | none => none
  | some p => some (withSettings p)

end

end Predicate

def CompiledQuery.withSettings (settings : Settings) (associations : List Association)
    (compiled : CompiledQuery) : CompiledQuery :=
  { compiled with query := Predicate.optionWithSettings settings associations compiled.query }

/-- Settings that say nothing. -/
def Settings.blank : Settings where
  identityColumn := ""
  alwaysTrueColumn := ""
  caseInsensitiveLike := false

/-- The compiled query without what the settings decide. -/
def CompiledQuery.erase (associations : List Association) (compiled : CompiledQuery) :
    CompiledQuery :=
  compiled.withSettings .blank associations

/-! ## Compiling under other settings -/

section Compile

variable (settings settings' : Settings) {associations : List Association}

private theorem Comparison.condition_withSettings (c : Comparison) :
    c.condition settings' = (c.condition settings).map (Condition.withSettings settings') := by
  obtain ⟨op, right⟩ := c
  cases right with
  | value v =>
    cases op
    case eq | notEq | like | notLike => cases v <;> rfl
    case gt | weakGt | gte | lt | lte | oneOf | notIn | between => rfl
  | values vs =>
    cases op
    case between =>
      match vs with
      | [low, high] => rfl
      | [] | [_] | _ :: _ :: _ :: _ => rfl
    case eq | notEq | gt | weakGt | gte | lt | lte | oneOf | notIn | like | notLike => rfl
  | column other => cases op <;> rfl

private theorem Condition.toPredicate_withSettings (column : String) (condition : Condition) :
    (condition.withSettings settings').toPredicate settings' column =
      (condition.toPredicate settings column).withSettings settings' associations := by
  cases condition with
  | test t => rfl
  | always => rfl

private theorem Predicate.connect_withSettings (connective : Connective) (ps : List Predicate) :
    connect connective (listWithSettings settings' associations ps) =
      (connect connective ps).map (withSettings settings' associations) := by
  match ps with
  | [] => rfl
  | [p] => rfl
  | p :: q :: ps => rfl

private theorem Predicate.conjunction?_withSettings (ps : List Predicate) :
    conjunction? (listWithSettings settings' associations ps) =
      optionWithSettings settings' associations (conjunction? ps) := by
  match ps with
  | [] => rfl
  | [p] => rfl
  | p :: q :: ps => rfl

/-- The association that a join was compiled with tells the side of the identity. -/
private theorem keysWithSettings_of_findAssociation {table : String} {a : Association}
    (h : findAssociation associations table = .ok a) :
    keysWithSettings settings' associations table (a.relation.mapKey settings)
        (a.relation.joinKey settings) =
      (a.relation.mapKey settings', a.relation.joinKey settings') := by
  rw [keysWithSettings, ← List.head?_filter, findAssociation_eq_ok.1 h]
  obtain ⟨target, relation⟩ := a
  cases relation with
  | belongsTo key => rfl
  | hasMany foreignKey => rfl

namespace Clause

private theorem compileList_withSettings {cs : List Clause}
    (h : ∀ c ∈ cs, (compile settings' associations c).outcome =
      (compile settings associations c).outcome.map
        (Predicate.withSettings settings' associations)) :
    (compileList settings' associations cs).outcome =
      (compileList settings associations cs).outcome.map
        (Predicate.listWithSettings settings' associations) := by
  induction cs with
  | nil => rw [compileList_nil, compileList_nil]; rfl
  | cons c cs ih =>
    obtain ⟨hc, hcs⟩ := List.forall_mem_cons.1 h
    rw [compileList_cons, compileList_cons, hc, ih hcs]
    cases (compile settings associations c).outcome with
    | error e => rfl
    | ok p =>
      cases (compileList settings associations cs).outcome with
      | error e => rfl
      | ok ps => rfl

private theorem compileConjunction_withSettings {cs : List Clause}
    (h : (compileList settings' associations cs).outcome =
      (compileList settings associations cs).outcome.map
        (Predicate.listWithSettings settings' associations)) :
    (compileConjunction settings' associations cs).outcome =
      (compileConjunction settings associations cs).outcome.map
        (Predicate.optionWithSettings settings' associations) := by
  simp only [compileConjunction, Traced.outcome_bind, Traced.outcome_pure, h]
  cases (compileList settings associations cs).outcome with
  | error e => rfl
  | ok ps => exact congrArg Except.ok (Predicate.conjunction?_withSettings settings' ps)

/-- Compiling a clause under other settings. -/
theorem compile_withSettings (c : Clause) :
    (compile settings' associations c).outcome =
      (compile settings associations c).outcome.map
        (Predicate.withSettings settings' associations) := by
  induction c with
  | compare column comparison =>
    by_cases hright : ∃ other, comparison.right = .column other
    · obtain ⟨other, hright⟩ := hright
      obtain ⟨operator, right⟩ := comparison
      subst hright
      rw [compile_deferred, compile_deferred]
      rfl
    · have hright : ∀ other, comparison.right ≠ .column other := not_exists.1 hright
      rw [compile_compare hright, compile_compare hright,
        Comparison.condition_withSettings settings settings']
      cases comparison.condition settings with
      | error e => rfl
      | ok condition =>
        exact congrArg Except.ok
          (Condition.toPredicate_withSettings settings settings' column condition)
  | group connective cs ih =>
    rw [compile_group, compile_group, compileList_withSettings settings settings' ih]
    cases (compileList settings associations cs).outcome with
    | error e => rfl
    | ok ps => exact Predicate.connect_withSettings settings' connective ps
  | on table cs ih =>
    have hquery := compileConjunction_withSettings settings settings'
      (compileList_withSettings settings settings' ih)
    rw [compile_on, compile_on, hquery]
    cases ha : findAssociation associations table with
    | error e => rfl
    | ok a =>
      cases (compileConjunction settings associations cs).outcome with
      | error e => rfl
      | ok query =>
        have hkeys := keysWithSettings_of_findAssociation settings settings' ha
        change Except.ok (Predicate.join table _ cs _ _) = .ok (Predicate.join table _ cs _ _)
        rw [hkeys]
  | raw expression =>
    rw [compile_raw, compile_raw]
    rfl

end Clause

/-- Compiling a query under other settings. -/
theorem Query.compile_withSettings (q : Query) :
    (q.compile settings').outcome =
      (q.compile settings).outcome.map (CompiledQuery.withSettings settings' q.associations) := by
  cases hunsupported : q.description.unsupported? with
  | some feature =>
    rw [compile_unsupported hunsupported, compile_unsupported hunsupported]
    rfl
  | none =>
    rw [compile_supported hunsupported, compile_supported hunsupported,
      Clause.compileConjunction_withSettings settings settings'
        (Clause.compileList_withSettings settings settings' fun c _ =>
          Clause.compile_withSettings settings settings' c)]
    cases (Clause.compileConjunction settings q.associations q.description.conditions).outcome with
    | error e => rfl
    | ok query => rfl

end Compile

/-- The settings decide nothing but their own places. A query fails under all settings or under
    none, and with the same error. Compiled queries are equal without what the settings decide,
    and the settings alone give that back. -/
theorem Query.settings_decide_places (q : Query) (settings settings' : Settings) :
    (∀ e, (q.compile settings).outcome = .error e ↔ (q.compile settings').outcome = .error e) ∧
    (∀ compiled compiled', (q.compile settings).outcome = .ok compiled →
      (q.compile settings').outcome = .ok compiled' →
      compiled.erase q.associations = compiled'.erase q.associations) ∧
    ∀ compiled, (q.compile settings).outcome = .ok compiled →
      (compiled.erase q.associations).withSettings settings q.associations = compiled := by
  -- Erasing is compiling under blank settings.
  have herase : ∀ {settings compiled}, (q.compile settings).outcome = .ok compiled →
      (q.compile .blank).outcome = .ok (compiled.erase q.associations) := by
    intro settings compiled h
    rw [compile_withSettings settings .blank, h]
    rfl
  refine ⟨?_, ?_, ?_⟩
  · intro e
    rw [compile_withSettings settings settings']
    cases (q.compile settings).outcome with
    | error e' => rfl
    | ok compiled => simp [Except.map]
  · intro compiled compiled' h h'
    exact Except.ok.inj ((herase h).symm.trans (herase h'))
  · intro compiled h
    have hblank := compile_withSettings .blank settings q
    rw [herase h, h] at hblank
    exact (Except.ok.inj hblank).symm

/-- Tasks by the name of their project, or by its teams, of which two columns are compared. -/
def Sample.configurable : Query where
  table := "tasks"
  description := {
    conditions := [.on "projects" [.group .or [
      .compare "name" ⟨.notLike, .value (.text "a%")⟩,
      .on "teams" [.compare "start" ⟨.lt, .column "stop"⟩]]]]
    joinTables := ["projects", "teams"] }
  associations := [⟨"teams", .hasMany "project_id"⟩, ⟨"projects", .belongsTo "project_id"⟩]

/-- Settings that have nothing in common with the default. -/
def Sample.settings : Settings where
  identityColumn := "key"
  alwaysTrueColumn := "none"
  caseInsensitiveLike := true

/-- All three kinds of places are decided differently, and nothing else is. -/
theorem Query.settings_decide_places_sample :
    ∃ compiled compiled', (Sample.configurable.compile {}).outcome = .ok compiled ∧
      (Sample.configurable.compile Sample.settings).outcome = .ok compiled' ∧
      compiled ≠ compiled' ∧
      compiled.erase Sample.configurable.associations =
        compiled'.erase Sample.configurable.associations ∧
      (compiled.erase Sample.configurable.associations).withSettings {}
        Sample.configurable.associations = compiled := by
  obtain ⟨_, herase, hrestore⟩ := settings_decide_places Sample.configurable {} Sample.settings
  refine ⟨_, _, rfl, rfl, ?_, herase _ _ rfl rfl, hrestore _ rfl⟩
  intro h
  cases h

end DocQuery
