-- SUMMARY: The document engine as an interpretation: what field tests and predicates mean on the records of a database.
import DocQuery.Proofs.Like
import DocQuery.Proofs.Outcome

/-!
# The engine

An `Engine` says what the atomic operators of the document engine accept, and nothing is assumed
of them here. Connectives are read as such, and a join asks for a related record. The values that
records hold are a type of their own: the engine compares them with literals, and the query
language never looks at them.
-/

namespace DocQuery

variable {Value : Type}

/-- A record: the values of the columns that it carries. -/
abbrev Record (Value : Type) : Type := String → Option Value

/-- The records of each table. -/
abbrev Database (Value : Type) : Type := String → List (Record Value)

/-- An interpretation of the operators of the engine. -/
structure Engine (Value : Type) where
  null : Value
  relate : Relator → Value → Literal → Prop
  among : Value → List Literal → Prop
  notAmong : Value → List Literal → Prop
  between : Value → Literal → Literal → Prop
  regex : Value → LikePattern → Prop
  /-- Whether a column is there. The column may be absent. -/
  present : Option Value → Bool → Prop
  /-- An expression passed through unread. -/
  raw : Expression → Record Value → Prop

/-- The value of a column. An absent column reads as null. -/
def Engine.read (E : Engine Value) (r : Record Value) (column : String) : Value :=
  (r column).getD E.null

/-! ## Field tests -/

namespace FieldTest

mutual

/-- The test accepts what a record has in the tested column. -/
def Holds (E : Engine Value) : FieldTest → Option Value → Prop
  | .relate relator x, v => E.relate relator (v.getD E.null) x
  | .among xs, v => E.among (v.getD E.null) xs
  | .notAmong xs, v => E.notAmong (v.getD E.null) xs
  | .between low high, v => E.between (v.getD E.null) low high
  | .regex pattern, v => E.regex (v.getD E.null) pattern
  | .present expected, v => E.present v expected
  | .not test, v => ¬ Holds E test v
  | .all tests, v => EveryHolds E tests v

def EveryHolds (E : Engine Value) : List FieldTest → Option Value → Prop
  | [], _ => True
  | t :: ts, v => Holds E t v ∧ EveryHolds E ts v

end

end FieldTest

/-! ## Predicates -/

namespace Predicate

variable (E : Engine Value) (db : Database Value)

mutual

/-- The predicate accepts a record. An always-true node is the test that it is rendered as: its
    column is absent. -/
def Holds : Predicate → Record Value → Prop
  | .field column test, r => test.Holds E (r column)
  | .group .and ps, r => EveryHolds ps r
  | .group .or ps, r => SomeHolds ps r
  | .join table query _ mapKey joinKey, r =>
    ∃ related ∈ db table, Accepts query related ∧ E.read related mapKey = E.read r joinKey
  | .alwaysTrue column, r => (FieldTest.present false).Holds E (r column)
  | .raw expression, r => E.raw expression r

def EveryHolds : List Predicate → Record Value → Prop
  | [], _ => True
  | p :: ps, r => Holds p r ∧ EveryHolds ps r

def SomeHolds : List Predicate → Record Value → Prop
  | [], _ => False
  | p :: ps, r => Holds p r ∨ SomeHolds ps r

/-- Without a predicate every record is accepted. -/
def Accepts : Option Predicate → Record Value → Prop
  | none, _ => True
  | some p, r => Holds p r

end

variable {E : Engine Value} {db : Database Value} {r : Record Value}

theorem everyHolds_iff {ps : List Predicate} :
    EveryHolds E db ps r ↔ ∀ p ∈ ps, p.Holds E db r := by
  induction ps with
  | nil => simp [EveryHolds]
  | cons p ps ih => simp [EveryHolds, ih]

theorem someHolds_iff {ps : List Predicate} :
    SomeHolds E db ps r ↔ ∃ p ∈ ps, p.Holds E db r := by
  induction ps with
  | nil => simp [SomeHolds]
  | cons p ps ih => simp [SomeHolds, ih]

/-- Leaving out the connective of a single predicate changes nothing. -/
theorem holds_connect {connective : Connective} {ps : List Predicate} {p : Predicate}
    (h : connect connective ps = .ok p) :
    p.Holds E db r ↔ (Predicate.group connective ps).Holds E db r := by
  rcases connect_eq_ok.1 h with rfl | ⟨_, rfl⟩
  · cases connective with
    | and => simp [Holds, EveryHolds]
    | or => simp [Holds, SomeHolds]
  · rfl

theorem accepts_conjunction? {ps : List Predicate} :
    Accepts E db (conjunction? ps) r ↔ ∀ p ∈ ps, p.Holds E db r := by
  cases h : conjunction? ps with
  | none =>
    rw [conjunction?_eq_none] at h
    simp [h, Accepts]
  | some p =>
    rcases conjunction?_eq_some.1 h with rfl | ⟨_, rfl⟩
    · simp [Accepts]
    · simp only [Accepts, Holds]
      exact everyHolds_iff

end Predicate

/-! ## An engine over literals -/

/-- Null comes before every other literal. Beyond that only whole numbers are in order. -/
def Literal.Before : Literal → Literal → Prop
  | .null, x => x ≠ .null
  | .int a, .int b => a < b
  | _, _ => False

/-- An engine for records that hold literals. Nothing is passed through to it. -/
def Engine.literals : Engine Literal where
  null := .null
  relate
    | .aeq, v, x => v = x
    | .eq, v, x => v = x
    | .ne, v, x => v ≠ x
    | .gt, v, x => x.Before v
    | .gte, v, x => x.Before v ∨ v = x
    | .lt, v, x => v.Before x
    | .lte, v, x => v.Before x ∨ v = x
  among v xs := v ∈ xs
  notAmong v xs := v ∉ xs
  between v low high := (low.Before v ∨ v = low) ∧ (v.Before high ∨ v = high)
  regex v pattern := ∃ s items, v = .text s ∧ Regex.read pattern.source.toList = some items ∧
    Regex.Matches (.ofFlags (· = '\n') (fun c d => c.toLower = d.toLower) pattern.flags) items
      s.toList
  present v expected := v.isSome = expected
  raw _ _ := False

/-- A record with the given columns. -/
def Record.ofList (columns : List (String × Value)) : Record Value :=
  fun column => columns.lookup column

/-- A database of tasks, each of which belongs to a project. -/
def Sample.database : Database Literal
  | "projects" => [.ofList [("id", .int 7), ("name", .text "new")]]
  | "tasks" => [.ofList [("project_id", .int 7), ("start", .int 3), ("stop", .int 1)],
    .ofList [("project_id", .int 7), ("start", .int 1), ("stop", .int 3)],
    .ofList [("project_id", .int 8)]]
  | _ => []

theorem Sample.database_lacks_column (table : String) :
    ∀ r ∈ Sample.database table, r "_fakeAlwaysTrue" = none := by
  intro r hr
  unfold Sample.database at hr
  split at hr
  · simp only [List.mem_singleton] at hr
    subst hr
    rfl
  · simp only [List.mem_cons, List.not_mem_nil, or_false] at hr
    rcases hr with rfl | rfl | rfl <;> rfl
  · cases hr

end DocQuery
