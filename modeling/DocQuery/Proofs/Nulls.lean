-- SUMMARY: Null under the operators of the query language: which tests reject it, and which operators are complements of one another.
import DocQuery.Proofs.Meaning
import DocQuery.Proofs.Shape

/-!
# Null

The tests of the engine may accept null where the query language does not: nothing is assumed here
of order, membership and regular expressions. The operators `lt`, `lte`, `notIn` and `notLike`
exclude null on their own, and on other values they are what they are called after.

From single tests this carries over to clauses. Clauses of such comparisons have no negation, so a
record that one of them accepts has values where the clause needs them
(`Clause.hasValues_of_holds`), and a record of nulls is accepted by none.
-/

namespace DocQuery

variable {Value : Type}

/-- What is relied on here: which operators negate which, and how null is told from other
    values. -/
structure Engine.Complementary (E : Engine Value) : Prop where
  ne_iff : ∀ v x, E.relate .ne v x ↔ ¬ E.relate .eq v x
  notAmong_iff : ∀ v xs, E.notAmong v xs ↔ ¬ E.among v xs
  eq_null_iff : ∀ v, E.relate .eq v .null ↔ v = E.null
  aeq_null_iff : ∀ v, E.relate .aeq v .null ↔ v = E.null

/-- What a record has in a column is null, or nothing. -/
def Engine.IsNull (E : Engine Value) (v : Option Value) : Prop :=
  v.getD E.null = E.null

/-- The comparisons with literals that null never satisfies, be the engine what it may. -/
def Comparison.excludesNull : Comparison → Bool
  | ⟨_, .column _⟩ => false
  | ⟨.lt, _⟩ => true
  | ⟨.lte, _⟩ => true
  | ⟨.notIn, _⟩ => true
  | ⟨.notLike, right⟩ => right.text?.isSome
  | _ => false

/-- Both comparisons compile to tests, and of the values in `D` one test accepts exactly those that
    the other one rejects. -/
def Comparison.Complements (E : Engine Value) (settings : Settings) (D : Option Value → Prop)
    (c d : Comparison) : Prop :=
  ∃ t u, c.condition settings = .ok (.test t) ∧ d.condition settings = .ok (.test u) ∧
    ∀ v, D v → (t.Holds E v ↔ ¬ u.Holds E v)

/-! ## Tests -/

section Tests

variable {E : Engine Value} {settings : Settings}

private theorem not_holds_notNull (hE : E.Complementary) {test : FieldTest} {v : Option Value}
    (hv : E.IsNull v) : ¬ test.notNull.Holds E v := by
  intro hholds
  exact ((holds_notNull hE.aeq_null_iff).1 hholds).2 hv

private theorem holds_notNull_of_value (hE : E.Complementary) {test : FieldTest} {v : Option Value}
    (hv : ¬ E.IsNull v) : test.notNull.Holds E v ↔ test.Holds E v := by
  rw [holds_notNull hE.aeq_null_iff]
  exact and_iff_left hv

/-- `notLike` excludes null in a spelling of its own, by strict equality. -/
theorem holds_notLike (hE : E.Complementary) {pattern : LikePattern} {v : Option Value} :
    (FieldTest.all [.not (.relate .eq .null), .not (.regex pattern)]).Holds E v ↔
      ¬ E.IsNull v ∧ ¬ (FieldTest.regex pattern).Holds E v := by
  simp [FieldTest.Holds, FieldTest.EveryHolds, hE.eq_null_iff, Engine.IsNull]

namespace Comparison

private theorem rejects_null (hE : E.Complementary) {c : Comparison} {condition : Condition}
    (hexcludes : c.excludesNull = true) (h : c.condition settings = .ok condition) :
    ∃ t, condition = .test t ∧ ∀ v, E.IsNull v → ¬ t.Holds E v := by
  obtain ⟨op, right⟩ := c
  cases right with
  | value x =>
    cases op
    case lt | lte =>
      cases h
      exact ⟨_, rfl, fun v => not_holds_notNull hE⟩
    case notLike =>
      cases x
      case text s =>
        cases h
        refine ⟨_, rfl, ?_⟩
        intro v hv hholds
        exact ((holds_notLike hE).1 hholds).1 hv
      case null | bool | int | float => cases hexcludes
    case notIn => cases h
    case eq | notEq | gt | weakGt | gte | oneOf | between | like => cases hexcludes
  | values xs =>
    cases op
    case notIn =>
      cases h
      exact ⟨_, rfl, fun v => not_holds_notNull hE⟩
    case lt | lte => cases h
    case eq | notEq | gt | weakGt | gte | oneOf | between | like | notLike => cases hexcludes
  | column other => cases hexcludes

private theorem complements_notIn (hE : E.Complementary) (xs : List Literal) :
    Complements E settings (fun v => ¬ E.IsNull v) ⟨.notIn, .values xs⟩ ⟨.oneOf, .values xs⟩ := by
  refine ⟨_, _, rfl, rfl, ?_⟩
  intro v hv
  rw [holds_notNull_of_value hE hv]
  simp only [FieldTest.Holds]
  exact hE.notAmong_iff _ xs

private theorem complements_notLike (hE : E.Complementary) (s : String) :
    Complements E settings (fun v => ¬ E.IsNull v) ⟨.notLike, .value (.text s)⟩
      ⟨.like, .value (.text s)⟩ := by
  refine ⟨_, _, rfl, rfl, ?_⟩
  intro v hv
  rw [holds_notLike hE]
  exact and_iff_right hv

/-- Texts are compared by the strict operators of the engine, other literals by the weak one and
    its negation. -/
theorem complements_notEq (hE : E.Complementary) (x : Literal) :
    Complements E settings (fun _ => True) ⟨.notEq, .value x⟩ ⟨.eq, .value x⟩ := by
  cases x with
  | text s =>
    refine ⟨_, _, rfl, rfl, ?_⟩
    intro v _
    simp only [FieldTest.Holds]
    exact hE.ne_iff _ (.text s)
  | null | bool | int | float =>
    refine ⟨_, _, rfl, rfl, ?_⟩
    intro v _
    simp only [FieldTest.Holds]

end Comparison

end Tests

/-! ## Clauses -/

/-- A comparison that null never satisfies. -/
def Clause.excludesNull : Clause → Bool
  | .compare _ comparison => comparison.excludesNull
  | _ => false

/-- Comparisons as asking for a value, whatever it is. -/
def valueReading (E : Engine Value) : Reading Value :=
  fun column _ r => ¬ E.IsNull (r column)

section Clauses

variable {E : Engine Value} {db : Database Value} {settings : Settings}
  {associations : List Association} {r : Record Value}

/-- A clause asks for less if its leaves do. -/
theorem Clause.Satisfied.of_leaves {reading reading' : Reading Value} {c : Clause}
    (hleaves : ∀ leaf ∈ c.leaves, leaf.Satisfied E db settings associations reading r →
      leaf.Satisfied E db settings associations reading' r)
    (h : c.Satisfied E db settings associations reading r) :
    c.Satisfied E db settings associations reading' r := by
  induction c with
  | compare column comparison => exact hleaves _ (List.mem_singleton_self _) h
  | group connective cs ih =>
    have hchild : ∀ c ∈ cs, c.Satisfied E db settings associations reading r →
        c.Satisfied E db settings associations reading' r := by
      intro c hc
      apply ih c hc
      intro leaf hleaf
      apply hleaves
      rw [leaves, mem_leavesList]
      exact ⟨c, hc, hleaf⟩
    cases connective with
    | and =>
      simp only [Satisfied, everySatisfied_iff] at h ⊢
      intro c hc
      exact hchild c hc (h c hc)
    | or =>
      simp only [Satisfied, someSatisfied_iff] at h ⊢
      obtain ⟨c, hc, hsat⟩ := h
      exact ⟨c, hc, hchild c hc hsat⟩
  | on table cs _ => exact hleaves _ (List.mem_singleton_self _) h
  | raw expression => exact hleaves _ (List.mem_singleton_self _) h

/-- No connective is empty, so a predicate holds of nothing unless one of its leaves does. -/
theorem Predicate.Normal.exists_leaf {p : Predicate} (hp : p.Normal settings)
    (h : p.Holds E db r) : ∃ leaf ∈ p.leaves, leaf.Holds E db r := by
  induction hp with
  | field column _ => exact ⟨_, List.mem_singleton_self _, h⟩
  | @group connective ps hlength _ ih =>
    have hchild : ∃ q ∈ ps, q.Holds E db r := by
      cases connective with
      | and =>
        simp only [Holds, everyHolds_iff] at h
        obtain ⟨q, hq⟩ := List.exists_mem_of_length_pos (Nat.lt_of_lt_of_le Nat.two_pos hlength)
        exact ⟨q, hq, h q hq⟩
      | or =>
        simp only [Holds, someHolds_iff] at h
        exact h
    obtain ⟨q, hq, hholds⟩ := hchild
    obtain ⟨leaf, hleaf, hholds⟩ := ih q hq hholds
    rw [leaves]
    exact ⟨leaf, mem_leavesList.2 ⟨q, hq, hleaf⟩, hholds⟩
  | join table conditions mapKey joinKey _ _ => exact ⟨_, List.mem_singleton_self _, h⟩
  | alwaysTrue => exact ⟨_, List.mem_singleton_self _, h⟩
  | raw expression => exact ⟨_, List.mem_singleton_self _, h⟩

namespace Clause

/-- A record that a predicate accepts has values where the comparisons need them. -/
theorem hasValues_of_holds (hE : E.Complementary) {c : Clause} {p : Predicate}
    (hexcludes : ∀ leaf ∈ c.leaves, leaf.excludesNull = true)
    (h : (compile settings associations c).outcome = .ok p) (hholds : p.Holds E db r) :
    c.Satisfied E db settings associations (valueReading E) r := by
  rw [holds_iff_satisfied h] at hholds
  apply hholds.of_leaves
  intro leaf hleaf hsat
  have hexcludes := hexcludes leaf hleaf
  cases leaf with
  | compare column comparison =>
    obtain ⟨op, right⟩ := comparison
    simp only [Satisfied, deferredReading, engineReading] at hsat
    split at hsat
    next => cases hexcludes
    next =>
      obtain ⟨condition, hcondition, htest⟩ := hsat
      obtain ⟨t, rfl, hrejects⟩ := Comparison.rejects_null hE hexcludes hcondition
      simp only [Condition.toPredicate, Predicate.Holds] at htest
      simp only [Satisfied, valueReading]
      intro hnull
      exact hrejects _ hnull htest
  | group | on | raw => cases hexcludes

/-- A record of nulls is accepted by no clause of comparisons that exclude null. -/
theorem not_holds_of_nulls (hE : E.Complementary) {c : Clause} {p : Predicate}
    (hexcludes : ∀ leaf ∈ c.leaves, leaf.excludesNull = true)
    (h : (compile settings associations c).outcome = .ok p)
    (hnull : ∀ column comparison, .compare column comparison ∈ c.leaves → E.IsNull (r column)) :
    ¬ p.Holds E db r := by
  intro hholds
  -- Some leaf of the predicate holds, and it comes from a comparison of the clause.
  obtain ⟨q, hq, hqholds⟩ := (compile_induction preserved_normal h).exists_leaf hholds
  obtain ⟨leaf, hleaf, hcompiled⟩ := exists_of_forall₂ (leavesAgree_of_compile h) hq
  have hleafExcludes := hexcludes leaf hleaf
  cases leaf with
  | compare column comparison =>
    have hleaves : ∀ c ∈ (compare column comparison).leaves, c.excludesNull = true :=
      List.forall_mem_singleton.2 hleafExcludes
    exact hasValues_of_holds hE hleaves hcompiled hqholds (hnull column comparison hleaf)
  | group | on | raw => cases hleafExcludes

end Clause

end Clauses

/-- Null is excluded, and apart from null operators that negate each other are complements. Clauses
    inherit the exclusion: a record is accepted only if it has values where the clause needs them,
    and not if it has nothing but nulls in the columns that are compared. -/
theorem Clause.null_excluded_and_complements {E : Engine Value} (hE : E.Complementary)
    (settings : Settings) :
    (∀ (c : Comparison) condition, c.excludesNull = true → c.condition settings = .ok condition →
      ∃ t, condition = .test t ∧ ∀ v, E.IsNull v → ¬ t.Holds E v) ∧
    (∀ x, ∃ t, (⟨.lt, .value x⟩ : Comparison).condition settings = .ok (.test t) ∧
      ∀ v, ¬ E.IsNull v → (t.Holds E v ↔ (FieldTest.relate .lt x).Holds E v)) ∧
    (∀ x, ∃ t, (⟨.lte, .value x⟩ : Comparison).condition settings = .ok (.test t) ∧
      ∀ v, ¬ E.IsNull v → (t.Holds E v ↔ (FieldTest.relate .lte x).Holds E v)) ∧
    (∀ xs, Comparison.Complements E settings (fun v => ¬ E.IsNull v)
      ⟨.notIn, .values xs⟩ ⟨.oneOf, .values xs⟩) ∧
    (∀ s, Comparison.Complements E settings (fun v => ¬ E.IsNull v)
      ⟨.notLike, .value (.text s)⟩ ⟨.like, .value (.text s)⟩) ∧
    (∀ x, Comparison.Complements E settings (fun _ => True) ⟨.notEq, .value x⟩ ⟨.eq, .value x⟩) ∧
    ∀ db associations (c : Clause) p, (∀ leaf ∈ c.leaves, leaf.excludesNull = true) →
      (compile settings associations c).outcome = .ok p → ∀ r,
      (p.Holds E db r → c.Satisfied E db settings associations (valueReading E) r) ∧
      ((∀ column comparison, .compare column comparison ∈ c.leaves → E.IsNull (r column)) →
        ¬ p.Holds E db r) := by
  refine ⟨fun c condition => Comparison.rejects_null hE, ?_, ?_, Comparison.complements_notIn hE,
    Comparison.complements_notLike hE, Comparison.complements_notEq hE, ?_⟩
  · intro x
    exact ⟨_, rfl, fun v => holds_notNull_of_value hE⟩
  · intro x
    exact ⟨_, rfl, fun v => holds_notNull_of_value hE⟩
  · intro db associations c p hexcludes h r
    exact ⟨hasValues_of_holds hE hexcludes h, not_holds_of_nulls hE hexcludes h⟩

theorem Engine.literals_complementary : Engine.literals.Complementary where
  ne_iff _ _ := Iff.rfl
  notAmong_iff _ _ := Iff.rfl
  eq_null_iff _ := Iff.rfl
  aeq_null_iff _ := Iff.rfl

/-- All four operators, one of them with null in its list. -/
def Sample.bounds : Clause :=
  .group .or [
    .group .and [.compare "score" ⟨.lt, .value (.int 5)⟩, .compare "rank" ⟨.lte, .value .null⟩],
    .group .and [.compare "title" ⟨.notLike, .value (.text "a%")⟩],
    .compare "kind" ⟨.notIn, .values [.text "task", .null]⟩]

/-- In the engine over literals null is less than any number, but a task with null for its score
    and nothing in the other columns is not accepted. -/
theorem Clause.null_excluded_and_complements_bounds :
    (FieldTest.relate .lt (.int 5)).Holds Engine.literals (some .null) ∧
    (∃ t, (⟨.lt, .value (.int 5)⟩ : Comparison).condition {} = .ok (.test t) ∧
      ¬ t.Holds Engine.literals (some .null)) ∧
    ∃ p, (compile {} [] Sample.bounds).outcome = .ok p ∧
      ¬ p.Holds Engine.literals Sample.database (.ofList [("score", .null)]) := by
  obtain ⟨hnull, _, _, _, _, _, hclauses⟩ :=
    Clause.null_excluded_and_complements Engine.literals_complementary {}
  refine ⟨?_, ?_, _, rfl, ?_⟩
  · simp [FieldTest.Holds, Engine.literals, Literal.Before]
  · obtain ⟨t, ht, hrejects⟩ := hnull ⟨.lt, .value (.int 5)⟩ _ rfl rfl
    cases ht
    exact ⟨_, rfl, hrejects _ rfl⟩
  · refine (hclauses Sample.database [] Sample.bounds _ ?_ rfl _).2 ?_
    · decide
    · intro column comparison _
      simp only [Engine.IsNull, Record.ofList, List.lookup_cons, List.lookup_nil]
      split
      · rfl
      · rfl

end DocQuery
