-- SUMMARY: Equality with a text: compiled to the strict operators of the engine in place of the weak ones, and the values for which that makes a difference.
import DocQuery.Decode.Query
import DocQuery.Proofs.Engine

/-!
# Equality with a text

The operator table compiles `eq` and `notEq` to the weak equality of the engine, which converts
between types. Comparisons with a text take the strict one instead, as it can use an index. That is
the same among texts. But records have no schema, and a number in a record may equal a text that
spells it. On such a number the strict and the weak operators differ, and on no other (nor on a
truth value, unless the engine takes one for a text as well).
-/

namespace DocQuery

def Literal.isNumber : Literal → Bool
  | .int _ => true
  | .float _ => true
  | _ => false

/-- The equalities of an engine, of the values in records with a text. Strict equality asks for the
    same text. Weak equality does not hold of null, asks texts to be the same, and numbers to be the
    ones that the text spells. Nothing is assumed of truth values. -/
structure Engine.Coercing (E : Engine Literal) (Spells : String → Literal → Prop) : Prop where
  null : E.null = .null
  eq_text_iff : ∀ v s, E.relate .eq v (.text s) ↔ v = .text s
  ne_text_iff : ∀ v s, E.relate .ne v (.text s) ↔ ¬ E.relate .eq v (.text s)
  not_aeq_null : ∀ s, ¬ E.relate .aeq .null (.text s)
  aeq_text_iff : ∀ t s, E.relate .aeq (.text t) (.text s) ↔ t = s
  aeq_number_iff : ∀ v s, v.isNumber = true → (E.relate .aeq v (.text s) ↔ Spells s v)

/-- The operators that compare for equality. -/
inductive Operator.Equates : Operator → Prop where
  | eq : Equates .eq
  | notEq : Equates .notEq

/-- A comparison compiles to a test that accepts what the test from the operator table accepts. -/
def Comparison.FollowsTable (E : Engine Literal) (settings : Settings) (c : Comparison)
    (v : Option Literal) : Prop :=
  ∃ t u, c.condition settings = .ok (.test t) ∧
    c.operator.condition settings c.right = .ok (.test u) ∧ (t.Holds E v ↔ u.Holds E v)

section Text

variable {E : Engine Literal} {Spells : String → Literal → Prop} {settings : Settings}

/-- Against a text a comparison follows the table where both equalities say the same. -/
theorem Comparison.followsTable_iff (hE : E.Coercing Spells) {op : Operator} (hop : op.Equates)
    (s : String) (v : Option Literal) :
    FollowsTable E settings ⟨op, .value (.text s)⟩ v ↔
      (v.getD .null = .text s ↔ E.relate .aeq (v.getD .null) (.text s)) := by
  cases hop with
  | eq =>
    constructor
    · rintro ⟨_, _, ⟨rfl⟩, ⟨rfl⟩, hsame⟩
      simpa only [FieldTest.Holds, hE.null, hE.eq_text_iff] using hsame
    · intro hsame
      refine ⟨_, _, rfl, rfl, ?_⟩
      simpa only [FieldTest.Holds, hE.null, hE.eq_text_iff] using hsame
  | notEq =>
    constructor
    · rintro ⟨_, _, ⟨rfl⟩, ⟨rfl⟩, hsame⟩
      simpa only [FieldTest.Holds, hE.null, hE.ne_text_iff, hE.eq_text_iff, not_iff_not] using hsame
    · intro hsame
      refine ⟨_, _, rfl, rfl, ?_⟩
      simpa only [FieldTest.Holds, hE.null, hE.ne_text_iff, hE.eq_text_iff, not_iff_not] using hsame

/-- The equalities differ on the numbers that the text spells, and on the truth values that the
    engine takes for it. -/
theorem Engine.Coercing.equalities_agree_iff (hE : E.Coercing Spells) (s : String) (v : Literal) :
    (v = .text s ↔ E.relate .aeq v (.text s)) ↔
      ¬ (v.isNumber = true ∧ Spells s v) ∧ ∀ b, v = .bool b → ¬ E.relate .aeq v (.text s) := by
  cases v with
  | null => simp [hE.not_aeq_null, Literal.isNumber]
  | bool b => simp [Literal.isNumber]
  | int n =>
    have hspells : E.relate .aeq (.int n) (.text s) ↔ Spells s (.int n) := hE.aeq_number_iff _ s rfl
    simp [hspells, Literal.isNumber]
  | float x =>
    have hspells : E.relate .aeq (.float x) (.text s) ↔ Spells s (.float x) :=
      hE.aeq_number_iff _ s rfl
    simp [hspells, Literal.isNumber]
  | text t => simp [hE.aeq_text_iff, Literal.isNumber]

end Text

/-! ## An engine that converts -/

/-- The text spells the number as JSON does. -/
def Literal.SpelledBy (s : String) (v : Literal) : Prop :=
  v.isNumber = true ∧ decode Literal.read s = .ok v

/-- The engine over literals, with a weak equality that converts between numbers and texts. -/
def Engine.converting : Engine Literal :=
  { Engine.literals with
    relate := fun relator v x =>
      match relator with
      | .aeq => v = x ∨ ∃ s, x = .text s ∧ v.SpelledBy s
      | relator => Engine.literals.relate relator v x }

theorem Engine.converting_coercing :
    Engine.converting.Coercing fun s v => v.SpelledBy s where
  null := rfl
  eq_text_iff _ _ := Iff.rfl
  ne_text_iff _ _ := Iff.rfl
  not_aeq_null s := by simp [converting, Literal.SpelledBy, Literal.isNumber]
  aeq_text_iff t s := by simp [converting, Literal.SpelledBy, Literal.isNumber]
  aeq_number_iff v s hv := by
    cases v
    case int | float => simp [converting]
    case null | bool | text => cases hv

/-! ## Where comparisons with a text follow the table -/

private theorem Literal.spelledBy_five : (Literal.int 5).SpelledBy "5" :=
  ⟨rfl, rfl⟩

/-- Not every comparison with a text follows the table. -/
theorem Comparison.exists_value_off_table :
    ¬ ∀ (E : Engine Literal) (Spells : String → Literal → Prop), E.Coercing Spells →
      ∀ (settings : Settings) (op : Operator), op.Equates → ∀ (s : String) (v : Option Literal),
        FollowsTable E settings ⟨op, .value (.text s)⟩ v := by
  intro hfollows
  have hfive := hfollows _ _ Engine.converting_coercing {} .eq .eq "5" (some (.int 5))
  rw [followsTable_iff Engine.converting_coercing .eq] at hfive
  cases hfive.2 (.inr ⟨"5", rfl, Literal.spelledBy_five⟩)

/-- A comparison with a text follows the table on every value but the numbers that the text spells,
    and the truth values that the engine takes for the text. -/
theorem Comparison.text_equality_follows_table {E : Engine Literal}
    {Spells : String → Literal → Prop} (hE : E.Coercing Spells) (settings : Settings)
    {op : Operator} (hop : op.Equates) (s : String) (v : Option Literal) :
    FollowsTable E settings ⟨op, .value (.text s)⟩ v ↔
      ¬ ((v.getD .null).isNumber = true ∧ Spells s (v.getD .null)) ∧
      ∀ b, v.getD .null = .bool b → ¬ E.relate .aeq (v.getD .null) (.text s) :=
  (followsTable_iff hE hop s v).trans (hE.equalities_agree_iff s (v.getD .null))

/-- The number 5 is told apart from the text that spells it, and the number 7, null and texts are
    tested as the table says. -/
theorem Comparison.text_equality_follows_table_five :
    ¬ FollowsTable .converting {} ⟨.notEq, .value (.text "5")⟩ (some (.int 5)) ∧
    FollowsTable .converting {} ⟨.notEq, .value (.text "5")⟩ (some (.int 7)) ∧
    FollowsTable .converting {} ⟨.eq, .value (.text "5")⟩ none ∧
    FollowsTable .converting {} ⟨.eq, .value (.text "5")⟩ (some (.text "5")) := by
  have hE := Engine.converting_coercing
  refine ⟨?_, ?_, ?_, ?_⟩
  · intro hfollows
    exact ((text_equality_follows_table hE {} .notEq "5" _).1 hfollows).1
      ⟨rfl, Literal.spelledBy_five⟩
  · apply (text_equality_follows_table hE {} .notEq "5" _).2
    refine ⟨?_, nofun⟩
    rintro ⟨_, _, hseven⟩
    cases hseven.symm.trans Literal.spelledBy_five.2
  · apply (text_equality_follows_table hE {} .eq "5" _).2
    exact ⟨fun hnumber => Bool.false_ne_true hnumber.1, nofun⟩
  · apply (text_equality_follows_table hE {} .eq "5" _).2
    exact ⟨fun hnumber => Bool.false_ne_true hnumber.1, nofun⟩

end DocQuery
