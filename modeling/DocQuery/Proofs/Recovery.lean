-- SUMMARY: Recovering a clause from its predicate, up to the few spellings that compile to the same predicate.
import DocQuery.Proofs.Like
import DocQuery.Proofs.Outcome

/-!
# Recovering clauses

Some clauses compile to the same predicate on purpose: a connective of one clause is left out,
`weakGt` is another name for `gt` where a literal stands on the right, and what the engine cannot
check becomes the one predicate that always holds. `Clause.norm` forgets exactly these spellings.

Nothing else is lost. `Predicate.origin` reads the normal form of a clause off its predicate, so
clauses with the same predicate have the same normal form. The pattern of a regular expression is
recovered by reading the expression, of which there is one way only.
-/

namespace DocQuery

/-! ## Patterns -/

namespace LikePattern

/-- The character of a pattern that stands for a part of a regular expression. -/
def charOf : Regex.Item Char → Char
  | .any => '_'
  | .anyRun => '%'
  | .char c => c

private theorem charOf_item (c : Char) : charOf (item c) = c := by
  unfold item
  split
  next h => exact h.symm
  next =>
    split
    next h => exact h.symm
    next => rfl

/-- The pattern that a regular expression was made from. -/
def origin? (p : LikePattern) : Option String :=
  (Regex.read p.source.toList).map fun items => String.ofList (items.map charOf)

private theorem origin?_ofPattern (pattern : String) (caseInsensitive : Bool) :
    (ofPattern pattern caseInsensitive).origin? = some pattern := by
  have hchars : charOf ∘ item = id := funext charOf_item
  rw [origin?, ofPattern, String.toList_ofList, read_regex, Option.map_some, List.map_map, hchars,
    List.map_id, String.ofList_toList]

/-- Different patterns have different regular expressions. -/
theorem ofPattern_injective (caseInsensitive : Bool) :
    Function.Injective fun pattern => ofPattern pattern caseInsensitive := by
  intro pattern pattern' h
  have horigin := congrArg origin? h
  simp only [origin?_ofPattern] at horigin
  exact Option.some.inj horigin

end LikePattern

/-! ## Normal forms -/

/-- A clause without the spellings that make no difference. -/
inductive NormalClause where
  /-- Whatever the engine cannot check. -/
  | always
  | compare (column : String) (comparison : Comparison)
  | group (connective : Connective) (conditions : List NormalClause)
  /-- A join keeps its conditions as they were written. -/
  | on (table : String) (conditions : List Clause)
  | raw (expression : Expression)

/-- Connects normal forms. One alone needs no connective. -/
def NormalClause.connect (connective : Connective) : List NormalClause → NormalClause
  | [n] => n
  | ns => .group connective ns

/-- The comparison on a column, or nothing that the engine could check. -/
def NormalClause.ofComparison? (column : String) : Option Comparison → NormalClause
  | some comparison => .compare column comparison
  | none => .always

/-- A comparison under its main name. None is left of a comparison between columns, nor of a
    pattern that is no text. -/
def Comparison.norm? : Comparison → Option Comparison
  | ⟨_, .column _⟩ => none
  | ⟨.weakGt, right⟩ => some ⟨.gt, right⟩
  | ⟨.like, right⟩ => if right.text?.isSome then some ⟨.like, right⟩ else none
  | ⟨.notLike, right⟩ => if right.text?.isSome then some ⟨.notLike, right⟩ else none
  | comparison => some comparison

mutual

/-- The normal form of a clause. -/
def Clause.norm : Clause → NormalClause
  | .compare column comparison => .ofComparison? column comparison.norm?
  | .group connective conditions => .connect connective (normList conditions)
  | .on table conditions => .on table conditions
  | .raw expression => .raw expression

def Clause.normList : List Clause → List NormalClause
  | [] => []
  | c :: cs => c.norm :: normList cs

end

/-! ## Recovery -/

/-- The comparison that a test was made for. Both equalities of the engine stand for the one of
    the query language, and of a conjunction one part tells the operator. -/
def FieldTest.origin? : FieldTest → Option Comparison
  | .relate .aeq v => some ⟨.eq, .value v⟩
  | .relate .eq v => some ⟨.eq, .value v⟩
  | .relate .ne v => some ⟨.notEq, .value v⟩
  | .relate .gt v => some ⟨.gt, .value v⟩
  | .relate .gte v => some ⟨.gte, .value v⟩
  | .among vs => some ⟨.oneOf, .values vs⟩
  | .between low high => some ⟨.between, .values [low, high]⟩
  | .regex pattern => pattern.origin?.map fun s => ⟨.like, .value (.text s)⟩
  | .not (.relate .aeq v) => some ⟨.notEq, .value v⟩
  | .all [.relate .lt v, _] => some ⟨.lt, .value v⟩
  | .all [.relate .lte v, _] => some ⟨.lte, .value v⟩
  | .all [.notAmong vs, _] => some ⟨.notIn, .values vs⟩
  | .all [_, .not (.regex pattern)] =>
    pattern.origin?.map fun s => ⟨.notLike, .value (.text s)⟩
  | _ => none

def Condition.origin? : Condition → Option Comparison
  | .test t => t.origin?
  | .always => none

mutual

/-- The normal form of the clauses that compile to a predicate. -/
def Predicate.origin : Predicate → NormalClause
  | .field column test => .ofComparison? column test.origin?
  | .group connective children => .group connective (originList children)
  | .join table _ conditions _ _ => .on table conditions
  | .alwaysTrue _ => .always
  | .raw expression => .raw expression

def Predicate.originList : List Predicate → List NormalClause
  | [] => []
  | p :: ps => p.origin :: originList ps

end

/-- Every operator leaves a test of its own, apart from `weakGt`. -/
theorem Comparison.origin?_condition {settings : Settings} {c : Comparison}
    {condition : Condition} (hright : ∀ other, c.right ≠ .column other)
    (h : c.condition settings = .ok condition) : condition.origin? = c.norm? := by
  obtain ⟨op, right⟩ := c
  cases right with
  | column other => exact absurd rfl (hright other)
  | value v =>
    cases op
    case oneOf | notIn | between => cases h
    case gt | weakGt | gte | lt | lte => cases h; rfl
    case eq | notEq => cases v <;> cases h <;> rfl
    case like | notLike =>
      cases v
      case text s =>
        cases h
        simp [Condition.origin?, FieldTest.origin?, LikePattern.origin?_ofPattern, norm?,
          Operand.text?, Literal.text?]
      case null | bool | int | float => cases h; rfl
  | values vs =>
    cases op
    case eq | notEq | gt | weakGt | gte | lt | lte => cases h
    case oneOf | notIn | like | notLike => cases h; rfl
    case between =>
      match vs, h with
      | [low, high], h => cases h; rfl

private theorem Condition.origin_toPredicate (settings : Settings) (column : String)
    (condition : Condition) :
    (condition.toPredicate settings column).origin = .ofComparison? column condition.origin? := by
  cases condition with
  | test t => rfl
  | always => rfl

/-- A connective is left out of a predicate where it is left out of the normal form. -/
theorem Predicate.origin_connect {connective : Connective} {ps : List Predicate} {p : Predicate}
    (h : connect connective ps = .ok p) :
    p.origin = NormalClause.connect connective (originList ps) := by
  match ps, h with
  | [q], h => cases h; rfl
  | q :: q' :: qs, h => cases h; rfl

namespace Clause

variable {settings : Settings} {associations : List Association}

/-- The normal form of a clause is read off a predicate. -/
def Recovered (c : Clause) (p : Predicate) : Prop :=
  p.origin = c.norm

private theorem recovered_list {cs : List Clause} {ps : List Predicate}
    (h : List.Forall₂ Recovered cs ps) : Predicate.originList ps = normList cs := by
  induction h with
  | nil => rfl
  | cons hcp _ ih =>
    rw [Predicate.originList, normList, hcp, ih]

private theorem preserved_recovered : Preserved settings associations Recovered where
  deferred column operator other := rfl
  compared column comparison condition hright hcondition := by
    rw [Recovered, Condition.origin_toPredicate, Comparison.origin?_condition hright hcondition,
      norm]
  group connective cs ps p _ hrecovered hconnect := by
    rw [Recovered, Predicate.origin_connect hconnect, recovered_list hrecovered, norm]
  on table cs ps association _ _ _ := rfl
  raw expression := rfl

private theorem origin_of_compile {c : Clause} {p : Predicate}
    (h : (compile settings associations c).outcome = .ok p) : p.origin = c.norm :=
  compile_induction preserved_recovered h

end Clause

/-! ## Compiling normal forms

The other way round a predicate depends on the normal form alone, so that normal forms forget no
more than compilation does. -/

mutual

/-- The predicate of the clauses with a normal form. -/
def NormalClause.predicate? (settings : Settings) (associations : List Association) :
    NormalClause → Option Predicate
  | .always => some (.always settings)
  | .compare column comparison =>
    (comparison.condition settings).toOption.map (Condition.toPredicate settings column)
  | .group connective conditions =>
    (predicates? settings associations conditions).map (.group connective)
  | .on table conditions =>
    (Clause.compile settings associations (.on table conditions)).outcome.toOption
  | .raw expression => some (.raw expression)

def NormalClause.predicates? (settings : Settings) (associations : List Association) :
    List NormalClause → Option (List Predicate)
  | [] => some []
  | n :: ns =>
    (n.predicate? settings associations).bind fun p =>
      (predicates? settings associations ns).map (p :: ·)

end

private theorem NormalClause.predicate?_ofComparison? {settings : Settings}
    {associations : List Association} {column : String} {c : Comparison} {condition : Condition}
    (hright : ∀ other, c.right ≠ .column other) (h : c.condition settings = .ok condition) :
    (ofComparison? column c.norm?).predicate? settings associations =
      some (condition.toPredicate settings column) := by
  obtain ⟨op, right⟩ := c
  cases right with
  | column other => exact absurd rfl (hright other)
  | value v =>
    cases op
    case oneOf | notIn | between => cases h
    case eq | notEq | gt | weakGt | gte | lt | lte =>
      simp only [Comparison.norm?, ofComparison?, predicate?]
      exact congrArg (fun x => x.toOption.map (Condition.toPredicate settings column)) h
    case like | notLike => cases v <;> cases h <;> rfl
  | values vs =>
    cases op
    case eq | notEq | gt | weakGt | gte | lt | lte => cases h
    case oneOf | notIn | between =>
      simp only [Comparison.norm?, ofComparison?, predicate?]
      exact congrArg (fun x => x.toOption.map (Condition.toPredicate settings column)) h
    case like | notLike => cases h; rfl

private theorem NormalClause.predicate?_connect {settings : Settings}
    {associations : List Association} {connective : Connective} {ns : List NormalClause}
    {ps : List Predicate} {p : Predicate} (hps : predicates? settings associations ns = some ps)
    (h : Predicate.connect connective ps = .ok p) :
    (connect connective ns).predicate? settings associations = some p := by
  match ns with
  | [] =>
    cases hps
    cases h
  | [n] =>
    simp only [predicates?, Option.map_some, Option.bind_eq_some_iff, Option.some.injEq] at hps
    obtain ⟨q, hq, rfl⟩ := hps
    cases h
    exact hq
  | n :: n' :: ns =>
    have hlength : 2 ≤ ps.length := by
      simp only [predicates?, Option.bind_eq_some_iff, Option.map_eq_some_iff] at hps
      obtain ⟨q, _, _, ⟨q', _, qs, _, rfl⟩, rfl⟩ := hps
      simp
    obtain rfl | ⟨_, rfl⟩ := Predicate.connect_eq_ok.1 h
    · exact absurd hlength (by simp)
    · rw [connect, predicate?, hps]
      · rfl
      · simp

namespace Clause

variable {settings : Settings} {associations : List Association}

private theorem predicates?_normList {cs : List Clause} {ps : List Predicate}
    (h : List.Forall₂ (fun c p => c.norm.predicate? settings associations = some p) cs ps) :
    NormalClause.predicates? settings associations (normList cs) = some ps := by
  induction h with
  | nil => rfl
  | cons hcp _ ih =>
    rw [normList, NormalClause.predicates?, hcp, ih]
    rfl

private theorem preserved_predicate? :
    Preserved settings associations fun c p =>
      c.norm.predicate? settings associations = some p where
  deferred column operator other := rfl
  compared column comparison condition hright hcondition := by
    rw [norm]
    exact NormalClause.predicate?_ofComparison? hright hcondition
  group connective cs ps p _ hps hconnect := by
    rw [norm]
    exact NormalClause.predicate?_connect (predicates?_normList hps) hconnect
  on table cs ps association hassociation hps _ := by
    have hquery := compileConjunction_eq_ok.2 ⟨ps, hps, rfl⟩
    rw [norm, NormalClause.predicate?, compile_on, hassociation, hquery]
    rfl
  raw expression := rfl

private theorem predicate?_of_compile {c : Clause} {p : Predicate}
    (h : (compile settings associations c).outcome = .ok p) :
    c.norm.predicate? settings associations = some p :=
  compile_induction preserved_predicate? h

/-- Compilation loses nothing but the spellings that normal forms forget: clauses have the same
    predicate exactly if they have the same normal form. In particular no two patterns have the
    same regular expression. -/
theorem compile_eq_iff_norm_eq (settings : Settings) (associations : List Association) :
    (∀ {c₁ c₂ : Clause} {p₁ p₂ : Predicate},
      (compile settings associations c₁).outcome = .ok p₁ →
      (compile settings associations c₂).outcome = .ok p₂ → (p₁ = p₂ ↔ c₁.norm = c₂.norm)) ∧
    ∀ caseInsensitive, Function.Injective fun pattern =>
      LikePattern.ofPattern pattern caseInsensitive := by
  refine ⟨?_, LikePattern.ofPattern_injective⟩
  intro c₁ c₂ p₁ p₂ h₁ h₂
  constructor
  · intro heq
    rw [← origin_of_compile h₁, ← origin_of_compile h₂, heq]
  · intro heq
    have hp₁ := predicate?_of_compile h₁
    rw [heq, predicate?_of_compile h₂] at hp₁
    exact (Option.some.inj hp₁).symm

/-- Connectives of one clause, an alias and two ways to ask for what the engine cannot check,
    against a plain spelling. -/
theorem compile_eq_iff_norm_eq_spelling :
    (group .and [.group .or [.compare "size" ⟨.weakGt, .value (.int 3)⟩,
      .group .and [.compare "name" ⟨.notLike, .value .null⟩]]]).norm =
    (group .or [.compare "size" ⟨.gt, .value (.int 3)⟩,
      .compare "start" ⟨.weakGt, .column "end"⟩]).norm :=
  ((compile_eq_iff_norm_eq {} []).1 rfl rfl).1 rfl

end Clause

end DocQuery
