-- SUMMARY: The documents of clauses as a grammar of JSON trees, and that reading takes exactly the trees of the grammar.
import DocQuery.Decode.Clause
import DocQuery.Proofs.Normalisation
import DocQuery.Proofs.Slots

/-!
# The grammar of clauses

Which trees are clauses is said twice by the reader: a loose form types every member, whatever
the kind of the clause, and a check behind it asks for the members that the kind needs. Here it is
said once, as a grammar (`Clause.Document`), and reading takes exactly its trees.

A tree that is only well typed (`Clause.WellTyped`) is refused by the check, with the kind if that
is unknown and else with the first member that is missing.
-/

namespace DocQuery

open Json (Draft Items Members)

/-! ## Grammar -/

/-- Whether the value is neither a list nor an object. -/
def Json.isScalar : Json → Bool
  | .array _ => false
  | .object _ => false
  | _ => true

/-- Whether a member is there and not null. -/
def Json.given (members : List (String × Json)) (name : String) : Bool :=
  match members.lookup name with
  | none => false
  | some .null => false
  | some _ => true

/-- An operator is its name, bare or with a null. -/
inductive Operator.Document : Json → Prop where
  | bare (op : Operator) : Document (.string op.name)
  | withNull (op : Operator) : Document (.object [(op.name, .null)])

/-- An operand is one of its three forms, and nothing beside it. -/
inductive Operand.Document : Json → Prop where
  | value {j : Json} : j.isScalar = true → Document (.object [("value", j)])
  | values {js : List Json} : (∀ j ∈ js, j.isScalar = true) →
    Document (.object [("values", .array js)])
  | column (name : String) : Document (.object [("column", .string name)])

def Comparison.memberNames : List String :=
  ["operator", "right"]

inductive Comparison.Document : Json → Prop where
  | intro {v operator right : Json} {members : List (String × Json)} :
    Json.Record memberNames v members →
    members.lookup "operator" = some operator → Operator.Document operator →
    members.lookup "right" = some right → Operand.Document right →
    Document v

namespace Clause

def memberNames : List String :=
  ["type", "left", "comparison", "table", "conditions", "expr"]

/-- The members that a kind of clause needs, if there is such a kind. -/
def requiredMembers : String → Option (List String)
  | "where" => some ["left", "comparison"]
  | "and" => some ["conditions"]
  | "or" => some ["conditions"]
  | "on" => some ["table", "conditions"]
  | "loki" => some ["expr"]
  | _ => none

mutual

/-- A tree has a kind, and all of its members are well typed, those that the kind does not need
    included. -/
inductive WellTyped : Json → String → List (String × Json) → Prop where
  | intro {v : Json} {kind : String} {members : List (String × Json)} :
    Json.Record memberNames v members →
    members.lookup "type" = some (.string kind) →
    (∀ j, members.lookup "left" = some j → j = .null ∨ ∃ s, j = .string s) →
    (∀ j, members.lookup "comparison" = some j → j = .null ∨ Comparison.Document j) →
    (∀ j, members.lookup "table" = some j → j = .null ∨ ∃ s, j = .string s) →
    (∀ j, members.lookup "conditions" = some j → j = .null ∨ ∃ js, j = .array js) →
    (∀ js, members.lookup "conditions" = some (.array js) → ∀ j ∈ js, Document j) →
    WellTyped v kind members

/-- A tree is a clause: it is well typed, its kind is known, and what the kind needs is given. -/
inductive Document : Json → Prop where
  | intro {v : Json} {kind : String} {members : List (String × Json)} {required : List String} :
    WellTyped v kind members → requiredMembers kind = some required →
    (∀ name ∈ required, Json.given members name = true) →
    Document v

end

end Clause

/-! ## What readers take -/

section Readers

variable {α β : Type}

/-- The reader takes a tree. -/
def Takes (read : Draft → Except ReadError α) (j : Json) : Prop :=
  ∃ a, read (.ofJson j) = .ok a

theorem readString_eq_ok {j : Json} {s : String} :
    readString (.ofJson j) = .ok s ↔ j = .string s := by
  cases j with
  | string s' =>
    rw [Draft.ofJson, readString, Json.string.injEq]
    exact ⟨Except.ok.inj, congrArg Except.ok⟩
  | null | bool | number | array | object => exact iff_of_false wrongType_ne_ok nofun

theorem takes_readString {j : Json} : Takes readString j ↔ ∃ s, j = .string s :=
  exists_congr fun _ => readString_eq_ok

private theorem takes_map {read : Draft → Except ReadError α} {f : α → β} {j : Json} :
    Takes (fun d => (read d).map f) j ↔ Takes read j := by
  constructor
  · rintro ⟨b, h⟩
    obtain ⟨a, ha, _⟩ := exists_of_map_eq_ok h
    exact ⟨a, ha⟩
  · rintro ⟨a, ha⟩
    exact ⟨f a, congrArg (Except.map f) ha⟩

theorem readOption_of_ne_null {read : Draft → Except ReadError α} {j : Json} (h : j ≠ .null) :
    readOption read (.ofJson j) = (read (.ofJson j)).map some := by
  cases j with
  | null => exact absurd rfl h
  | bool | number | string | array | object => rfl

theorem takes_readOption {read : Draft → Except ReadError α} {j : Json} :
    Takes (readOption read) j ↔ j = .null ∨ Takes read j := by
  by_cases hnull : j = .null
  · subst hnull
    exact iff_of_true ⟨none, rfl⟩ (.inl rfl)
  · rw [or_iff_right hnull, Takes, readOption_of_ne_null hnull]
    exact takes_map

theorem takes_items {read : Draft → Except ReadError α} {js : List Json} :
    (∃ as, readItems read (Items.ofList js) = .ok as) ↔ ∀ j ∈ js, Takes read j := by
  induction js with
  | nil => exact iff_of_true ⟨[], rfl⟩ (fun _ hj => absurd hj List.not_mem_nil)
  | cons j js ih =>
    rw [List.forall_mem_cons, ← ih, Items.ofList]
    constructor
    · rintro ⟨as, h⟩
      obtain ⟨a, ha, h⟩ := bind_eq_ok.1 h
      obtain ⟨as, has, _⟩ := bind_eq_ok.1 h
      exact ⟨⟨a, ha⟩, as, has⟩
    · rintro ⟨⟨a, ha⟩, as, has⟩
      exact ⟨a :: as, bind_eq_ok.2 ⟨a, ha, bind_eq_ok.2 ⟨as, has, rfl⟩⟩⟩

/-- A list is opened if there is room for it, and its items have one container less. -/
theorem takes_readList {read : Nat → Draft → Except ReadError α} {room : Nat} {j : Json} :
    Takes (readList (inside room read)) j ↔
      ∃ r js, room = r + 1 ∧ j = .array js ∧ ∀ i ∈ js, Takes (read r) i := by
  constructor
  · rintro ⟨as, h⟩
    cases j with
    | array js =>
      cases room with
      | zero => cases h
      | succ r => exact ⟨r, js, rfl, rfl, takes_items.1 ⟨as, h⟩⟩
    | null | bool | number | string | object => exact absurd h wrongType_ne_ok
  · rintro ⟨r, js, rfl, rfl, h⟩
    exact takes_items.2 h

theorem mem_of_choiceOfName {choices : List (String × α)} {name : String} {a : α}
    (h : choiceOfName choices name = .ok a) : (name, a) ∈ choices := by
  unfold choiceOfName at h
  split at h
  next c hfind =>
    cases h
    have hname : c.1 = name := by simpa using List.find?_some hfind
    exact hname ▸ List.mem_of_find?_eq_some hfind
  next => cases h

/-- A choice is a bare name, or an object of one member. -/
theorem choice_of_takes {choices : List (String × α)} {bare : α → Except ReadError β}
    {content : Nat → α → Draft → Except ReadError β} {room : Nat} {j : Json}
    (h : Takes (readChoice choices bare (inside room content)) j) :
    (∃ name a, j = .string name ∧ (name, a) ∈ choices ∧ ∃ b, bare a = .ok b) ∨
      ∃ r name a payload, room = r + 1 ∧ j = .object [(name, payload)] ∧ (name, a) ∈ choices ∧
        Takes (content r a) payload := by
  obtain ⟨b, h⟩ := h
  cases j with
  | string name =>
    obtain ⟨_, ⟨rfl⟩, h⟩ := bind_eq_ok.1 h
    obtain ⟨a, ha, h⟩ := bind_eq_ok.1 h
    exact .inl ⟨name, a, rfl, mem_of_choiceOfName ha, b, h⟩
  | object members =>
    cases room with
    | zero => cases h
    | succ r =>
      match members, h with
      | [], h => cases h
      | (name, payload) :: rest, h =>
        obtain ⟨_, ⟨rfl⟩, h⟩ := bind_eq_ok.1 h
        obtain ⟨a, ha, h⟩ := bind_eq_ok.1 h
        obtain ⟨b, hb, h⟩ := bind_eq_ok.1 h
        obtain ⟨_, hend, _⟩ := bind_eq_ok.1 h
        match rest, hend with
        | [], _ => exact .inr ⟨r, name, a, payload, rfl, rfl, mem_of_choiceOfName ha, b, hb⟩
        | _ :: _, hend => cases hend
  | null | bool | number | array => cases h

/-! ### Optional members -/

/-- An optional member can be read exactly if it is absent, null or taken. -/
theorem exists_readMember_option {read : Draft → Except ReadError α}
    {members : List (String × Json)} {name : String} :
    (∃ a, readMember (readOption read) members name = .ok a) ↔
      ∀ j, members.lookup name = some j → j = .null ∨ Takes read j := by
  cases hlookup : members.lookup name with
  | none => exact iff_of_true ⟨none, readMember_absent hlookup⟩ nofun
  | some j =>
    rw [readMember_present hlookup]
    refine Iff.trans takes_map (takes_readOption.trans ?_)
    exact ⟨fun h j' hj' => Option.some.inj hj' ▸ h, fun h => h j rfl⟩

/-- An optional member has a value exactly if it is given. -/
private theorem isSome_join_of_readMember {read : Draft → Except ReadError α}
    {members : List (String × Json)} {name : String} {a : Option (Option α)}
    (h : readMember (readOption read) members name = .ok a) :
    a.join.isSome = Json.given members name := by
  rw [readMember_eq_ok] at h
  unfold Json.given
  cases hlookup : members.lookup name with
  | none =>
    rw [hlookup] at h
    cases h
    rfl
  | some j =>
    rw [hlookup] at h
    cases h with
    | @some j a h =>
      by_cases hnull : j = .null
      · subst hnull
        cases h
        rfl
      · rw [readOption_of_ne_null hnull] at h
        obtain ⟨b, _, rfl⟩ := exists_of_map_eq_ok h
        cases j with
        | null => exact absurd rfl hnull
        | bool | number | string | array | object => rfl

end Readers

/-! ## Comparisons -/

/-- A container is no literal, whatever is in it. -/
theorem Literal.isScalar_of_read {room : Nat} {j : Json} (h : Takes (Literal.read room) j) :
    j.isScalar = true := by
  obtain ⟨v, h⟩ := h
  obtain ⟨j', hj', hv⟩ := bind_eq_ok.1 h
  have hread := eq_ok_of_ofText hj'
  cases j with
  | null | bool | number | string => rfl
  | array items =>
    cases room with
    | zero => cases hread
    | succ room =>
      obtain ⟨js, _, rfl⟩ := exists_of_map_eq_ok hread
      cases hv
  | object members =>
    cases room with
    | zero => cases hread
    | succ room =>
      obtain ⟨ms, _, rfl⟩ := exists_of_map_eq_ok hread
      cases hv

theorem Literal.takes_read {room : Nat} {j : Json} :
    Takes (Literal.read room) j ↔ j.isScalar = true := by
  refine ⟨Literal.isScalar_of_read, fun h => ?_⟩
  cases j with
  | null | bool | string => exact ⟨_, rfl⟩
  | number n => cases n <;> exact ⟨_, rfl⟩
  | array | object => cases h

theorem Operator.document_of_takes {room : Nat} {j : Json} (h : Takes (Operator.read room) j) :
    Operator.Document j := by
  have hname : ∀ {name op}, (name, op) ∈ Operator.choices → name = op.name := by
    intro name op hmem
    obtain ⟨op', _, heq⟩ := List.mem_map.1 hmem
    cases heq
    rfl
  obtain ⟨name, op, rfl, hmem, _⟩ | ⟨r, name, op, payload, _, rfl, hmem, hpayload⟩ :=
    choice_of_takes h
  · rw [hname hmem]
    exact .bare op
  · obtain ⟨_, hunit⟩ := hpayload
    cases payload with
    | null =>
      rw [hname hmem]
      exact .withNull op
    | bool | number | string | array | object => exact absurd hunit wrongType_ne_ok

theorem Operator.Document.takes {room : Nat} {j : Json} (h : Operator.Document j)
    (hroom : j.depth ≤ room) : Takes (Operator.read room) j := by
  cases h with
  | bare op => exact ⟨op, Operator.read_name op room⟩
  | withNull op =>
    cases room with
    | zero => exact absurd hroom (Nat.not_succ_le_zero _)
    | succ room => cases op <;> exact ⟨_, rfl⟩

theorem Operand.document_of_takes {room : Nat} {j : Json} (h : Takes (Operand.read room) j) :
    Operand.Document j := by
  obtain ⟨_, _, _, _, _, hbare⟩ | ⟨r, name, form, payload, _, rfl, hmem, hpayload⟩ :=
    choice_of_takes h
  · cases hbare
  · simp only [Operand.Form.choices, List.mem_cons, Prod.mk.injEq, List.not_mem_nil,
      or_false] at hmem
    obtain ⟨rfl, rfl⟩ | ⟨rfl, rfl⟩ | ⟨rfl, rfl⟩ := hmem
    · exact .value (Literal.takes_read.1 (takes_map.1 hpayload))
    · obtain ⟨_, js, _, rfl, hitems⟩ := takes_readList.1 (takes_map.1 hpayload)
      exact .values fun j hj => Literal.takes_read.1 (hitems j hj)
    · obtain ⟨name, rfl⟩ := takes_readString.1 (takes_map.1 hpayload)
      exact .column name

theorem Operand.Document.takes {room : Nat} {j : Json} (h : Operand.Document j)
    (hroom : j.depth ≤ room) : Takes (Operand.read room) j := by
  cases room with
  | zero => cases h <;> exact absurd hroom (Nat.not_succ_le_zero _)
  | succ room =>
    cases h with
    | value hscalar =>
      obtain ⟨v, hv⟩ := Literal.takes_read.2 hscalar
      refine ⟨.value v, (readChoice_ofJson rfl).trans ?_⟩
      exact congrArg (Except.map _) hv
    | @values js hscalar =>
      have hlist : Takes (readList (inside room Literal.read)) (.array js) := by
        cases room with
        | zero => simp [Json.depth, Json.depthMembers] at hroom
        | succ room =>
          exact takes_readList.2 ⟨room, js, rfl, rfl, fun j hj => Literal.takes_read.2 (hscalar j hj)⟩
      obtain ⟨vs, hvs⟩ := hlist
      refine ⟨.values vs, (readChoice_ofJson rfl).trans ?_⟩
      exact congrArg (Except.map _) hvs
    | column name => exact ⟨.column name, rfl⟩

private theorem Comparison.readGiven_fields {room : Nat} {members : List (String × Json)}
    {p : Comparison.Parts} :
    readGiven members (Comparison.fields room) {} = .ok p ↔
      readMember (Operator.read room) members "operator" = .ok p.operator ∧
      readMember (Operand.read room) members "right" = .ok p.right := by
  unfold Comparison.fields
  constructor
  · intro h
    obtain ⟨operator, hoperator, h⟩ :=
      (readGiven_cons_eq_ok (Comparison.Parts.mk · none) fun _ => rfl).1 h
    obtain ⟨right, hright, h⟩ :=
      (readGiven_cons_eq_ok (Comparison.Parts.mk operator ·) fun _ => rfl).1 h
    cases h
    exact ⟨hoperator, hright⟩
  · rintro ⟨hoperator, hright⟩
    refine (readGiven_cons_eq_ok (Comparison.Parts.mk · none) fun _ => rfl).2 ⟨_, hoperator, ?_⟩
    exact (readGiven_cons_eq_ok (Comparison.Parts.mk p.operator ·) fun _ => rfl).2 ⟨_, hright, rfl⟩

private theorem Comparison.readRecord_eq_ok {room : Nat} {v : Json} {p : Comparison.Parts} :
    readRecord "struct Comparison" (inside room Comparison.fields) {} (.ofJson v) = .ok p ↔
      ∃ r members, room = r + 1 ∧ Json.Record Comparison.memberNames v members ∧
        readMember (Operator.read r) members "operator" = .ok p.operator ∧
        readMember (Operand.read r) members "right" = .ok p.right := by
  cases room with
  | zero => exact iff_of_false readRecord_none_ne_ok (by simp)
  | succ r =>
    have hrequired : ∀ p ∈ Comparison.slots r, p.optional = false := by simp [Comparison.slots]
    refine ((Comparison.slots_fields r).readRecord_required_eq_ok hrequired).trans ?_
    constructor
    · rintro ⟨members, hrecord, hp⟩
      exact ⟨r, members, rfl, hrecord, Comparison.readGiven_fields.1 hp⟩
    · rintro ⟨_, members, ⟨rfl⟩, hrecord, hp⟩
      exact ⟨members, hrecord, Comparison.readGiven_fields.2 hp⟩

/-- A member that cannot be missing is there, and the reader takes it. -/
theorem exists_of_readMember {α : Type} {read : Draft → Except ReadError α}
    {members : List (String × Json)} {name : String} {a : α}
    (h : readMember read members name = .ok (some a)) :
    ∃ j, members.lookup name = some j ∧ read (.ofJson j) = .ok a := by
  rw [readMember_eq_ok] at h
  cases hlookup : members.lookup name with
  | none =>
    rw [hlookup] at h
    cases h
  | some j =>
    rw [hlookup] at h
    cases h with
    | some h => exact ⟨j, rfl, h⟩

theorem Comparison.document_of_takes {room : Nat} {v : Json} (h : Takes (Comparison.read room) v) :
    Comparison.Document v := by
  obtain ⟨c, h⟩ := h
  obtain ⟨p, hp, h⟩ := bind_eq_ok.1 h
  obtain ⟨operator, hoperator, h⟩ := bind_eq_ok.1 h
  obtain ⟨right, hright, _⟩ := bind_eq_ok.1 h
  obtain ⟨r, members, _, hrecord, hpo, hpr⟩ := Comparison.readRecord_eq_ok.1 hp
  rw [eq_some_of_required hoperator] at hpo
  rw [eq_some_of_required hright] at hpr
  obtain ⟨jo, hjo, ho⟩ := exists_of_readMember hpo
  obtain ⟨jr, hjr, hr⟩ := exists_of_readMember hpr
  exact .intro hrecord hjo (Operator.document_of_takes ⟨_, ho⟩) hjr
    (Operand.document_of_takes ⟨_, hr⟩)

theorem Comparison.Document.takes {room : Nat} {v : Json} (h : Comparison.Document v)
    (hroom : v.depth ≤ room) : Takes (Comparison.read room) v := by
  cases h with
  | @intro jo jr members hrecord hjo ho hjr hr =>
    obtain ⟨r, rfl, hdepth⟩ := hrecord.exists_room hroom
    obtain ⟨operator, hoperator⟩ := ho.takes (hdepth hjo)
    obtain ⟨right, hright⟩ := hr.takes (hdepth hjr)
    have hp : readRecord "struct Comparison" (inside (r + 1) Comparison.fields) {} (.ofJson v) =
        .ok ⟨some operator, some right⟩ := by
      refine Comparison.readRecord_eq_ok.2 ⟨r, members, rfl, hrecord, ?_, ?_⟩
      · rw [readMember_present hjo, hoperator]
        rfl
      · rw [readMember_present hjr, hright]
        rfl
    exact ⟨⟨operator, right⟩, bind_eq_ok.2 ⟨_, hp, rfl⟩⟩

/-! ## The loose form -/

namespace Clause

/-- The members of a clause have been read into its parts. -/
structure Parts.ReadFrom (room : Nat) (readConditions : Draft → Except ReadError (List Clause))
    (members : List (String × Json)) (p : Parts) : Prop where
  kind : readMember readString members "type" = .ok p.kind
  left : readMember (readOption readString) members "left" = .ok p.left
  comparison : readMember (readOption (Comparison.read room)) members "comparison" =
    .ok p.comparison
  table : readMember (readOption readString) members "table" = .ok p.table
  conditions : readMember (readOption readConditions) members "conditions" = .ok p.conditions
  expr : readMember (readOption (Expression.read room)) members "expr" = .ok p.expr

private theorem readGiven_fields {room : Nat}
    {readConditions : Draft → Except ReadError (List Clause)} {members : List (String × Json)}
    {p : Parts} :
    readGiven members (fields room readConditions) {} = .ok p ↔
      p.ReadFrom room readConditions members := by
  unfold fields
  constructor
  · intro h
    obtain ⟨kind, hkind, h⟩ :=
      (readGiven_cons_eq_ok (Parts.mk · none none none none none) fun _ => rfl).1 h
    obtain ⟨left, hleft, h⟩ :=
      (readGiven_cons_eq_ok (Parts.mk kind · none none none none) fun _ => rfl).1 h
    obtain ⟨comparison, hcomparison, h⟩ :=
      (readGiven_cons_eq_ok (Parts.mk kind left · none none none) fun _ => rfl).1 h
    obtain ⟨table, htable, h⟩ :=
      (readGiven_cons_eq_ok (Parts.mk kind left comparison · none none) fun _ => rfl).1 h
    obtain ⟨conditions, hconditions, h⟩ :=
      (readGiven_cons_eq_ok (Parts.mk kind left comparison table · none) fun _ => rfl).1 h
    obtain ⟨expr, hexpr, h⟩ :=
      (readGiven_cons_eq_ok (Parts.mk kind left comparison table conditions ·) fun _ => rfl).1 h
    cases h
    exact ⟨hkind, hleft, hcomparison, htable, hconditions, hexpr⟩
  · rintro ⟨hkind, hleft, hcomparison, htable, hconditions, hexpr⟩
    refine (readGiven_cons_eq_ok (Parts.mk · none none none none none) fun _ => rfl).2
      ⟨_, hkind, ?_⟩
    refine (readGiven_cons_eq_ok (Parts.mk p.kind · none none none none) fun _ => rfl).2
      ⟨_, hleft, ?_⟩
    refine (readGiven_cons_eq_ok (Parts.mk p.kind p.left · none none none) fun _ => rfl).2
      ⟨_, hcomparison, ?_⟩
    refine (readGiven_cons_eq_ok (Parts.mk p.kind p.left p.comparison · none none)
      fun _ => rfl).2 ⟨_, htable, ?_⟩
    refine (readGiven_cons_eq_ok (Parts.mk p.kind p.left p.comparison p.table · none)
      fun _ => rfl).2 ⟨_, hconditions, ?_⟩
    exact (readGiven_cons_eq_ok (Parts.mk p.kind p.left p.comparison p.table p.conditions ·)
      fun _ => rfl).2 ⟨_, hexpr, rfl⟩

/-- Reads a clause without looking at its kind. -/
def readLoose (room : Nat) (d : Draft) : Except ReadError Loose := do
  let p ← readRecord "struct RawClause"
    (inside room fun room => fields room (readList (inside room read))) {} d
  p.finish

theorem read_eq_readLoose (room : Nat) (d : Draft) :
    read room d = readLoose room d >>= Loose.check := by
  rw [read_eq, readLoose, bind_assoc]

theorem readLoose_eq_ok {room : Nat} {v : Json} {l : Loose} :
    readLoose room (.ofJson v) = .ok l ↔
      ∃ r members p, room = r + 1 ∧ Json.Record memberNames v members ∧
        Parts.ReadFrom r (readList (inside r read)) members p ∧ p.finish = .ok l := by
  unfold readLoose
  rw [bind_eq_ok]
  cases room with
  | zero =>
    refine iff_of_false ?_ (by simp)
    rintro ⟨p, hp, _⟩
    exact readRecord_none_ne_ok hp
  | succ r =>
    have hrequired : ∀ p ∈ slots r (readList (inside r read)), p.optional = false := by simp [slots]
    have hrecord : ∀ p, readRecord "struct RawClause" (some (fields r (readList (inside r read))))
        {} (.ofJson v) = .ok p ↔ ∃ members, Json.Record memberNames v members ∧
          Parts.ReadFrom r (readList (inside r read)) members p := by
      intro p
      refine ((slots_fields r _).readRecord_required_eq_ok hrequired).trans ?_
      exact exists_congr fun members => and_congr_right fun _ => readGiven_fields
    constructor
    · rintro ⟨p, hp, hl⟩
      obtain ⟨members, hmembers, hp⟩ := (hrecord p).1 hp
      exact ⟨r, members, p, rfl, hmembers, hp, hl⟩
    · rintro ⟨_, members, p, ⟨rfl⟩, hmembers, hp, hl⟩
      exact ⟨p, (hrecord p).2 ⟨members, hmembers, hp⟩, hl⟩

/-! ## The check -/

/-- The members that a loose clause has, apart from its kind. -/
structure Loose.Gives (l : Loose) (given : String → Bool) : Prop where
  left : l.left.isSome = given "left"
  comparison : l.comparison.isSome = given "comparison"
  table : l.table.isSome = given "table"
  conditions : l.conditions.isSome = given "conditions"
  expr : l.expr.isSome = given "expr"

/-- The check looks for the members that the kind needs, one after the other. -/
theorem ofLoose_outcome {l : Loose} {given : String → Bool} (h : l.Gives given) :
    (requiredMembers l.kind = none ∧ ofLoose l = .error (.unknownClauseKind l.kind)) ∨
    ∃ required, requiredMembers l.kind = some required ∧
      ((∃ name, required.find? (fun name => !given name) = some name ∧
          ofLoose l = .error (.missingMember l.kind name)) ∨
        (∀ name ∈ required, given name = true) ∧ ∃ c, ofLoose l = .ok c) := by
  obtain ⟨kind, left, comparison, table, conditions, expr⟩ := l
  obtain ⟨hleft, hcomparison, htable, hconditions, hexpr⟩ := h
  unfold ofLoose
  dsimp only at *
  split
  · refine .inr ⟨_, rfl, ?_⟩
    cases left with
    | none => exact .inl ⟨"left", by simp [← hleft], rfl⟩
    | some left =>
      cases comparison with
      | none => exact .inl ⟨"comparison", by simp [← hleft, ← hcomparison], rfl⟩
      | some comparison => exact .inr ⟨by simp [← hleft, ← hcomparison], _, rfl⟩
  · refine .inr ⟨_, rfl, ?_⟩
    cases conditions with
    | none => exact .inl ⟨"conditions", by simp [← hconditions], rfl⟩
    | some conditions => exact .inr ⟨by simp [← hconditions], _, rfl⟩
  · refine .inr ⟨_, rfl, ?_⟩
    cases conditions with
    | none => exact .inl ⟨"conditions", by simp [← hconditions], rfl⟩
    | some conditions => exact .inr ⟨by simp [← hconditions], _, rfl⟩
  · refine .inr ⟨_, rfl, ?_⟩
    cases table with
    | none => exact .inl ⟨"table", by simp [← htable], rfl⟩
    | some table =>
      cases conditions with
      | none => exact .inl ⟨"conditions", by simp [← htable, ← hconditions], rfl⟩
      | some conditions => exact .inr ⟨by simp [← htable, ← hconditions], _, rfl⟩
  · refine .inr ⟨_, rfl, ?_⟩
    cases expr with
    | none => exact .inl ⟨"expr", by simp [← hexpr], rfl⟩
    | some expr => exact .inr ⟨by simp [← hexpr], _, rfl⟩
  · refine .inl ⟨?_, rfl⟩
    unfold requiredMembers
    split <;> trivial

theorem Parts.kind_of_finish {p : Parts} {l : Loose} (h : p.finish = .ok l) :
    p.kind = some l.kind := by
  obtain ⟨kind, hkind, h⟩ := bind_eq_ok.1 h
  cases h
  exact eq_some_of_required hkind

/-- A loose clause has the members that are there and not null. -/
theorem Parts.ReadFrom.gives {room : Nat}
    {readConditions : Draft → Except ReadError (List Clause)} {members : List (String × Json)}
    {p : Parts} {l : Loose} (hp : p.ReadFrom room readConditions members) (hl : p.finish = .ok l) :
    l.Gives (Json.given members) := by
  obtain ⟨kind, _, h⟩ := bind_eq_ok.1 hl
  cases h
  exact ⟨isSome_join_of_readMember hp.left, isSome_join_of_readMember hp.comparison,
    isSome_join_of_readMember hp.table, isSome_join_of_readMember hp.conditions,
    isSome_join_of_readMember hp.expr⟩

/-! ## Clauses -/

/-- What is read loosely is well typed, if what is read as its conditions are clauses. -/
theorem Parts.ReadFrom.wellTyped {r : Nat} {v : Json} {members : List (String × Json)} {p : Parts}
    {l : Loose} (hrecord : Json.Record memberNames v members)
    (hp : p.ReadFrom r (readList (inside r read)) members) (hl : p.finish = .ok l)
    (hitems : ∀ r' j, r = r' + 1 → Takes (read r') j → Document j) :
    WellTyped v l.kind members := by
  have hkind := hp.kind
  rw [Parts.kind_of_finish hl] at hkind
  obtain ⟨j, hj, hread⟩ := exists_of_readMember hkind
  rw [readString_eq_ok.1 hread] at hj
  have hconditions := exists_readMember_option.1 ⟨_, hp.conditions⟩
  refine .intro hrecord hj ?_ ?_ ?_ ?_ ?_
  · intro j hj
    exact (exists_readMember_option.1 ⟨_, hp.left⟩ j hj).imp_right takes_readString.1
  · intro j hj
    exact (exists_readMember_option.1 ⟨_, hp.comparison⟩ j hj).imp_right
      Comparison.document_of_takes
  · intro j hj
    exact (exists_readMember_option.1 ⟨_, hp.table⟩ j hj).imp_right takes_readString.1
  · intro j hj
    refine (hconditions j hj).imp_right fun htakes => ?_
    obtain ⟨_, js, _, rfl, _⟩ := takes_readList.1 htakes
    exact ⟨js, rfl⟩
  · intro js hj j hmem
    obtain hnull | htakes := hconditions _ hj
    · cases hnull
    · obtain ⟨r', _, hr, ⟨rfl⟩, htakes⟩ := takes_readList.1 htakes
      exact hitems r' j hr (htakes j hmem)

/-- Reading takes nothing but clauses. -/
theorem document_of_takes {room : Nat} {v : Json} (h : Takes (read room) v) : Document v := by
  -- Conditions have two containers less to open than the clause, so the room is what decreases.
  induction room using Nat.strongRecOn generalizing v with
  | ind room ih =>
    obtain ⟨c, h⟩ := h
    rw [read_eq_readLoose] at h
    obtain ⟨l, hl, hc⟩ := bind_eq_ok.1 h
    obtain ⟨r, members, p, rfl, hrecord, hp, hfinish⟩ := readLoose_eq_ok.1 hl
    have hwelltyped : WellTyped v l.kind members := by
      refine hp.wellTyped hrecord hfinish ?_
      rintro r' j rfl hj
      exact ih r' (by omega) hj
    obtain ⟨_, herror⟩ | ⟨required, hrequired, ⟨_, _, herror⟩ | ⟨hgiven, _⟩⟩ :=
      ofLoose_outcome (hp.gives hfinish)
    · rw [ofLoose_of_check hc] at herror
      cases herror
    · rw [ofLoose_of_check hc] at herror
      cases herror
    · exact .intro hwelltyped hrequired hgiven

theorem takes_expression {room : Nat} {j : Json} (h : j.depth ≤ room) :
    Takes (Expression.read room) j := by
  refine ⟨Expression.ofJson j, ?_⟩
  unfold Expression.read
  rw [Draft.toJson_ofJson j h]
  rfl

/-- What is well typed is read loosely, if there is room for it and its conditions are taken. -/
theorem WellTyped.exists_readLoose {room : Nat} {v : Json} {kind : String}
    {members : List (String × Json)} (h : WellTyped v kind members) (hroom : v.depth ≤ room)
    (hitems : ∀ r j, r < room → Document j → j.depth ≤ r → Takes (read r) j) :
    ∃ l, readLoose room (.ofJson v) = .ok l ∧ l.kind = kind ∧ l.Gives (Json.given members) := by
  cases h with
  | intro hrecord hkind hleft hcomparison htable hconditions hclauses =>
    obtain ⟨r, rfl, hdepth⟩ := hrecord.exists_room hroom
    have hlist : ∀ js, members.lookup "conditions" = some (.array js) →
        Takes (readList (inside r read)) (.array js) := by
      intro js hj
      have hjs : Json.depthItems js + 1 ≤ r := hdepth hj
      obtain ⟨r', rfl⟩ : ∃ r', r = r' + 1 := Nat.exists_eq_add_one.2 (Nat.zero_lt_of_lt hjs)
      refine takes_readList.2 ⟨r', js, rfl, rfl, fun j hmem => ?_⟩
      exact hitems r' j (by omega) (hclauses js hj j hmem)
        (Json.depthItems_le.1 (Nat.le_of_succ_le_succ hjs) j hmem)
    obtain ⟨left, hleft⟩ := exists_readMember_option.2 fun j hj =>
      (hleft j hj).imp_right takes_readString.2
    obtain ⟨comparison, hcomparison⟩ := exists_readMember_option.2 fun j hj =>
      (hcomparison j hj).imp_right fun hdocument => hdocument.takes (hdepth hj)
    obtain ⟨table, htable⟩ := exists_readMember_option.2 fun j hj =>
      (htable j hj).imp_right takes_readString.2
    obtain ⟨conditions, hconditions⟩ := exists_readMember_option.2 fun j hj =>
      (hconditions j hj).imp_right fun ⟨js, hjs⟩ => hjs ▸ hlist js (hjs ▸ hj)
    obtain ⟨expr, hexpr⟩ := exists_readMember_option.2 fun j hj =>
      Or.inr (takes_expression (hdepth hj))
    have hp : Parts.ReadFrom r (readList (inside r read)) members
        ⟨some kind, left, comparison, table, conditions, expr⟩ := by
      refine ⟨?_, hleft, hcomparison, htable, hconditions, hexpr⟩
      rw [readMember_present hkind]
      rfl
    exact ⟨_, readLoose_eq_ok.2 ⟨r, members, _, rfl, hrecord, hp, rfl⟩, rfl, hp.gives rfl⟩

theorem read_of_readLoose {room : Nat} {v : Json} {l : Loose}
    (h : readLoose room (.ofJson v) = .ok l) : read room (.ofJson v) = l.check := by
  rw [read_eq_readLoose, h]
  rfl

private theorem check_of_error {l : Loose} {error : CompileError} (h : ofLoose l = .error error) :
    l.check = .error (.mismatch (.refused error)) := by
  rw [Loose.check, h]
  rfl

/-- Reading takes every clause that there is room for. -/
theorem Document.takes {room : Nat} {v : Json} (h : Document v) (hroom : v.depth ≤ room) :
    Takes (read room) v := by
  induction room using Nat.strongRecOn generalizing v with
  | ind room ih =>
    cases h with
    | intro hwelltyped hrequired hgiven =>
      obtain ⟨l, hl, rfl, hgives⟩ :=
        hwelltyped.exists_readLoose hroom fun r j hr hj hdepth => ih r hr hj hdepth
      obtain ⟨hnone, _⟩ | ⟨required', hrequired', ⟨name, hfind, _⟩ | ⟨_, c, hc⟩⟩ :=
        ofLoose_outcome hgives
      · rw [hrequired] at hnone
        cases hnone
      · cases hrequired.symm.trans hrequired'
        have hmissing := List.find?_some hfind
        rw [hgiven name (List.mem_of_find?_eq_some hfind)] at hmissing
        cases hmissing
      · refine ⟨c, (read_of_readLoose hl).trans ?_⟩
        rw [Loose.check, hc]

/-- Reading takes exactly the trees of the grammar. A well-typed tree of an unknown kind is refused
    with that kind, and one of a known kind with the first member that it lacks. -/
theorem read_takes_documents (v : Json) {room : Nat} (hroom : v.depth ≤ room) :
    ((∃ c, read room (.ofJson v) = .ok c) ↔ Document v) ∧
    ∀ kind members, WellTyped v kind members →
      (requiredMembers kind = none →
        read room (.ofJson v) = .error (.mismatch (.refused (.unknownClauseKind kind)))) ∧
      ∀ required name, requiredMembers kind = some required →
        required.find? (fun name => !Json.given members name) = some name →
        read room (.ofJson v) = .error (.mismatch (.refused
          (.invalidClause kind ("missing field `" ++ name ++ "`")))) := by
  refine ⟨⟨document_of_takes, fun h => h.takes hroom⟩, ?_⟩
  intro kind members hwelltyped
  obtain ⟨l, hl, rfl, hgives⟩ :=
    hwelltyped.exists_readLoose hroom fun r j _ hj hdepth => hj.takes hdepth
  rw [read_of_readLoose hl]
  obtain ⟨hnone, herror⟩ | ⟨required, hrequired, houtcome⟩ := ofLoose_outcome hgives
  · refine ⟨fun _ => check_of_error herror, fun required name hrequired => ?_⟩
    rw [hnone] at hrequired
    cases hrequired
  · refine ⟨fun hnone => ?_, fun required' name hrequired' hfind => ?_⟩
    · rw [hrequired] at hnone
      cases hnone
    · obtain rfl : required = required' := Option.some.inj (hrequired.symm.trans hrequired')
      obtain ⟨name', hfind', herror⟩ | ⟨hgiven, _⟩ := houtcome
      · obtain rfl : name = name' := Option.some.inj (hfind.symm.trans hfind')
        exact check_of_error herror
      · have hmissing := List.find?_some hfind
        rw [hgiven name (List.mem_of_find?_eq_some hfind)] at hmissing
        cases hmissing

/-- A group with a member that no clause has, and a comparison in it that is written as a list. -/
def Sample.group : Json :=
  .object [("note", .array []), ("left", .null),
    ("conditions", .array [.array [.string "where", .string "age",
      .object [("right", .object [("values", .array [.null])]),
        ("operator", .object [("oneOf", .null)])], .null, .null, .null]]),
    ("type", .string "and")]

/-- The members of a well-typed tree of no kind. -/
def Sample.unknown : List (String × Json) :=
  [("type", .string "sql"), ("table", .string "users")]

/-- The members of a join whose table is null and whose conditions are absent. -/
def Sample.tableless : List (String × Json) :=
  [("type", .string "on"), ("table", .null)]

theorem read_takes_documents_samples :
    Document Sample.group ∧
    read 3 (.ofJson (.object Sample.unknown)) =
      .error (.mismatch (.refused (.unknownClauseKind "sql"))) ∧
    read 3 (.ofJson (.object Sample.tableless)) =
      .error (.mismatch (.refused (.invalidClause "on" "missing field `table`"))) := by
  refine ⟨?_, ?_, ?_⟩
  · exact (@read_takes_documents Sample.group 6 (by decide)).1.1 ⟨_, rfl⟩
  · have hwelltyped : WellTyped (.object Sample.unknown) "sql" Sample.unknown := by
      refine .intro (.object (by decide)) rfl nofun nofun ?_ nofun nofun
      exact fun j hj => .inr ⟨"users", Option.some.inj hj.symm⟩
    exact ((@read_takes_documents (.object Sample.unknown) 3 (by decide)).2 _ _ hwelltyped).1 rfl
  · have hwelltyped : WellTyped (.object Sample.tableless) "on" Sample.tableless := by
      refine .intro (.object (by decide)) rfl nofun nofun ?_ nofun nofun
      exact fun j hj => .inl (Option.some.inj hj.symm)
    exact ((@read_takes_documents (.object Sample.tableless) 3 (by decide)).2 _ _
      hwelltyped).2 _ _ rfl rfl

end Clause

end DocQuery
