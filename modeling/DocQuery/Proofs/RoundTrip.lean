-- SUMMARY: Reading a written clause gives the clause back, up to floats that JSON has no number for.
import DocQuery.Decode.Clause
import DocQuery.Proofs.Nesting
import DocQuery.Proofs.Outcome

/-!
# Written clauses are read back

A clause is written as a tagged object and read through a loose form that knows every member of
every kind, so tags and member names are stated twice and could drift apart. They have not:
reading what was written gives the clause back. There are two exceptions. A float that is not
finite is written as `null` and comes back as the null literal. A passthrough of `null` is
written as a member that is null, which counts as absent, so the clause is refused.
-/

namespace DocQuery

open Json (Draft Items Members)

/-! ## Containers -/

section Containers

variable {α β σ : Type}

/-- A member of a written object goes to the field that has its name. -/
theorem readMembers_ofList {fields : List (Field σ)} {f : Field σ} {name : String} {j : Json}
    {rest : List (String × Json)} {s : σ} {result : Except ReadError α} {set : α → σ}
    (hf : fields.find? (fun f => f.name == name) = some f) (hs : f.given s = false)
    (hread : f.read (.ofJson j) s = do return set (← result)) :
    readMembers fields (Members.ofList ((name, j) :: rest)) s =
      result.bind fun a => readMembers fields (Members.ofList rest) (set a) := by
  rw [Members.ofList, readMembers]
  simp only [ofText, Json.Lexeme.value, bind, Except.bind, hf, hs, hread]
  cases result with
  | error e => rfl
  | ok a => rfl

theorem readMembers_ofList_ok {fields : List (Field σ)} {f : Field σ} {name : String} {j : Json}
    {rest : List (String × Json)} {s : σ} {result : Except ReadError α} {set : α → σ} {a : α}
    (h : result = .ok a) (hf : fields.find? (fun f => f.name == name) = some f)
    (hs : f.given s = false) (hread : f.read (.ofJson j) s = do return set (← result)) :
    readMembers fields (Members.ofList ((name, j) :: rest)) s =
      readMembers fields (Members.ofList rest) (set a) := by
  rw [readMembers_ofList hf hs hread, h]
  rfl

/-- A written list is read item by item, and refused if one of its items is. -/
theorem readItems_ofList {read : Draft → Except ReadError β} {write : α → Json}
    {result : α → β} {refused : α → Bool} {error : ReadError} {as : List α}
    (h : ∀ a ∈ as, read (.ofJson (write a)) =
      if refused a then .error error else .ok (result a)) :
    readItems read (Items.ofList (as.map write)) =
      if as.any refused then .error error else .ok (as.map result) := by
  induction as with
  | nil => rfl
  | cons a as ih =>
    obtain ⟨ha, has⟩ := List.forall_mem_cons.1 h
    rw [List.map_cons, Items.ofList, readItems, ha, ih has, List.any_cons]
    cases refused a with
    | true => rfl
    | false =>
      cases as.any refused with
      | true => rfl
      | false => rfl

theorem readItems_ofList_ok {read : Draft → Except ReadError β} {write : α → Json}
    {result : α → β} {as : List α} (h : ∀ a ∈ as, read (.ofJson (write a)) = .ok (result a)) :
    readItems read (Items.ofList (as.map write)) = .ok (as.map result) := by
  have hread := @readItems_ofList α β read write result (fun _ => false) (.text .malformed) as h
  simpa using hread

/-- A written choice is read by the reader of its content. -/
theorem readChoice_ofJson {choices : List (String × α)} {bare : α → Except ReadError β}
    {content : α → Draft → Except ReadError β} {name : String} {choice : α} {j : Json}
    (h : choiceOfName choices name = .ok choice) :
    readChoice choices bare (some content) (.ofJson (.object [(name, j)])) =
      content choice (.ofJson j) := by
  rw [Draft.ofJson, Members.ofList, Members.ofList]
  simp only [readChoice, ofText, Json.Lexeme.value, bind, Except.bind, h]
  cases content choice (.ofJson j) with
  | error e => rfl
  | ok b => rfl

end Containers

/-! ## Literals -/

/-- The literal as JSON can hold it: a float that is not finite becomes null. -/
def Literal.toFinite : Literal → Literal
  | .float x => if x.isFinite then .float x else .null
  | v => v

private theorem Literal.ofInt_toInt (n : Int64) : Literal.ofInt n.toInt = .int n := by
  have hmin : Int64.minValue.toInt ≤ n.toInt := Int64.le_iff_toInt_le.1 (Int64.minValue_le n)
  have hmax : n.toInt ≤ Int64.maxValue.toInt := Int64.le_iff_toInt_le.1 (Int64.le_maxValue n)
  simp only [Literal.ofInt, hmin, hmax, decide_true, Bool.and_self, if_true, Int64.ofInt_toInt]

theorem Literal.ofJson?_toJson (v : Literal) : Literal.ofJson? v.toJson = some v.toFinite := by
  cases v with
  | null => rfl
  | bool b => rfl
  | int n => exact congrArg some (Literal.ofInt_toInt n)
  | float x =>
    rw [Literal.toJson, Literal.toFinite]
    split
    · rfl
    · rfl
  | text s => rfl

@[simp] theorem Literal.depth_toJson (v : Literal) : v.toJson.depth = 0 := by
  cases v with
  | float x =>
    rw [Literal.toJson]
    split
    · rfl
    · rfl
  | _ => rfl

theorem Literal.read_toJson (v : Literal) (room : Nat) :
    Literal.read room (.ofJson v.toJson) = .ok v.toFinite := by
  have hjson := Draft.toJson_ofJson v.toJson (v.depth_toJson ▸ Nat.zero_le room)
  unfold Literal.read
  rw [hjson]
  simp only [ofText, bind, Except.bind, Literal.ofJson?_toJson]

/-! ## Comparisons -/

def Operand.toFinite : Operand → Operand
  | .value v => .value v.toFinite
  | .values vs => .values (vs.map Literal.toFinite)
  | .column name => .column name

def Operand.literals : Operand → List Literal
  | .value v => [v]
  | .values vs => vs
  | .column _ => []

def Comparison.toFinite (c : Comparison) : Comparison :=
  { c with right := c.right.toFinite }

theorem Operator.read_name (op : Operator) (room : Nat) :
    Operator.read room (.ofJson (.string op.name)) = .ok op := by
  cases op <;> rfl

theorem Operand.read_toJson (o : Operand) {room : Nat} (h : o.toJson.depth ≤ room) :
    Operand.read room (.ofJson o.toJson) = .ok o.toFinite := by
  cases room with
  | zero => cases o <;> exact absurd h (Nat.not_succ_le_zero _)
  | succ room =>
    unfold Operand.read
    cases o with
    | value v =>
      refine (readChoice_ofJson rfl).trans ?_
      rw [Operand.readContent, Literal.read_toJson]
      rfl
    | values vs =>
      refine (readChoice_ofJson rfl).trans ?_
      cases room with
      | zero => exact absurd (Nat.le_of_succ_le_succ h) (by simp [Json.depth, Json.depthMembers])
      | succ room =>
        change (readItems (Literal.read room) (Items.ofList (vs.map Literal.toJson))).map _ = _
        rw [readItems_ofList_ok fun v _ => v.read_toJson room]
        rfl
    | column name => rfl

theorem Comparison.read_toJson (c : Comparison) {room : Nat} (h : c.toJson.depth ≤ room) :
    Comparison.read room (.ofJson c.toJson) = .ok c.toFinite := by
  cases room with
  | zero => exact absurd h (Nat.not_succ_le_zero _)
  | succ room =>
    have hright : c.right.toJson.depth ≤ room := by
      simpa [Comparison.toJson, Json.depth, Json.depthMembers] using h
    have hread : readRecord "struct Comparison" (inside (room + 1) Comparison.fields) {}
        (.ofJson c.toJson) = .ok ⟨c.operator, c.right.toFinite⟩ := by
      change readMembers (Comparison.fields room) (Members.ofList _) {} = _
      refine (readMembers_ofList_ok (Operator.read_name c.operator room) rfl rfl rfl).trans ?_
      exact (readMembers_ofList_ok (Operand.read_toJson c.right hright) rfl rfl rfl).trans rfl
    unfold Comparison.read
    rw [hread]
    rfl

/-! ## Expressions -/

namespace Expression

/-- Whether the expression is nothing but a null. -/
def isNull (e : Expression) : Bool :=
  match e.json with
  | .null => true
  | _ => false

private theorem isNull_iff {e : Expression} : e.isNull = true ↔ e.json = .null := by
  unfold isNull
  split
  next h => exact iff_of_true rfl h
  next h => exact iff_of_false Bool.false_ne_true h

/-- An expression is sorted, so reading it does not move its members. -/
theorem read_ofJson (e : Expression) {room : Nat} (h : e.json.depth ≤ room) :
    Expression.read room (.ofJson e.json) = .ok e := by
  obtain ⟨json, sorted⟩ := e
  unfold Expression.read
  rw [Draft.toJson_ofJson json h]
  simp only [Except.map, ofText, Expression.ofJson, Json.sort_eq_self sorted]

/-- Where an expression may be missing, a null is taken for a missing one. -/
theorem readOption_ofJson (e : Expression) {room : Nat} (h : e.json.depth ≤ room) :
    readOption (Expression.read room) (.ofJson e.json) =
      .ok (if e.isNull then none else some e) := by
  have hread := e.read_ofJson h
  unfold isNull
  cases hjson : e.json with
  | null => rfl
  | _ =>
    rw [hjson, Draft.ofJson] at hread
    simp [readOption, Draft.ofJson, hread, Except.map]

end Expression

/-! ## Clauses -/

namespace Clause

mutual

/-- The clause with every literal as JSON can hold it. -/
def toFinite : Clause → Clause
  | .compare column comparison => .compare column comparison.toFinite
  | .group connective conditions => .group connective (toFiniteList conditions)
  | .on table conditions => .on table (toFiniteList conditions)
  | .raw expression => .raw expression

def toFiniteList : List Clause → List Clause
  | [] => []
  | c :: cs => toFinite c :: toFiniteList cs

end

section Collect

variable {α : Type} (ofComparison : Comparison → List α) (ofExpression : Expression → List α)

mutual

/-- Gathers from the comparisons and the expressions of a clause, at any depth and in order. -/
def collect : Clause → List α
  | .compare _ comparison => ofComparison comparison
  | .group _ conditions => collectList conditions
  | .on _ conditions => collectList conditions
  | .raw expression => ofExpression expression

def collectList : List Clause → List α
  | [] => []
  | c :: cs => collect c ++ collectList cs

end

theorem collectList_eq_flatMap (cs : List Clause) :
    collectList ofComparison ofExpression cs =
      cs.flatMap (collect ofComparison ofExpression) := by
  induction cs with
  | nil => rfl
  | cons c cs ih => rw [collectList, ih, List.flatMap_cons]

end Collect

/-- The expressions that a clause passes through. -/
def passthroughs : Clause → List Expression :=
  collect (fun _ => []) fun e => [e]

/-- The literals that a clause compares with. -/
def literals : Clause → List Literal :=
  collect (fun comparison => comparison.right.literals) fun _ => []

@[simp] theorem passthroughs_group (connective : Connective) (cs : List Clause) :
    passthroughs (.group connective cs) = cs.flatMap passthroughs :=
  collectList_eq_flatMap _ _ cs

@[simp] theorem passthroughs_on (table : String) (cs : List Clause) :
    passthroughs (.on table cs) = cs.flatMap passthroughs :=
  collectList_eq_flatMap _ _ cs

@[simp] theorem literals_group (connective : Connective) (cs : List Clause) :
    literals (.group connective cs) = cs.flatMap literals :=
  collectList_eq_flatMap _ _ cs

@[simp] theorem literals_on (table : String) (cs : List Clause) :
    literals (.on table cs) = cs.flatMap literals :=
  collectList_eq_flatMap _ _ cs

theorem listToJson_eq_map (cs : List Clause) : listToJson cs = cs.map toJson := by
  induction cs with
  | nil => rfl
  | cons c cs ih => rw [listToJson, ih, List.map_cons]

theorem toFiniteList_eq_map (cs : List Clause) : toFiniteList cs = cs.map toFinite := by
  induction cs with
  | nil => rfl
  | cons c cs ih => rw [toFiniteList, ih, List.map_cons]

/-! ### The loose form -/

/-- The reader in the form of the other readers of records: its conditions are read by itself,
    inside a list inside the object. -/
theorem read_eq (room : Nat) (d : Draft) :
    read room d = (do
      let p ← readRecord "struct RawClause"
        (inside room fun room => fields room (readList (inside room read))) {} d
      (← p.finish).check) := by
  cases room with
  | zero => rfl
  | succ room =>
    cases room with
    | zero => rfl
    | succ room => rfl

/-- A clause is read from the members of its object. -/
theorem read_object (room : Nat) (members : Members) :
    read (room + 1) (.object members) =
      (readMembers (fields room (readList (inside room read))) members {}).bind fun p =>
        p.finish.bind Loose.check := by
  rw [read_eq]
  rfl

private theorem read_compare (column : String) (comparison : Comparison) (room : Nat) :
    read (room + 1) (.ofJson (toJson (.compare column comparison))) =
      (Comparison.read room (.ofJson comparison.toJson)).map (.compare column) := by
  have hkind : readString (.ofJson (.string "where")) = .ok "where" := rfl
  have hleft : readOption readString (.ofJson (.string column)) = .ok (some column) := rfl
  have hparts : readMembers (fields room (readList (inside room read)))
      (Members.ofList [("type", .string "where"), ("left", .string column),
        ("comparison", comparison.toJson)]) {} =
      (Comparison.read room (.ofJson comparison.toJson)).map fun comparison =>
        { kind := some "where", left := some (some column),
          comparison := some (some comparison) } := by
    refine (readMembers_ofList_ok hkind rfl rfl rfl).trans ?_
    refine (readMembers_ofList_ok hleft rfl rfl rfl).trans ?_
    refine (readMembers_ofList rfl rfl rfl).trans ?_
    change ((Comparison.read room (.ofJson comparison.toJson)).map some).bind _ = _
    cases Comparison.read room (.ofJson comparison.toJson) with
    | error e => rfl
    | ok comparison => rfl
  rw [toJson, Draft.ofJson, read_object, hparts]
  cases Comparison.read room (.ofJson comparison.toJson) with
  | error e => rfl
  | ok comparison => rfl

/-- Written conditions are read by the reader of clauses, two containers further in. -/
theorem readMembers_conditions (cs : List Clause) (room : Nat) {p : Parts}
    (hp : p.conditions.isSome = false) :
    readMembers (fields (room + 1) (readList (inside (room + 1) read)))
        (Members.ofList [("conditions", .array (cs.map toJson))]) p =
      (readItems (read room) (Items.ofList (cs.map toJson))).map fun conditions =>
        { p with conditions := some (some conditions) } := by
  refine (readMembers_ofList rfl hp rfl).trans ?_
  change ((readItems (read room) (Items.ofList (cs.map toJson))).map some).bind _ = _
  cases readItems (read room) (Items.ofList (cs.map toJson)) with
  | error e => rfl
  | ok conditions => rfl

private theorem read_group (connective : Connective) (cs : List Clause) (room : Nat) :
    read (room + 2) (.ofJson (toJson (.group connective cs))) =
      (readItems (read room) (Items.ofList (cs.map toJson))).map (.group connective) := by
  have hkind : readString (.ofJson (.string connective.name)) = .ok connective.name := rfl
  have hparts : readMembers (fields (room + 1) (readList (inside (room + 1) read)))
      (Members.ofList [("type", .string connective.name),
        ("conditions", .array (cs.map toJson))]) {} =
      (readItems (read room) (Items.ofList (cs.map toJson))).map fun conditions =>
        { kind := some connective.name, conditions := some (some conditions) } := by
    refine (readMembers_ofList_ok hkind rfl rfl rfl).trans ?_
    exact readMembers_conditions cs room rfl
  rw [toJson, listToJson_eq_map, Draft.ofJson, read_object, hparts]
  cases readItems (read room) (Items.ofList (cs.map toJson)) with
  | error e => rfl
  | ok conditions =>
    cases connective with
    | and => rfl
    | or => rfl

private theorem read_on (table : String) (cs : List Clause) (room : Nat) :
    read (room + 2) (.ofJson (toJson (.on table cs))) =
      (readItems (read room) (Items.ofList (cs.map toJson))).map (.on table) := by
  have hkind : readString (.ofJson (.string "on")) = .ok "on" := rfl
  have htable : readOption readString (.ofJson (.string table)) = .ok (some table) := rfl
  have hparts : readMembers (fields (room + 1) (readList (inside (room + 1) read)))
      (Members.ofList [("type", .string "on"), ("table", .string table),
        ("conditions", .array (cs.map toJson))]) {} =
      (readItems (read room) (Items.ofList (cs.map toJson))).map fun conditions =>
        { kind := some "on", table := some (some table),
          conditions := some (some conditions) } := by
    refine (readMembers_ofList_ok hkind rfl rfl rfl).trans ?_
    refine (readMembers_ofList_ok htable rfl rfl rfl).trans ?_
    exact readMembers_conditions cs room rfl
  rw [toJson, listToJson_eq_map, Draft.ofJson, read_object, hparts]
  cases readItems (read room) (Items.ofList (cs.map toJson)) with
  | error e => rfl
  | ok conditions => rfl

/-- The refusal of a clause without the expression to pass through. -/
def missingExpression : ReadError :=
  .mismatch (.refused (.invalidClause "loki" "missing field `expr`"))

/-- A null that is passed through counts as a missing expression. -/
theorem read_raw (e : Expression) {room : Nat} (h : e.json.depth ≤ room) :
    read (room + 1) (.ofJson (toJson (.raw e))) =
      if e.isNull then .error missingExpression else .ok (.raw e) := by
  have hkind : readString (.ofJson (.string "loki")) = .ok "loki" := rfl
  have hparts : readMembers (fields room (readList (inside room read)))
      (Members.ofList [("type", .string "loki"), ("expr", e.json)]) {} =
      .ok { kind := some "loki", expr := some (if e.isNull then none else some e) } := by
    refine (readMembers_ofList_ok hkind rfl rfl rfl).trans ?_
    exact (readMembers_ofList_ok (e.readOption_ofJson h) rfl rfl rfl).trans rfl
  rw [toJson, Draft.ofJson, read_object, hparts]
  cases e.isNull with
  | true => rfl
  | false => rfl

/-! ### Reading back -/

@[simp] theorem depth_toJson_group (connective : Connective) (cs : List Clause) :
    (toJson (.group connective cs)).depth = Json.depthItems (cs.map toJson) + 2 := by
  simp [toJson, listToJson_eq_map, Json.depth, Json.depthMembers]

@[simp] theorem depth_toJson_on (table : String) (cs : List Clause) :
    (toJson (.on table cs)).depth = Json.depthItems (cs.map toJson) + 2 := by
  simp [toJson, listToJson_eq_map, Json.depth, Json.depthMembers]

/-- What reading a written clause gives: its finite form, unless it passes a null through. -/
def ReadsBack (room : Nat) (c : Clause) : Prop :=
  read room (.ofJson c.toJson) =
    if c.passthroughs.any Expression.isNull then .error missingExpression else .ok c.toFinite

private theorem readItems_toJson {cs : List Clause} {room : Nat} (h : ∀ c ∈ cs, ReadsBack room c) :
    readItems (read room) (Items.ofList (cs.map toJson)) =
      if (cs.flatMap passthroughs).any Expression.isNull then .error missingExpression
      else .ok (toFiniteList cs) := by
  rw [List.any_flatMap, toFiniteList_eq_map]
  exact readItems_ofList h

theorem readsBack (c : Clause) {room : Nat} (h : c.toJson.depth ≤ room) : ReadsBack room c := by
  induction c generalizing room with
  | compare column comparison =>
    cases room with
    | zero => exact absurd h (Nat.not_succ_le_zero _)
    | succ room =>
      have hdepth : comparison.toJson.depth ≤ room := by
        simpa [toJson, Json.depth, Json.depthMembers] using h
      unfold ReadsBack
      rw [read_compare, comparison.read_toJson hdepth]
      rfl
  | group connective cs ih =>
    -- The object and the list of conditions take two containers, the rest is for the conditions.
    rw [depth_toJson_group] at h
    obtain ⟨room, rfl⟩ := Nat.exists_eq_add_of_le' (Nat.le_of_add_left_le h)
    have hdepth := Json.depthItems_le.1 (Nat.le_of_add_le_add_right h)
    have hcs : ∀ c ∈ cs, ReadsBack room c := fun c hc =>
      ih c hc (hdepth _ (List.mem_map_of_mem hc))
    unfold ReadsBack
    rw [read_group, readItems_toJson hcs, apply_ite (Except.map _), passthroughs_group]
    rfl
  | on table cs ih =>
    rw [depth_toJson_on] at h
    obtain ⟨room, rfl⟩ := Nat.exists_eq_add_of_le' (Nat.le_of_add_left_le h)
    have hdepth := Json.depthItems_le.1 (Nat.le_of_add_le_add_right h)
    have hcs : ∀ c ∈ cs, ReadsBack room c := fun c hc =>
      ih c hc (hdepth _ (List.mem_map_of_mem hc))
    unfold ReadsBack
    rw [read_on, readItems_toJson hcs, apply_ite (Except.map _), passthroughs_on]
    rfl
  | raw e =>
    cases room with
    | zero => exact absurd h (Nat.not_succ_le_zero _)
    | succ room =>
      have hdepth : e.json.depth ≤ room := by
        simpa [toJson, Json.depth, Json.depthMembers] using h
      unfold ReadsBack
      rw [read_raw e hdepth]
      simp [passthroughs, collect, toFinite]

end Clause

/-! ## Clauses without infinities -/

/-- The literal is no float that JSON lacks a number for. -/
def Literal.IsFinite (v : Literal) : Prop :=
  ∀ x, v = .float x → x.isFinite = true

theorem Literal.toFinite_eq_self {v : Literal} (h : v.IsFinite) : v.toFinite = v := by
  cases v with
  | float x => rw [Literal.toFinite, if_pos (h x rfl)]
  | _ => rfl

private theorem Operand.toFinite_eq_self {o : Operand} (h : ∀ v ∈ o.literals, v.IsFinite) :
    o.toFinite = o := by
  cases o with
  | value v =>
    exact congrArg Operand.value (Literal.toFinite_eq_self (h v List.mem_cons_self))
  | values vs =>
    have hvs : vs.map Literal.toFinite = vs.map id :=
      List.map_congr_left fun v hv => Literal.toFinite_eq_self (h v hv)
    rw [Operand.toFinite, hvs, List.map_id]
  | column name => rfl

namespace Clause

private theorem toFiniteList_eq_self {cs : List Clause} (h : ∀ c ∈ cs, c.toFinite = c) :
    toFiniteList cs = cs := by
  have hcs : cs.map toFinite = cs.map id := List.map_congr_left h
  rw [toFiniteList_eq_map, hcs, List.map_id]

theorem toFinite_eq_self {c : Clause} (h : ∀ v ∈ c.literals, v.IsFinite) : c.toFinite = c := by
  induction c with
  | compare column comparison =>
    have hright := Operand.toFinite_eq_self h
    rw [toFinite, Comparison.toFinite, hright]
  | group connective cs ih =>
    rw [literals_group] at h
    rw [toFinite, toFiniteList_eq_self fun c hc =>
      ih c hc fun v hv => h v (List.mem_flatMap_of_mem hc hv)]
  | on table cs ih =>
    rw [literals_on] at h
    rw [toFinite, toFiniteList_eq_self fun c hc =>
      ih c hc fun v hv => h v (List.mem_flatMap_of_mem hc hv)]
  | raw e => rfl

theorem read_toJson_of_ne_null {c : Clause} {room : Nat} (h : c.toJson.depth ≤ room)
    (hall : ∀ e ∈ c.passthroughs, e.json ≠ .null) :
    read room (.ofJson c.toJson) = .ok c.toFinite := by
  have hany : c.passthroughs.any Expression.isNull = false :=
    List.any_eq_false.2 fun e he => mt Expression.isNull_iff.1 (hall e he)
  have hback : ReadsBack room c := readsBack c h
  unfold ReadsBack at hback
  rw [hback, hany]
  rfl

private theorem read_toJson_of_null {c : Clause} {room : Nat} (h : c.toJson.depth ≤ room)
    {e : Expression} (he : e ∈ c.passthroughs) (hjson : e.json = .null) :
    read room (.ofJson c.toJson) = .error missingExpression := by
  have hany : c.passthroughs.any Expression.isNull = true :=
    List.any_eq_true.2 ⟨e, he, Expression.isNull_iff.2 hjson⟩
  have hback : ReadsBack room c := readsBack c h
  unfold ReadsBack at hback
  rw [hback, hany]
  rfl

/-- Reading a written clause, with room for as many containers as it opens: it comes back with its
    floats made finite, so unchanged if they were, unless a null is passed through somewhere. -/
theorem read_written (c : Clause) {room : Nat} (h : c.toJson.depth ≤ room) :
    ((∀ e ∈ c.passthroughs, e.json ≠ .null) →
      read room (.ofJson c.toJson) = .ok c.toFinite) ∧
    ((∀ v ∈ c.literals, v.IsFinite) → c.toFinite = c) ∧
    ((∃ e ∈ c.passthroughs, e.json = .null) →
      read room (.ofJson c.toJson) = .error missingExpression) := by
  refine ⟨fun hall => read_toJson_of_ne_null h hall, toFinite_eq_self, ?_⟩
  rintro ⟨e, he, hjson⟩
  exact read_toJson_of_null h he hjson

end Clause

/-- Under a group inside a join, an infinite float and an expression that is passed through. -/
def Sample.budgets : Clause :=
  .on "projects" [.group .or [
    .compare "budget" ⟨.oneOf, .values [.float (1.0 / 0.0), .int 3, .float 2.5]⟩,
    .raw (.ofJson (.object [("owner", .null)]))]]

/-- A null that is passed through two levels down, beside a clause that can be read. -/
def Sample.nothing : Clause :=
  .group .and [.compare "name" ⟨.eq, .value (.text "a")⟩, .on "projects" [.raw (.ofJson .null)]]

theorem Clause.read_written_samples :
    Sample.budgets.toJson.depth ≤ 8 ∧
    Clause.read 8 (.ofJson Sample.budgets.toJson) = .ok (.on "projects" [.group .or [
      .compare "budget" ⟨.oneOf, .values [.null, .int 3, .float 2.5]⟩,
      .raw (.ofJson (.object [("owner", .null)]))]]) ∧
    Sample.nothing.toJson.depth ≤ 8 ∧
    Clause.read 8 (.ofJson Sample.nothing.toJson) = .error missingExpression := by
  have hbudgets : Sample.budgets.toJson.depth ≤ 8 := by decide +kernel
  have hnothing : Sample.nothing.toJson.depth ≤ 8 := by decide
  have hinf : (1.0 / 0.0 : Float).isFinite = false := by decide +kernel
  have hfin : (2.5 : Float).isFinite = true := by decide +kernel
  refine ⟨hbudgets, ((read_written _ hbudgets).1 ?_).trans ?_,
    hnothing, (read_written _ hnothing).2.2 ?_⟩
  · intro e he
    cases he with
    | head => nofun
    | tail _ he => nomatch he
  · simp [Sample.budgets, toFinite, toFiniteList, Comparison.toFinite, Operand.toFinite,
      Literal.toFinite, hinf, hfin]
  · exact ⟨_, List.mem_cons_self, rfl⟩

end DocQuery
