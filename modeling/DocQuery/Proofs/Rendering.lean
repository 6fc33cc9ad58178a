-- SUMMARY: Compiled queries are told apart by their JSON, whatever their tables and columns are called.
import DocQuery.Proofs.RoundTrip

/-!
# Rendering

The names of columns become keys of JSON objects, next to the keywords of the engine, and a column
may be called like a keyword. All the same no two compiled queries are rendered alike, not even
with the members of every object sorted: what stands behind a key tells a test from a connective
and from a join, and the keyword of a test tells which test it is.

Two things could be taken for another predicate, and neither is compiled from clauses without
passthroughs: an expression of the engine, and a test that a field is absent, which is how the
predicate that always holds is rendered. `Legible` leaves out just these, and floats that JSON has
no number for.
-/

namespace DocQuery

open Json (sort sortItems sortValues sortMembers insertMember)

private theorem Json.sort_singleton (key : String) (j : Json) :
    (Json.object [(key, j)]).sort = .object [(key, j.sort)] := by
  rw [sort, sortValues, sortValues, sortMembers, List.foldl, List.foldl, insertMember]

private theorem Json.object_singleton_inj {key key' : String} {j j' : Json} :
    Json.object [(key, j)] = .object [(key', j')] ↔ key = key' ∧ j = j' := by
  simp

/-- What one function tells of the items of two lists, it tells of the lists. -/
theorem map_eq_map_of_map_eq {α β γ : Type} {f : α → β} {g : α → γ} {as bs : List α}
    (h : ∀ a ∈ as, ∀ b ∈ bs, f a = f b → g a = g b) (hf : as.map f = bs.map f) :
    as.map g = bs.map g := by
  induction as generalizing bs with
  | nil =>
    cases bs with
    | nil => rfl
    | cons b bs => cases hf
  | cons a as ih =>
    cases bs with
    | nil => cases hf
    | cons b bs =>
      obtain ⟨hhead, htail⟩ := List.cons.inj hf
      have ha := h a List.mem_cons_self b List.mem_cons_self hhead
      have has := ih (fun a ha b hb =>
        h a (List.mem_cons_of_mem _ ha) b (List.mem_cons_of_mem _ hb)) htail
      rw [List.map_cons, List.map_cons, ha, has]

private theorem eq_of_map_eq {α β : Type} {f : α → β} {as bs : List α}
    (h : ∀ a ∈ as, ∀ b ∈ bs, f a = f b → a = b) (hf : as.map f = bs.map f) : as = bs := by
  simpa using map_eq_map_of_map_eq (g := id) h hf

/-! ## Literals -/

namespace Literal

@[simp] theorem sort_toJson (v : Literal) : v.toJson.sort = v.toJson := by
  cases v with
  | float x =>
    rw [toJson]
    split
    · rfl
    · rfl
  | null | bool | int | text => rfl

private theorem toFinite_eq_of_toJson {v w : Literal} (h : v.toJson = w.toJson) :
    v.toFinite = w.toFinite := by
  have hread := congrArg ofJson? h
  rw [ofJson?_toJson, ofJson?_toJson] at hread
  exact Option.some.inj hread

private theorem IsFinite.eq_of_toJson {v w : Literal} (hv : v.IsFinite) (hw : w.IsFinite)
    (h : v.toJson = w.toJson) : v = w := by
  have hfinite := toFinite_eq_of_toJson h
  rwa [toFinite_eq_self hv, toFinite_eq_self hw] at hfinite

private theorem eq_of_map_toJson {vs ws : List Literal} (hvs : ∀ v ∈ vs, v.IsFinite)
    (hws : ∀ w ∈ ws, w.IsFinite) (h : vs.map toJson = ws.map toJson) : vs = ws :=
  eq_of_map_eq (fun v hv w hw => (hvs v hv).eq_of_toJson (hws w hw)) h

end Literal

/-! ## Connectives and comparisons -/

theorem Connective.name_injective : Function.Injective Connective.name := by
  intro connective connective' h
  cases connective <;> cases connective' <;> simp [name] at h ⊢

theorem Connective.keyword_injective : Function.Injective Connective.keyword := by
  intro connective connective' h
  cases connective <;> cases connective' <;> simp [keyword] at h ⊢

private theorem Operand.sort_toJson (o : Operand) : o.toJson.sort = o.toJson := by
  cases o with
  | value v => rw [toJson, Json.sort_singleton, Literal.sort_toJson]
  | values vs => simp [toJson, Json.sort_singleton, sort, Json.sortItems_eq_map]
  | column name => rfl

private theorem Comparison.sort_toJson (c : Comparison) : c.toJson.sort = c.toJson := by
  simp only [toJson, sort, sortValues, sortMembers, List.foldl, insertMember, String.reduceLT,
    String.reduceEq, ↓reduceIte, Operand.sort_toJson]

/-- A comparison is read back from its JSON, so it is known by it. -/
theorem Comparison.toFinite_eq_of_toJson {c d : Comparison} (h : c.toJson = d.toJson) :
    c.toFinite = d.toFinite := by
  have hread := c.read_toJson (Nat.le_refl _)
  rw [h, d.read_toJson (Nat.le_refl _)] at hread
  exact (Except.ok.inj hread).symm

/-! ## Clauses -/

namespace Clause

private theorem sort_compare (column : String) (comparison : Comparison) :
    (toJson (.compare column comparison)).sort =
      .object [("comparison", comparison.toJson), ("left", .string column),
        ("type", .string "where")] := by
  simp only [toJson, sort, sortValues, sortMembers, List.foldl, insertMember, String.reduceLT,
    ↓reduceIte, Comparison.sort_toJson]

private theorem sort_group (connective : Connective) (cs : List Clause) :
    (toJson (.group connective cs)).sort =
      .object [("conditions", .array (cs.map fun c => c.toJson.sort)),
        ("type", .string connective.name)] := by
  simp only [toJson, sort, sortValues, sortMembers, List.foldl, insertMember, String.reduceLT,
    ↓reduceIte, listToJson_eq_map, Json.sortItems_eq_map, List.map_map,
    Function.comp_def]

private theorem sort_on (table : String) (cs : List Clause) :
    (toJson (.on table cs)).sort =
      .object [("conditions", .array (cs.map fun c => c.toJson.sort)),
        ("table", .string table), ("type", .string "on")] := by
  simp only [toJson, sort, sortValues, sortMembers, List.foldl, insertMember, String.reduceLT,
    ↓reduceIte, listToJson_eq_map, Json.sortItems_eq_map, List.map_map,
    Function.comp_def]

private theorem sort_raw (expression : Expression) :
    (toJson (.raw expression)).sort =
      .object [("expr", expression.json), ("type", .string "loki")] := by
  simp only [toJson, sort, sortValues, sortMembers, List.foldl, insertMember, String.reduceLT,
    ↓reduceIte, Json.sort_eq_self expression.sorted]

/-- A clause is known by its JSON up to floats that JSON has no number for. -/
theorem toFinite_eq_of_sort {c d : Clause} (h : c.toJson.sort = d.toJson.sort) :
    c.toFinite = d.toFinite := by
  induction c generalizing d with
  | compare column comparison =>
    cases d with
    | compare column' comparison' =>
      simp only [sort_compare, Json.object.injEq, List.cons.injEq, Prod.mk.injEq, true_and,
        and_true, Json.string.injEq] at h
      obtain ⟨hcomparison, rfl⟩ := h
      rw [toFinite, toFinite, Comparison.toFinite_eq_of_toJson hcomparison]
    | _ => simp [sort_compare, sort_group, sort_on, sort_raw] at h
  | group connective cs ih =>
    cases d with
    | group connective' ds =>
      simp only [sort_group, Json.object.injEq, List.cons.injEq, Prod.mk.injEq, true_and,
        and_true, Json.string.injEq, Json.array.injEq] at h
      obtain ⟨hconditions, hname⟩ := h
      have hlist := map_eq_map_of_map_eq (fun c hc d _ => ih c hc) hconditions
      rw [toFinite, toFinite, toFiniteList_eq_map, toFiniteList_eq_map, hlist,
        Connective.name_injective hname]
    | _ => simp [sort_compare, sort_group, sort_on, sort_raw] at h
  | on table cs ih =>
    cases d with
    | on table' ds =>
      simp only [sort_on, Json.object.injEq, List.cons.injEq, Prod.mk.injEq, true_and,
        and_true, Json.string.injEq, Json.array.injEq] at h
      obtain ⟨hconditions, rfl⟩ := h
      have hlist := map_eq_map_of_map_eq (fun c hc d _ => ih c hc) hconditions
      rw [toFinite, toFinite, toFiniteList_eq_map, toFiniteList_eq_map, hlist]
    | _ => simp [sort_compare, sort_group, sort_on, sort_raw] at h
  | raw expression =>
    cases d with
    | raw expression' =>
      obtain ⟨json, sorted⟩ := expression
      obtain ⟨json', sorted'⟩ := expression'
      simp only [sort_raw, Json.object.injEq, List.cons.injEq, Prod.mk.injEq, true_and,
        and_true] at h
      subst h
      rfl
    | _ => simp [sort_compare, sort_group, sort_on, sort_raw] at h

/-- Passes nothing through, and compares with no float that JSON has no number for. -/
def Plain (c : Clause) : Prop :=
  c.passthroughs = [] ∧ ∀ v ∈ c.literals, v.IsFinite

/-- A clause that consists of clauses is plain if these are. -/
theorem plain_of_flatMap {c : Clause} {cs : List Clause}
    (hpassthroughs : c.passthroughs = cs.flatMap passthroughs)
    (hliterals : c.literals = cs.flatMap literals) : c.Plain ↔ ∀ d ∈ cs, d.Plain := by
  rw [Plain, hpassthroughs, hliterals, List.flatMap_eq_nil_iff]
  constructor
  · rintro ⟨hnone, hfinite⟩ d hd
    exact ⟨hnone d hd, fun v hv => hfinite v (List.mem_flatMap_of_mem hd hv)⟩
  · intro hplain
    refine ⟨fun d hd => (hplain d hd).1, fun v hv => ?_⟩
    obtain ⟨d, hd, hv⟩ := List.mem_flatMap.1 hv
    exact (hplain d hd).2 v hv

private theorem plain_group {connective : Connective} {cs : List Clause} :
    (Clause.group connective cs).Plain ↔ ∀ c ∈ cs, c.Plain :=
  plain_of_flatMap (passthroughs_group connective cs) (literals_group connective cs)

private theorem plain_on {table : String} {cs : List Clause} :
    (Clause.on table cs).Plain ↔ ∀ c ∈ cs, c.Plain :=
  plain_of_flatMap (passthroughs_on table cs) (literals_on table cs)

private theorem Plain.eq_of_sort {c d : Clause} (hc : c.Plain) (hd : d.Plain)
    (h : c.toJson.sort = d.toJson.sort) : c = d := by
  have hfinite := toFinite_eq_of_sort h
  rwa [toFinite_eq_self hc.2, toFinite_eq_self hd.2] at hfinite

end Clause

/-! ## Field tests -/

theorem LikePattern.toJson_injective : Function.Injective LikePattern.toJson := by
  intro p p' h
  obtain ⟨source, caseInsensitive⟩ := p
  obtain ⟨source', caseInsensitive'⟩ := p'
  simp only [toJson, Json.array.injEq, List.cons.injEq, Json.string.injEq, and_true] at h
  obtain ⟨rfl, hflags⟩ := h
  cases caseInsensitive <;> cases caseInsensitive' <;> simp [flags] at hflags ⊢

namespace FieldTest

/-- A test without what it is applied to. -/
inductive Head where
  | relate (relator : Relator)
  | among
  | notAmong
  | between
  | regex
  | present
  | not
  | all
deriving DecidableEq

def head : FieldTest → Head
  | .relate relator _ => .relate relator
  | .among _ => .among
  | .notAmong _ => .notAmong
  | .between .. => .between
  | .regex _ => .regex
  | .present _ => .present
  | .not _ => .not
  | .all _ => .all

/-- The head that a keyword stands for. -/
def headOf? : String → Option Head
  | "$aeq" => some (.relate .aeq)
  | "$eq" => some (.relate .eq)
  | "$ne" => some (.relate .ne)
  | "$gt" => some (.relate .gt)
  | "$gte" => some (.relate .gte)
  | "$lt" => some (.relate .lt)
  | "$lte" => some (.relate .lte)
  | "$in" => some .among
  | "$nin" => some .notAmong
  | "$between" => some .between
  | "$regex" => some .regex
  | "$exists" => some .present
  | "$not" => some .not
  | "$and" => some .all
  | _ => none

private theorem headOf?_keyword (t : FieldTest) : headOf? t.keyword = some t.head := by
  cases t with
  | relate relator v => cases relator <;> rfl
  | among | notAmong | between | regex | present | not | all => rfl

/-- The rendering of a test tells its head, and what the head is applied to. -/
theorem head_of_toJson {t u : FieldTest} (h : t.toJson = u.toJson) :
    t.head = u.head ∧ t.content = u.content := by
  simp only [toJson, Json.object.injEq, List.cons.injEq, Prod.mk.injEq, and_true] at h
  obtain ⟨hkeyword, hcontent⟩ := h
  have hhead := congrArg headOf? hkeyword
  rw [headOf?_keyword, headOf?_keyword] at hhead
  exact ⟨Option.some.inj hhead, hcontent⟩

private theorem contents_eq_map (ts : List FieldTest) : contents ts = ts.map toJson := by
  induction ts with
  | nil => rfl
  | cons t ts ih => rw [contents, ih, List.map_cons, toJson]

/-- The tests that their rendering tells apart from all predicates. -/
inductive Legible : FieldTest → Prop where
  | relate (relator : Relator) {v : Literal} : v.IsFinite → Legible (.relate relator v)
  | among {vs : List Literal} : (∀ v ∈ vs, v.IsFinite) → Legible (.among vs)
  | notAmong {vs : List Literal} : (∀ v ∈ vs, v.IsFinite) → Legible (.notAmong vs)
  | between {low high : Literal} : low.IsFinite → high.IsFinite → Legible (.between low high)
  | regex (pattern : LikePattern) : Legible (.regex pattern)
  | not {test : FieldTest} : Legible test → Legible (.not test)
  | all {tests : List FieldTest} : (∀ t ∈ tests, Legible t) → Legible (.all tests)

namespace Legible

private theorem notNull {t : FieldTest} (h : t.Legible) : t.notNull.Legible := by
  refine .all (List.forall_mem_cons.2 ⟨h, List.forall_mem_singleton.2 ?_⟩)
  exact .not (.relate .aeq nofun)

private theorem toJson_ne_present {t : FieldTest} (h : t.Legible) (expected : Bool) :
    t.toJson ≠ (present expected).toJson := by
  intro hjson
  have hhead := (head_of_toJson hjson).1
  cases h <;> cases hhead

/-- No object of a test has more than one member, so there is nothing to sort. -/
theorem sort_toJson {t : FieldTest} (h : t.Legible) : t.toJson.sort = t.toJson := by
  rw [toJson, Json.sort_singleton]
  congr 3
  induction h with
  | relate relator hv => exact Literal.sort_toJson _
  | among hvs | notAmong hvs => simp [content, sort, Json.sortItems_eq_map]
  | between hlow hhigh => simp [content, sort, sortItems]
  | regex pattern => rfl
  | not htest ih => rw [content, Json.sort_singleton, ih]
  | all htests ih =>
    rw [content, sort, contents_eq_map, Json.sortItems_eq_map, List.map_map]
    congr 1
    refine List.map_congr_left fun t ht => ?_
    rw [Function.comp_apply, toJson, Json.sort_singleton, ih t ht]

private theorem eq_of_head {t u : FieldTest} (ht : t.Legible) (hu : u.Legible)
    (hhead : t.head = u.head) (hcontent : t.content = u.content) : t = u := by
  induction ht generalizing u with
  | relate relator hv =>
    cases hu with
    | relate relator' hv' =>
      cases hhead
      rw [hv.eq_of_toJson hv' hcontent]
    | _ => cases hhead
  | among hvs =>
    cases hu with
    | among hvs' => rw [Literal.eq_of_map_toJson hvs hvs' (Json.array.inj hcontent)]
    | _ => cases hhead
  | notAmong hvs =>
    cases hu with
    | notAmong hvs' => rw [Literal.eq_of_map_toJson hvs hvs' (Json.array.inj hcontent)]
    | _ => cases hhead
  | between hlow hhigh =>
    cases hu with
    | between hlow' hhigh' =>
      simp only [content, Json.array.injEq, List.cons.injEq, and_true] at hcontent
      rw [hlow.eq_of_toJson hlow' hcontent.1, hhigh.eq_of_toJson hhigh' hcontent.2]
    | _ => cases hhead
  | regex pattern =>
    cases hu with
    | regex pattern' => rw [LikePattern.toJson_injective hcontent]
    | _ => cases hhead
  | not htest ih =>
    cases hu with
    | not htest' =>
      obtain ⟨hhead, hcontent⟩ := head_of_toJson hcontent
      rw [ih htest' hhead hcontent]
    | _ => cases hhead
  | all htests ih =>
    cases hu with
    | all htests' =>
      simp only [content, contents_eq_map, Json.array.injEq] at hcontent
      rw [eq_of_map_eq (fun t ht u hu h => ?_) hcontent]
      obtain ⟨hhead, hcontent⟩ := head_of_toJson h
      exact ih t ht (htests' u hu) hhead hcontent
    | _ => cases hhead

private theorem eq_of_toJson {t u : FieldTest} (ht : t.Legible) (hu : u.Legible)
    (h : t.toJson = u.toJson) : t = u := by
  obtain ⟨hhead, hcontent⟩ := head_of_toJson h
  exact ht.eq_of_head hu hhead hcontent

end Legible

end FieldTest

/-! ## Predicates -/

namespace Predicate

private theorem listToJson_eq_map (ps : List Predicate) : listToJson ps = ps.map toJson := by
  induction ps with
  | nil => rfl
  | cons p ps ih => rw [listToJson, ih, List.map_cons]

private theorem sort_field (column : String) {test : FieldTest} (h : test.Legible) :
    (toJson (.field column test)).sort = .object [(column, test.toJson)] := by
  rw [toJson, Json.sort_singleton, h.sort_toJson]

private theorem sort_alwaysTrue (column : String) :
    (toJson (.alwaysTrue column)).sort = .object [(column, (FieldTest.present false).toJson)] :=
  rfl

private theorem sort_group (connective : Connective) (children : List Predicate) :
    (toJson (.group connective children)).sort =
      .object [(connective.keyword, .array (children.map fun p => p.toJson.sort))] := by
  rw [toJson, Json.sort_singleton, sort, listToJson_eq_map, Json.sortItems_eq_map, List.map_map]
  rfl

private theorem sort_join (table : String) (query : Option Predicate) (conditions : List Clause)
    (mapKey joinKey : String) :
    (toJson (.join table query conditions mapKey joinKey)).sort =
      .object [("$join", .object ([("joinKey", .string joinKey), ("mapKey", .string mapKey),
        ("originalConditions", .array (conditions.map fun c => c.toJson.sort))]
        ++ sortValues (optionToJson query) ++ [("table", .string table)]))] := by
  cases query <;>
    simp only [toJson, optionToJson, sort, sortValues, sortMembers, List.foldl, insertMember,
      String.reduceLT, ↓reduceIte, Clause.listToJson_eq_map, Json.sortItems_eq_map, List.map_map,
      Function.comp_def, List.cons_append, List.nil_append]

/-- What rendering tells apart: no expression of the engine, and no test that could be taken for
    the predicate that always holds. -/
inductive Legible : Predicate → Prop where
  | field (column : String) {test : FieldTest} : test.Legible → Legible (.field column test)
  | group (connective : Connective) {children : List Predicate} :
    (∀ p ∈ children, Legible p) → Legible (.group connective children)
  | join (table : String) {query : Option Predicate} {conditions : List Clause}
      (mapKey joinKey : String) :
    (∀ p, query = some p → Legible p) → (∀ c ∈ conditions, c.Plain) →
    Legible (.join table query conditions mapKey joinKey)
  | alwaysTrue (column : String) : Legible (.alwaysTrue column)

/-- A predicate that may be absent is known by the member for it, here before the last member of
    an object. -/
theorem eq_of_optionToJson {query query' : Option Predicate} {m m' : String × Json}
    (hquery : ∀ p, query = some p → ∀ p', query' = some p' →
      p.toJson.sort = p'.toJson.sort → p = p')
    (h : sortValues (optionToJson query) ++ [m] = sortValues (optionToJson query') ++ [m']) :
    query = query' ∧ m = m' := by
  obtain ⟨hmember, hlast⟩ := List.append_inj' h rfl
  refine ⟨?_, List.singleton_inj.1 hlast⟩
  cases query with
  | none =>
    cases query' with
    | none => rfl
    | some p' => cases hmember
  | some p =>
    cases query' with
    | none => cases hmember
    | some p' =>
      simp only [optionToJson, sortValues, List.cons.injEq, Prod.mk.injEq, true_and,
        and_true] at hmember
      rw [hquery p rfl p' rfl hmember]

/-- Predicates that are rendered alike are equal, even if the members of objects are sorted. -/
theorem Legible.eq_of_sort {p q : Predicate} (hp : p.Legible) (hq : q.Legible)
    (h : p.toJson.sort = q.toJson.sort) : p = q := by
  -- Behind its only key a predicate has an object with one member, a list, or an object with more.
  induction hp generalizing q with
  | field column htest =>
    rw [sort_field column htest] at h
    cases hq with
    | field column' htest' =>
      rw [sort_field column' htest', Json.object_singleton_inj] at h
      rw [h.1, htest.eq_of_toJson htest' h.2]
    | group | join => simp [sort_group, sort_join, FieldTest.toJson] at h
    | alwaysTrue column' =>
      rw [sort_alwaysTrue, Json.object_singleton_inj] at h
      exact absurd h.2 (htest.toJson_ne_present false)
  | group connective hchildren ih =>
    rw [sort_group] at h
    cases hq with
    | group connective' hchildren' =>
      rw [sort_group, Json.object_singleton_inj, Json.array.injEq] at h
      rw [Connective.keyword_injective h.1,
        eq_of_map_eq (fun p hp q hq => ih p hp (hchildren' q hq)) h.2]
    | field column' htest' => simp [sort_field column' htest', FieldTest.toJson] at h
    | join | alwaysTrue => simp [sort_join, sort_alwaysTrue, FieldTest.toJson] at h
  | join table mapKey joinKey hquery hconditions ih =>
    rw [sort_join] at h
    cases hq with
    | join table' mapKey' joinKey' hquery' hconditions' =>
      rw [sort_join, Json.object_singleton_inj] at h
      simp only [Json.object.injEq, List.cons_append, List.nil_append, List.cons.injEq,
        Prod.mk.injEq, true_and, Json.string.injEq, Json.array.injEq] at h
      obtain ⟨rfl, rfl, hclauses, hrest⟩ := h
      obtain ⟨rfl, htable⟩ := eq_of_optionToJson
        (fun p hp p' hp' => ih p hp (hquery' p' hp')) hrest
      cases htable
      rw [eq_of_map_eq (fun c hc d hd => (hconditions c hc).eq_of_sort (hconditions' d hd))
        hclauses]
    | field column' htest' => simp [sort_field column' htest', FieldTest.toJson] at h
    | group | alwaysTrue => simp [sort_group, sort_alwaysTrue, FieldTest.toJson] at h
  | alwaysTrue column =>
    rw [sort_alwaysTrue] at h
    cases hq with
    | alwaysTrue column' =>
      rw [sort_alwaysTrue, Json.object_singleton_inj] at h
      rw [h.1]
    | field column' htest' =>
      rw [sort_field column' htest', Json.object_singleton_inj] at h
      exact absurd h.2.symm (htest'.toJson_ne_present false)
    | group | join => simp [sort_group, sort_join, FieldTest.toJson] at h

end Predicate

/-! ## Compilation -/

private theorem Predicate.legible_of_connect {connective : Connective} {ps : List Predicate}
    {p : Predicate} (h : ∀ p ∈ ps, p.Legible) (hconnect : connect connective ps = .ok p) :
    p.Legible := by
  obtain rfl | ⟨_, rfl⟩ := connect_eq_ok.1 hconnect
  · exact h p List.mem_cons_self
  · exact .group connective h

private theorem Predicate.legible_of_conjunction? {ps : List Predicate} (h : ∀ p ∈ ps, p.Legible) :
    ∀ p, conjunction? ps = some p → p.Legible := by
  intro p hp
  exact legible_of_connect h (connect_and_eq_ok.2 hp)

/-- The tests for a comparison are legible. -/
theorem Comparison.legible_of_condition {settings : Settings} {c : Comparison} {t : FieldTest}
    (hfinite : ∀ v ∈ c.right.literals, v.IsFinite) (h : c.condition settings = .ok (.test t)) :
    t.Legible := by
  obtain ⟨op, right⟩ := c
  cases right with
  | value v =>
    have hv : v.IsFinite := hfinite v List.mem_cons_self
    cases op
    case oneOf | notIn | between => cases h
    case gt | weakGt | gte => cases h; exact .relate _ hv
    case lt | lte => cases h; exact .notNull (.relate _ hv)
    case eq => cases v <;> cases h <;> exact .relate _ hv
    case notEq =>
      cases v
      case text => cases h; exact .relate _ hv
      case null | bool | int | float => cases h; exact .not (.relate _ hv)
    case like =>
      cases v <;> cases h
      exact .regex _
    case notLike =>
      cases v <;> cases h
      refine .all (List.forall_mem_cons.2 ⟨?_, List.forall_mem_singleton.2 ?_⟩)
      · exact .not (.relate _ nofun)
      · exact .not (.regex _)
  | values vs =>
    cases op
    case oneOf => cases h; exact .among hfinite
    case notIn => cases h; exact .notNull (.notAmong hfinite)
    case between =>
      match vs, h with
      | [low, high], h =>
        cases h
        exact .between (hfinite low (by simp [Operand.literals]))
          (hfinite high (by simp [Operand.literals]))
    case eq | notEq | gt | weakGt | gte | lt | lte | like | notLike => cases h
  | column other => cases op <;> cases h

namespace Clause

variable {settings : Settings} {associations : List Association}

private theorem legible_list {cs : List Clause} {ps : List Predicate}
    (h : List.Forall₂ (fun c p => c.Plain → p.Legible) cs ps) (hplain : ∀ c ∈ cs, c.Plain) :
    ∀ p ∈ ps, p.Legible := by
  intro p hp
  obtain ⟨c, hc, hcp⟩ := exists_of_forall₂ h hp
  exact hcp (hplain c hc)

private theorem preserved_legible :
    Preserved settings associations fun c p => c.Plain → p.Legible where
  deferred column operator other _ := .alwaysTrue _
  compared column comparison condition _ hcondition hplain := by
    cases condition with
    | test t => exact .field column (Comparison.legible_of_condition hplain.2 hcondition)
    | always => exact .alwaysTrue _
  group connective cs ps p _ hps hconnect hplain := by
    exact Predicate.legible_of_connect (legible_list hps (plain_group.1 hplain)) hconnect
  on table cs ps association _ _ hps hplain := by
    have hconditions := plain_on.1 hplain
    have hquery := Predicate.legible_of_conjunction? (legible_list hps hconditions)
    exact .join table _ _ hquery hconditions
  raw expression hplain := absurd hplain.1 (List.cons_ne_nil _ _)

end Clause

namespace Query

private theorem legible_of_compile {settings : Settings} {q : Query} {compiled : CompiledQuery}
    (h : (q.compile settings).outcome = .ok compiled)
    (hplain : ∀ c ∈ q.description.conditions, c.Plain) :
    ∀ p, compiled.query = some p → p.Legible := by
  obtain ⟨_, query, hquery, rfl⟩ := compile_eq_ok.1 h
  obtain ⟨ps, hps, rfl⟩ := Clause.compileConjunction_eq_ok.1 hquery
  refine Predicate.legible_of_conjunction? (Clause.legible_list ?_ hplain)
  exact (Clause.compileList_eq_ok.1 hps).imp fun c p hcp =>
    Clause.compile_induction Clause.preserved_legible hcp

end Query

private theorem CompiledQuery.sort_toJson (q : CompiledQuery) :
    q.toJson.sort = .object ([("hasJoins", .bool q.hasJoins)]
      ++ sortValues (Predicate.optionToJson q.query) ++ [("table", .string q.table)]) := by
  obtain ⟨table, query, hasJoins⟩ := q
  cases query <;>
    simp only [toJson, Predicate.optionToJson, sort, sortValues, sortMembers, List.foldl,
      insertMember, String.reduceLT, ↓reduceIte, List.cons_append, List.nil_append]

/-- No two compiled queries are rendered alike, be their conditions, settings, tables and columns
    what they may: not with the members of objects as written, and not with sorted members. -/
theorem Query.rendering_unambiguous {settings settings' : Settings} {q q' : Query}
    {compiled compiled' : CompiledQuery} (h : (q.compile settings).outcome = .ok compiled)
    (h' : (q'.compile settings').outcome = .ok compiled')
    (hplain : ∀ c ∈ q.description.conditions, c.Plain)
    (hplain' : ∀ c ∈ q'.description.conditions, c.Plain) :
    (compiled.toJson = compiled'.toJson → compiled = compiled') ∧
    (compiled.toJson.sort = compiled'.toJson.sort → compiled = compiled') := by
  have hsort : compiled.toJson.sort = compiled'.toJson.sort → compiled = compiled' := by
    have hlegible := legible_of_compile h hplain
    have hlegible' := legible_of_compile h' hplain'
    obtain ⟨table, query, hasJoins⟩ := compiled
    obtain ⟨table', query', hasJoins'⟩ := compiled'
    intro hjson
    simp only [CompiledQuery.sort_toJson, Json.object.injEq, List.cons_append, List.nil_append,
      List.cons.injEq, Prod.mk.injEq, true_and, Json.bool.injEq] at hjson
    obtain ⟨rfl, hrest⟩ := hjson
    obtain ⟨rfl, htable⟩ := Predicate.eq_of_optionToJson
      (fun p hp p' hp' => (hlegible p hp).eq_of_sort (hlegible' p' hp')) hrest
    cases htable
    rfl
  exact ⟨fun hjson => hsort (congrArg sort hjson), hsort⟩

/-- A bound on a column that is called like a connective. -/
def Sample.bounded : Query where
  table := "tasks"
  description := { conditions := [.compare "$and" ⟨.lte, .value (.float 1.5)⟩] }
  associations := []

/-- A comparison that the engine cannot check. -/
def Sample.unchecked : Query where
  table := "tasks"
  description := { conditions := [.compare "start" ⟨.lt, .column "end"⟩] }
  associations := []

/-- Even if the column that no record has is called like the connective too. -/
theorem Query.rendering_unambiguous_keyword :
    ∃ compiled compiled', (Sample.bounded.compile {}).outcome = .ok compiled ∧
      (Sample.unchecked.compile { alwaysTrueColumn := "$and" }).outcome = .ok compiled' ∧
      compiled.toJson ≠ compiled'.toJson ∧ compiled.toJson.sort ≠ compiled'.toJson.sort := by
  have hbounded : ∀ c ∈ Sample.bounded.description.conditions, c.Plain := by
    refine List.forall_mem_singleton.2 ⟨rfl, List.forall_mem_singleton.2 ?_⟩
    intro x hx
    cases hx
    decide +kernel
  have hunchecked : ∀ c ∈ Sample.unchecked.description.conditions, c.Plain :=
    List.forall_mem_singleton.2 ⟨rfl, nofun⟩
  refine ⟨_, _, rfl, rfl, ?_⟩
  obtain ⟨hjson, hsort⟩ := @rendering_unambiguous {} { alwaysTrueColumn := "$and" }
    Sample.bounded Sample.unchecked _ _ rfl rfl hbounded hunchecked
  exact ⟨fun h => absurd (hjson h) nofun, fun h => absurd (hsort h) nofun⟩

end DocQuery
