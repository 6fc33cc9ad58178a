-- SUMMARY: Whatever text a query was read from, reading the written query gives the same query.
import DocQuery.Decode.Query
import DocQuery.Proofs.Numbers
import DocQuery.Proofs.Records
import DocQuery.Proofs.RoundTrip

/-!
# Reading normalises

A query can be spelled in many ways: records as objects or as arrays, members in any order and
among unknown ones, options left out or null, names bare or in an object. Writing picks one of
the spellings, and reading that one gives the query back. The reason is what reading admits:
`Clause.Admitted` says that a clause that was read passes no null through, compares with finite
floats only and nests no deeper than there was room for, and so `Clause.ReadsBack` applies to it.
-/

namespace DocQuery

open Json (Draft Items Members)

/-! ## What readers return

Readers of containers are taken apart once, here. `room` is the room of the container; its parts
have one less. -/

section Readers

variable {α β σ : Type}

theorem eq_ok_of_ofText {x : Except Json.Fault α} {a : α} (h : ofText x = .ok a) : x = .ok a := by
  cases x with
  | error fault => cases h
  | ok b => exact congrArg Except.ok (Except.ok.inj h)

/-- A value of the tree comes from a draft of its own kind. -/
theorem toJson_cases {room : Nat} {d : Draft} {j : Json} (h : d.toJson room = .ok j) :
    (d = .null ∧ j = .null) ∨ (∃ b, j = .bool b) ∨
    (∃ lexeme n, d = .number lexeme ∧ lexeme.read = .ok n ∧ j = .number n) ∨
    (∃ s, j = .string s) ∨ (∃ items, j = .array items) ∨ ∃ members, j = .object members := by
  cases d with
  | absent => cases h
  | broken fault => cases h
  | null =>
    cases h
    exact .inl ⟨rfl, rfl⟩
  | bool b =>
    cases h
    exact .inr (.inl ⟨b, rfl⟩)
  | number lexeme =>
    obtain ⟨n, hread, rfl⟩ := exists_of_map_eq_ok h
    exact .inr (.inr (.inl ⟨lexeme, n, rfl, hread, rfl⟩))
  | string lexeme =>
    obtain ⟨s, _, rfl⟩ := exists_of_map_eq_ok h
    exact .inr (.inr (.inr (.inl ⟨s, rfl⟩)))
  | array items =>
    cases room with
    | zero => cases h
    | succ room =>
      obtain ⟨js, _, rfl⟩ := exists_of_map_eq_ok h
      exact .inr (.inr (.inr (.inr (.inl ⟨js, rfl⟩))))
  | object members =>
    cases room with
    | zero => cases h
    | succ room =>
      obtain ⟨ms, _, rfl⟩ := exists_of_map_eq_ok h
      exact .inr (.inr (.inr (.inr (.inr ⟨ms, rfl⟩))))

private theorem exists_of_readItems {read : Draft → Except ReadError α} {items : Items}
    {as : List α} (hp : items.Proper) (h : readItems read items = .ok as) :
    ∀ a ∈ as, ∃ d : Draft, d.Proper ∧ read d = .ok a := by
  fun_induction readItems read items generalizing as with
  | case1 =>
    cases h
    exact fun _ ha => nomatch ha
  | case2 fault => cases h
  | case3 head rest ih =>
    obtain ⟨a, hhead, h⟩ := bind_eq_ok.1 h
    obtain ⟨rest', hrest, h⟩ := bind_eq_ok.1 h
    cases h
    exact List.forall_mem_cons.2 ⟨⟨head, hp.1, hhead⟩, ih hp.2 hrest⟩

private theorem exists_of_readList {read : Nat → Draft → Except ReadError α} {room : Nat}
    {d : Draft} {as : List α} (hp : d.Proper) (h : readList (inside room read) d = .ok as) :
    ∃ r, room = r + 1 ∧ ∀ a ∈ as, ∃ item : Draft, item.Proper ∧ read r item = .ok a := by
  unfold readList at h
  split at h
  next items =>
    cases room with
    | zero => cases h
    | succ r => exact ⟨r, rfl, exists_of_readItems hp h⟩
  next => exact absurd h wrongType_ne_ok

private theorem exists_of_readOption {read : Draft → Except ReadError α} {d : Draft} {a : α}
    (h : readOption read d = .ok (some a)) : d ≠ .null ∧ read d = .ok a := by
  unfold readOption at h
  split at h
  next => cases h
  next hd =>
    obtain ⟨a', ha, heq⟩ := exists_of_map_eq_ok h
    exact ⟨hd, Option.some.inj heq ▸ ha⟩

/-- A choice is a bare name, or an object whose member holds its content. -/
theorem readChoice_cases {choices : List (String × α)} {bare : α → Except ReadError β}
    {content : Nat → α → Draft → Except ReadError β} {room : Nat} {d : Draft} {b : β}
    (hp : d.Proper) (h : readChoice choices bare (inside room content) d = .ok b) :
    (∃ a, bare a = .ok b) ∨
      ∃ r a, room = r + 1 ∧ ∃ value : Draft, value.Proper ∧ content r a value = .ok b := by
  unfold readChoice at h
  split at h
  next => cases h
  next name =>
    obtain ⟨_, _, h⟩ := bind_eq_ok.1 h
    obtain ⟨a, _, h⟩ := bind_eq_ok.1 h
    exact .inl ⟨a, h⟩
  next members =>
    cases room with
    | zero => cases h
    | succ r =>
      cases members with
      | close => cases h
      | cut fault => cases h
      | noKey found => exact absurd h wrongType_ne_ok
      | member key value rest =>
        obtain ⟨_, _, h⟩ := bind_eq_ok.1 h
        obtain ⟨a, _, h⟩ := bind_eq_ok.1 h
        obtain ⟨b', hvalue, h⟩ := bind_eq_ok.1 h
        obtain ⟨_, _, h⟩ := bind_eq_ok.1 h
        cases h
        exact .inr ⟨r, a, rfl, value, hp.1, hvalue⟩
  next => cases h

/-- Reading the field keeps a property of the record under construction. -/
def Field.Preserves (f : Field σ) (P : σ → Prop) : Prop :=
  ∀ {d : Draft} {s s' : σ}, d.Proper → f.read d s = .ok s' → P s → P s'

private theorem readMembers_preserves {fields : List (Field σ)} {P : σ → Prop}
    (hfields : ∀ f ∈ fields, f.Preserves P) {members : Members} {s s' : σ}
    (hp : members.Proper) (h : readMembers fields members s = .ok s') (hs : P s) : P s' := by
  fun_induction readMembers fields members s with
  | case1 s =>
    cases h
    exact hs
  | case2 fault s => cases h
  | case3 found s => cases h
  | case4 key value rest s ih₁ ih₂ =>
    obtain ⟨name, _, h⟩ := bind_eq_ok.1 h
    split at h
    next hf =>
      obtain ⟨_, _, h⟩ := bind_eq_ok.1 h
      exact ih₁ hp.2 h hs
    next f hf =>
      split at h
      next => cases h
      next =>
        obtain ⟨t, ht, h⟩ := bind_eq_ok.1 h
        exact ih₂ t hp.2 h (hfields f (List.mem_of_find?_eq_some hf) hp.1 ht hs)

private theorem readFields_preserves {expected : String} {P : σ → Prop} {fields : List (Field σ)}
    (hfields : ∀ f ∈ fields, f.Preserves P) {length : Nat} {items : Items} {s s' : σ}
    (hp : items.Proper) (h : readFields expected length fields items s = .ok s') (hs : P s) :
    P s' := by
  fun_induction readFields expected length fields items s with
  | case1 length items s =>
    obtain ⟨_, _, h⟩ := bind_eq_ok.1 h
    cases h
    exact hs
  | case2 length f fields s hopt ih =>
    exact ih (fun g hg => hfields g (List.mem_cons_of_mem _ hg)) hp h hs
  | case3 length f fields s hopt => cases h
  | case4 length f fields s fault => cases h
  | case5 length f fields s head rest ih =>
    obtain ⟨t, ht, h⟩ := bind_eq_ok.1 h
    have hstep : P t := hfields f List.mem_cons_self hp.1 ht hs
    exact ih t (fun g hg => hfields g (List.mem_cons_of_mem _ hg)) hp.2 h hstep

/-- What holds of the empty record and is kept by every field holds of the record that is read. -/
theorem readRecord_preserves {type : String} {fields : Nat → List (Field σ)} {room : Nat}
    {empty s : σ} {d : Draft} {P : Nat → σ → Prop} (hempty : ∀ r, P r empty)
    (hfields : ∀ r, room = r + 1 → ∀ f ∈ fields r, f.Preserves (P r)) (hp : d.Proper)
    (h : readRecord type (inside room fields) empty d = .ok s) : ∃ r, room = r + 1 ∧ P r s := by
  unfold readRecord at h
  split at h
  next items =>
    cases room with
    | zero => cases h
    | succ r => exact ⟨r, rfl, readFields_preserves (hfields r rfl) hp h (hempty r)⟩
  next members =>
    cases room with
    | zero => cases h
    | succ r => exact ⟨r, rfl, readMembers_preserves (hfields r rfl) hp h (hempty r)⟩
  next => exact absurd h wrongType_ne_ok

theorem eq_some_of_required {name : String} {x : Option α} {a : α}
    (h : required name x = .ok a) : x = some a := by
  cases x with
  | none => cases h
  | some b => exact congrArg some (Except.ok.inj h)

end Readers

/-! ## Comparisons -/

private theorem Literal.isFinite_ofInt {n : Int} (h : -2 ^ 63 ≤ n ∧ n < 2 ^ 64) :
    (Literal.ofInt n).IsFinite := by
  intro x hx
  unfold Literal.ofInt at hx
  split at hx
  · cases hx
  · cases hx
    exact DocQuery.isFinite_ofInt (by omega) (by omega)

private theorem Literal.isFinite_of_ofJson? {n : Json.Number} {v : Literal} (hn : n.Proper)
    (h : Literal.ofJson? (.number n) = some v) : v.IsFinite := by
  cases n with
  | int n =>
    cases h
    exact Literal.isFinite_ofInt hn
  | float x =>
    cases h
    intro y hy
    cases hy
    exact hn

/-- A literal that was read is finite, for every number that a text can spell is. -/
theorem Literal.isFinite_of_read {room : Nat} {d : Draft} {v : Literal} (hp : d.Proper)
    (h : Literal.read room d = .ok v) : v.IsFinite := by
  obtain ⟨j, hj, hliteral⟩ := bind_eq_ok.1 h
  have hv : Literal.ofJson? j = some v := by
    split at hliteral
    next heq => exact heq.trans (congrArg some (Except.ok.inj hliteral))
    next => cases hliteral
  obtain ⟨_, rfl⟩ | ⟨b, rfl⟩ | ⟨lexeme, n, rfl, hread, rfl⟩ | ⟨s, rfl⟩ | ⟨items, rfl⟩ |
    ⟨members, rfl⟩ := toJson_cases (eq_ok_of_ofText hj)
  · cases hv
    exact nofun
  · cases hv
    exact nofun
  · exact Literal.isFinite_of_ofJson? (hp n hread) hv
  · cases hv
    exact nofun
  · cases hv
  · cases hv

theorem Operand.admitted {room : Nat} {d : Draft} {o : Operand} (hp : d.Proper)
    (h : Operand.read room d = .ok o) :
    o.toJson.depth ≤ room ∧ ∀ v ∈ o.literals, v.IsFinite := by
  obtain ⟨form, h⟩ | ⟨r, form, rfl, content, hcontent, h⟩ := readChoice_cases hp h
  · cases h
  · cases form with
    | value =>
      obtain ⟨v, hv, rfl⟩ := exists_of_map_eq_ok h
      refine ⟨by simp [Operand.toJson, Json.depth, Json.depthMembers], ?_⟩
      exact List.forall_mem_singleton.2 (Literal.isFinite_of_read hcontent hv)
    | values =>
      obtain ⟨vs, hvs, rfl⟩ := exists_of_map_eq_ok h
      obtain ⟨r, rfl, hitems⟩ := exists_of_readList hcontent hvs
      have hdepth : Json.depthItems (vs.map Literal.toJson) ≤ r := by
        simp [Json.depthItems_le]
      refine ⟨by simpa [Operand.toJson, Json.depth, Json.depthMembers] using hdepth, fun v hv => ?_⟩
      obtain ⟨item, hitem, hread⟩ := hitems v hv
      exact Literal.isFinite_of_read hitem hread
    | column =>
      obtain ⟨name, _, rfl⟩ := exists_of_map_eq_ok h
      exact ⟨by simp [Operand.toJson, Json.depth, Json.depthMembers], fun _ hv => nomatch hv⟩

theorem Comparison.admitted {room : Nat} {d : Draft} {c : Comparison} (hp : d.Proper)
    (h : Comparison.read room d = .ok c) :
    c.toJson.depth ≤ room ∧ ∀ v ∈ c.right.literals, v.IsFinite := by
  obtain ⟨p, hparts, hfinish⟩ := bind_eq_ok.1 h
  obtain ⟨operator, _, hfinish⟩ := bind_eq_ok.1 hfinish
  obtain ⟨right, hright, hc⟩ := bind_eq_ok.1 hfinish
  cases hc
  have hfields : ∀ r, room = r + 1 → ∀ f ∈ Comparison.fields r, f.Preserves fun p =>
      ∀ o, p.right = some o → o.toJson.depth ≤ r ∧ ∀ v ∈ o.literals, v.IsFinite := by
    intro r _ f hf d s s' hd hread hs
    simp only [Comparison.fields, List.mem_cons, List.not_mem_nil, or_false] at hf
    rcases hf with rfl | rfl
    · obtain ⟨operator, _, hs'⟩ := bind_eq_ok.1 hread
      cases hs'
      exact hs
    · obtain ⟨o, ho, hs'⟩ := bind_eq_ok.1 hread
      cases hs'
      rintro _ ⟨rfl⟩
      exact Operand.admitted hd ho
  obtain ⟨r, rfl, hadmitted⟩ := readRecord_preserves (fun _ => nofun) hfields hp hparts
  obtain ⟨hdepth, hliterals⟩ := hadmitted right (eq_some_of_required hright)
  refine ⟨?_, hliterals⟩
  simpa [Comparison.toJson, Json.depth, Json.depthMembers] using hdepth

theorem Expression.admitted {room : Nat} {d : Draft} {e : Expression} (hd : d ≠ .null)
    (h : Expression.read room d = .ok e) : e.json.depth ≤ room ∧ e.json ≠ .null := by
  obtain ⟨j, hj, rfl⟩ := exists_of_map_eq_ok (eq_ok_of_ofText h)
  refine ⟨Nat.le_trans (Json.depth_sort_le j) (Draft.depth_toJson d hj), ?_⟩
  obtain ⟨hnull, _⟩ | ⟨b, rfl⟩ | ⟨_, n, _, _, rfl⟩ | ⟨s, rfl⟩ | ⟨items, rfl⟩ |
    ⟨members, rfl⟩ := toJson_cases hj
  · exact absurd hnull hd
  all_goals simp [Expression.ofJson, Json.sort]

/-! ## Clauses -/

namespace Clause

/-- What reading admits as a clause: it fits into the room, passes no null through and compares
    with finite literals only. -/
structure Admitted (room : Nat) (c : Clause) : Prop where
  depth : c.toJson.depth ≤ room
  passthroughs : ∀ e ∈ c.passthroughs, e.json ≠ .null
  literals : ∀ v ∈ c.literals, v.IsFinite

theorem Admitted.read_toJson {room : Nat} {c : Clause} (h : c.Admitted room) :
    read room (.ofJson c.toJson) = .ok c := by
  rw [read_toJson_of_ne_null h.depth h.passthroughs, toFinite_eq_self h.literals]

/-- What the members of a clause admit, whatever its kind will be. -/
structure Parts.Admitted (room : Nat) (p : Parts) : Prop where
  comparison : ∀ c, p.comparison.join = some c →
    c.toJson.depth ≤ room ∧ ∀ v ∈ c.right.literals, v.IsFinite
  conditions : ∀ cs, p.conditions.join = some cs →
    ∃ r, room = r + 1 ∧ ∀ c ∈ cs, Clause.Admitted r c
  expr : ∀ e, p.expr.join = some e → e.json.depth ≤ room ∧ e.json ≠ .null

private theorem eq_some_of_need {α : Type} {kind member : String} {x : Option α} {a : α}
    (h : need kind member x = .ok a) : x = some a := by
  cases x with
  | none => cases h
  | some b => exact congrArg some (Except.ok.inj h)

/-- A clause that makes sense is made of the members that its kind needs. -/
theorem ofLoose_cases {l : Loose} {c : Clause} (h : ofLoose l = .ok c) :
    (∃ column comparison, l.comparison = some comparison ∧ c = .compare column comparison) ∨
    (∃ connective cs, l.conditions = some cs ∧ c = .group connective cs) ∨
    (∃ table cs, l.conditions = some cs ∧ c = .on table cs) ∨
    ∃ e, l.expr = some e ∧ c = .raw e := by
  unfold ofLoose at h
  split at h
  · obtain ⟨column, _, h⟩ := bind_eq_ok.1 h
    obtain ⟨comparison, hcomparison, h⟩ := bind_eq_ok.1 h
    cases h
    exact .inl ⟨column, comparison, eq_some_of_need hcomparison, rfl⟩
  · obtain ⟨cs, hcs, h⟩ := bind_eq_ok.1 h
    cases h
    exact .inr (.inl ⟨.and, cs, eq_some_of_need hcs, rfl⟩)
  · obtain ⟨cs, hcs, h⟩ := bind_eq_ok.1 h
    cases h
    exact .inr (.inl ⟨.or, cs, eq_some_of_need hcs, rfl⟩)
  · obtain ⟨table, _, h⟩ := bind_eq_ok.1 h
    obtain ⟨cs, hcs, h⟩ := bind_eq_ok.1 h
    cases h
    exact .inr (.inr (.inl ⟨table, cs, eq_some_of_need hcs, rfl⟩))
  · obtain ⟨e, he, h⟩ := bind_eq_ok.1 h
    cases h
    exact .inr (.inr (.inr ⟨e, eq_some_of_need he, rfl⟩))
  · cases h

theorem ofLoose_of_check {l : Loose} {c : Clause} (h : l.check = .ok c) : ofLoose l = .ok c := by
  unfold Loose.check at h
  split at h
  next heq =>
    cases h
    exact heq
  next => cases h

/-- A clause that only holds conditions is admitted if they are. -/
private theorem admitted_of_conditions {r : Nat} {c : Clause} {cs : List Clause}
    (h : ∀ c ∈ cs, c.Admitted r) (hdepth : c.toJson.depth = Json.depthItems (cs.map toJson) + 2)
    (hpassthroughs : c.passthroughs = cs.flatMap Clause.passthroughs)
    (hliterals : c.literals = cs.flatMap Clause.literals) : c.Admitted (r + 2) where
  depth := by
    rw [hdepth, Nat.add_le_add_iff_right, Json.depthItems_le]
    exact List.forall_mem_map.2 fun c hc => (h c hc).depth
  passthroughs := by
    intro e he
    rw [hpassthroughs] at he
    obtain ⟨c, hc, he⟩ := List.mem_flatMap.1 he
    exact (h c hc).passthroughs e he
  literals := by
    intro v hv
    rw [hliterals] at hv
    obtain ⟨c, hc, hv⟩ := List.mem_flatMap.1 hv
    exact (h c hc).literals v hv

private theorem Parts.Admitted.of_check {room : Nat} {p : Parts} {l : Loose} {c : Clause}
    (hp : p.Admitted room) (hl : p.finish = .ok l) (hc : l.check = .ok c) :
    c.Admitted (room + 1) := by
  obtain ⟨kind, _, hfinish⟩ := bind_eq_ok.1 hl
  cases hfinish
  obtain ⟨column, comparison, hcomparison, rfl⟩ | ⟨connective, cs, hcs, rfl⟩ |
    ⟨table, cs, hcs, rfl⟩ | ⟨e, he, rfl⟩ := ofLoose_cases (ofLoose_of_check hc)
  · obtain ⟨hdepth, hliterals⟩ := hp.comparison comparison hcomparison
    refine ⟨?_, fun _ he => absurd he List.not_mem_nil, hliterals⟩
    simpa [toJson, Json.depth, Json.depthMembers] using hdepth
  · obtain ⟨r, rfl, hadmitted⟩ := hp.conditions cs hcs
    exact admitted_of_conditions hadmitted (depth_toJson_group _ _) (passthroughs_group _ _)
      (literals_group _ _)
  · obtain ⟨r, rfl, hadmitted⟩ := hp.conditions cs hcs
    exact admitted_of_conditions hadmitted (depth_toJson_on _ _) (passthroughs_on _ _)
      (literals_on _ _)
  · obtain ⟨hdepth, hnull⟩ := hp.expr e he
    refine ⟨?_, List.forall_mem_singleton.2 hnull, fun _ hv => absurd hv List.not_mem_nil⟩
    simpa [toJson, Json.depth, Json.depthMembers] using hdepth

private theorem preserves_fields {room : Nat}
    {readConditions : Draft → Except ReadError (List Clause)}
    (h : ∀ {d : Draft} {cs}, d.Proper → readConditions d = .ok cs →
      ∃ r, room = r + 1 ∧ ∀ c ∈ cs, Clause.Admitted r c) :
    ∀ f ∈ fields room readConditions, f.Preserves (Parts.Admitted room) := by
  intro f hf d s s' hd hread hs
  simp only [fields, List.mem_cons, List.not_mem_nil, or_false] at hf
  rcases hf with rfl | rfl | rfl | rfl | rfl | rfl
  · obtain ⟨kind, _, hs'⟩ := bind_eq_ok.1 hread
    cases hs'
    exact ⟨hs.comparison, hs.conditions, hs.expr⟩
  · obtain ⟨left, _, hs'⟩ := bind_eq_ok.1 hread
    cases hs'
    exact ⟨hs.comparison, hs.conditions, hs.expr⟩
  · obtain ⟨comparison, hcomparison, hs'⟩ := bind_eq_ok.1 hread
    cases hs'
    refine ⟨?_, hs.conditions, hs.expr⟩
    rintro c ⟨rfl⟩
    exact Comparison.admitted hd (exists_of_readOption hcomparison).2
  · obtain ⟨table, _, hs'⟩ := bind_eq_ok.1 hread
    cases hs'
    exact ⟨hs.comparison, hs.conditions, hs.expr⟩
  · obtain ⟨conditions, hconditions, hs'⟩ := bind_eq_ok.1 hread
    cases hs'
    refine ⟨hs.comparison, ?_, hs.expr⟩
    rintro cs ⟨rfl⟩
    exact h hd (exists_of_readOption hconditions).2
  · obtain ⟨expr, hexpr, hs'⟩ := bind_eq_ok.1 hread
    cases hs'
    refine ⟨hs.comparison, hs.conditions, ?_⟩
    rintro e ⟨rfl⟩
    obtain ⟨hnull, he⟩ := exists_of_readOption hexpr
    exact Expression.admitted hnull he

/-- Whatever a clause is read from, it is admitted. -/
theorem admitted_of_read {room : Nat} {d : Draft} {c : Clause} (hp : d.Proper)
    (h : read room d = .ok c) : c.Admitted room := by
  -- Conditions have two containers less to open than the clause, so the room is what decreases.
  induction room using Nat.strongRecOn generalizing d c with
  | ind room ih =>
    rw [read_eq] at h
    obtain ⟨p, hparts, hfinish⟩ := bind_eq_ok.1 h
    obtain ⟨l, hl, hc⟩ := bind_eq_ok.1 hfinish
    have hempty : ∀ r, Parts.Admitted r {} := fun r => ⟨nofun, nofun, nofun⟩
    have hfields : ∀ r, room = r + 1 →
        ∀ f ∈ fields r (readList (inside r read)), f.Preserves (Parts.Admitted r) := by
      rintro r rfl
      refine preserves_fields fun hd hcs => ?_
      obtain ⟨r, rfl, hitems⟩ := exists_of_readList hd hcs
      refine ⟨r, rfl, fun c hc => ?_⟩
      obtain ⟨item, hitem, hread⟩ := hitems c hc
      exact ih r (by omega) hitem hread
    obtain ⟨r, rfl, hadmitted⟩ := readRecord_preserves hempty hfields hp hparts
    exact hadmitted.of_check hl hc

end Clause

/-! ## Queries -/

theorem Description.admitted {room : Nat} {d : Draft} {desc : Description} (hp : d.Proper)
    (h : Description.read room d = .ok desc) :
    ∀ c ∈ desc.conditions, ∃ r, room = r + 2 ∧ c.Admitted r := by
  obtain ⟨p, hparts, hdesc⟩ := bind_eq_ok.1 h
  cases hdesc
  have hfields : ∀ r, room = r + 1 → ∀ f ∈ Description.fields r, f.Preserves fun p =>
      ∀ c ∈ p.conditions.getD [], ∃ r', r = r' + 1 ∧ c.Admitted r' := by
    intro r _ f hf d s s' hd hread hs
    simp only [Description.fields, List.mem_cons, List.not_mem_nil, or_false] at hf
    rcases hf with rfl | rfl | rfl | rfl | rfl
    · obtain ⟨cs, hcs, hs'⟩ := bind_eq_ok.1 hread
      cases hs'
      obtain ⟨r, rfl, hitems⟩ := exists_of_readList hd hcs
      intro c hc
      obtain ⟨item, hitem, hread⟩ := hitems c hc
      exact ⟨r, rfl, Clause.admitted_of_read hitem hread⟩
    -- No other field touches the conditions.
    all_goals
      obtain ⟨_, _, hs'⟩ := bind_eq_ok.1 hread
      cases hs'
      exact hs
  obtain ⟨r, rfl, hadmitted⟩ := readRecord_preserves (fun _ => nofun) hfields hp hparts
  intro c hc
  obtain ⟨r, rfl, hc⟩ := hadmitted c hc
  exact ⟨r, rfl, hc⟩

theorem Query.admitted {room : Nat} {d : Draft} {q : Query} (hp : d.Proper)
    (h : Query.read room d = .ok q) :
    ∀ c ∈ q.description.conditions, ∃ r, room = r + 3 ∧ c.Admitted r := by
  obtain ⟨p, hparts, hquery⟩ := bind_eq_ok.1 h
  obtain ⟨table, _, hquery⟩ := bind_eq_ok.1 hquery
  obtain ⟨desc, hdesc, hquery⟩ := bind_eq_ok.1 hquery
  cases hquery
  have hfields : ∀ r, room = r + 1 → ∀ f ∈ Query.fields r, f.Preserves fun p =>
      ∀ desc, p.description = some desc →
        ∀ c ∈ desc.conditions, ∃ r', r = r' + 2 ∧ c.Admitted r' := by
    intro r _ f hf d s s' hd hread hs
    simp only [Query.fields, List.mem_cons, List.not_mem_nil, or_false] at hf
    rcases hf with rfl | rfl | rfl
    · obtain ⟨_, _, hs'⟩ := bind_eq_ok.1 hread
      cases hs'
      exact hs
    · obtain ⟨desc, hdesc, hs'⟩ := bind_eq_ok.1 hread
      cases hs'
      rintro _ ⟨rfl⟩
      exact Description.admitted hd hdesc
    · obtain ⟨_, _, hs'⟩ := bind_eq_ok.1 hread
      cases hs'
      exact hs
  obtain ⟨r, rfl, hadmitted⟩ := readRecord_preserves (fun _ => nofun) hfields hp hparts
  intro c hc
  obtain ⟨r, rfl, hc⟩ := hadmitted desc (eq_some_of_required hdesc) c hc
  exact ⟨r, rfl, hc⟩

/-! ## Written queries -/

theorem Relation.read_toJson (relation : Relation) (room : Nat) :
    Relation.read (room + 1) (.ofJson relation.toJson) = .ok relation := by
  cases relation <;> rfl

theorem Association.read_toJson (a : Association) (room : Nat) :
    Association.read (room + 2) (.ofJson a.toJson) = .ok a := by
  have htarget : readString (.ofJson (.string a.target)) = .ok a.target := rfl
  have hparts : readMembers (Association.fields (room + 1)) (Members.ofList
      [("to", .string a.target), ("info", a.relation.toJson)]) {} =
      .ok ⟨some a.target, some a.relation⟩ := by
    refine (readMembers_ofList_ok htarget rfl rfl rfl).trans ?_
    exact (readMembers_ofList_ok (a.relation.read_toJson room) rfl rfl rfl).trans rfl
  change (readMembers (Association.fields (room + 1)) _ {}).bind _ = _
  rw [hparts]
  rfl

private theorem Direction.read_name (direction : Direction) (room : Nat) :
    Direction.read room (.ofJson (.string direction.name)) = .ok direction := by
  cases direction <;> rfl

theorem SortKey.read_toJson (k : SortKey) (room : Nat) :
    SortKey.read (room + 1) (.ofJson k.toJson) = .ok k := by
  have hcolumn : readString (.ofJson (.string k.column)) = .ok k.column := rfl
  have hparts : readMembers (SortKey.fields room) (Members.ofList
      [("sortColumn", .string k.column), ("sortOrder", .string k.direction.name)]) {} =
      .ok ⟨some k.column, some k.direction⟩ := by
    refine (readMembers_ofList_ok hcolumn rfl rfl rfl).trans ?_
    exact (readMembers_ofList_ok (k.direction.read_name room) rfl rfl rfl).trans rfl
  change (readMembers (SortKey.fields room) _ {}).bind _ = _
  rw [hparts]
  rfl

private theorem readCount_ofJson (n : UInt64) :
    readOption readCount (.ofJson (.int n.toNat)) = .ok (some n) := by
  have hcount : readCount (.ofJson (.int n.toNat)) = .ok n := by
    simp [Json.int, Draft.ofJson, readCount, ofText, Json.Lexeme.value, bind, Except.bind]
  exact congrArg (Except.map some) hcount

/-- The members that are left out when there is no number. -/
private theorem Description.readMembers_counts (take skip : Option UInt64) (room : Nat)
    (conditions : List Clause) (joinTables : List String) (sortBy : List SortKey) :
    readMembers (Description.fields room)
        (Members.ofList (countMember "take" take ++ countMember "skip" skip))
        ⟨some conditions, some joinTables, some sortBy, none, none⟩ =
      .ok ⟨some conditions, some joinTables, some sortBy, take.map some, skip.map some⟩ := by
  cases take with
  | none =>
    cases skip with
    | none => rfl
    | some m => exact (readMembers_ofList_ok (readCount_ofJson m) rfl rfl rfl).trans rfl
  | some n =>
    refine (readMembers_ofList_ok (readCount_ofJson n) rfl rfl rfl).trans ?_
    cases skip with
    | none => rfl
    | some m => exact (readMembers_ofList_ok (readCount_ofJson m) rfl rfl rfl).trans rfl

theorem Description.read_toJson {desc : Description} {room : Nat}
    (h : ∀ c ∈ desc.conditions, c.Admitted (room + 1)) :
    Description.read (room + 3) (.ofJson desc.toJson) = .ok desc := by
  obtain ⟨conditions, joinTables, sortBy, take, skip⟩ := desc
  have hconditions : readList (inside (room + 2) Clause.read)
      (.ofJson (.array (conditions.map Clause.toJson))) = .ok (conditions.map id) :=
    readItems_ofList_ok fun c hc => (h c hc).read_toJson
  have hjoinTables : readList (inside (room + 2) fun _ => readString)
      (.ofJson (.array (joinTables.map .string))) = .ok (joinTables.map id) :=
    readItems_ofList_ok fun _ _ => rfl
  have hsortBy : readList (inside (room + 2) SortKey.read)
      (.ofJson (.array (sortBy.map SortKey.toJson))) = .ok (sortBy.map id) :=
    readItems_ofList_ok fun k _ => k.read_toJson room
  rw [List.map_id] at hconditions hjoinTables hsortBy
  have hparts : readMembers (Description.fields (room + 2)) (Members.ofList (
      [("where", .array (conditions.map Clause.toJson)),
        ("joinTables", .array (joinTables.map .string)),
        ("sortBy", .array (sortBy.map SortKey.toJson))]
      ++ countMember "take" take ++ countMember "skip" skip)) {} =
      .ok ⟨some conditions, some joinTables, some sortBy, take.map some, skip.map some⟩ := by
    rw [List.append_assoc]
    refine (readMembers_ofList_ok hconditions rfl rfl rfl).trans ?_
    refine (readMembers_ofList_ok hjoinTables rfl rfl rfl).trans ?_
    refine (readMembers_ofList_ok hsortBy rfl rfl rfl).trans ?_
    exact Description.readMembers_counts take skip (room + 2) conditions joinTables sortBy
  rw [Description.toJson, Clause.listToJson_eq_map]
  change (readMembers (Description.fields (room + 2)) (Members.ofList _) {}).bind _ = _
  rw [hparts]
  cases take <;> cases skip <;> rfl

theorem Query.read_toJson {q : Query} {room : Nat}
    (h : ∀ c ∈ q.description.conditions, c.Admitted (room + 1)) :
    Query.read (room + 4) (.ofJson q.toJson) = .ok q := by
  have htable : readString (.ofJson (.string q.table)) = .ok q.table := rfl
  have hassociations : readList (inside (room + 3) Association.read)
      (.ofJson (.array (q.associations.map Association.toJson))) = .ok (q.associations.map id) :=
    readItems_ofList_ok fun a _ => a.read_toJson room
  rw [List.map_id] at hassociations
  have hparts : readMembers (Query.fields (room + 3)) (Members.ofList
      [("table", .string q.table), ("description", q.description.toJson),
        ("associations", .array (q.associations.map Association.toJson))]) {} =
      .ok ⟨some q.table, some q.description, some q.associations⟩ := by
    refine (readMembers_ofList_ok htable rfl rfl rfl).trans ?_
    refine (readMembers_ofList_ok (Description.read_toJson h) rfl rfl rfl).trans ?_
    exact (readMembers_ofList_ok hassociations rfl rfl rfl).trans rfl
  change (readMembers (Query.fields (room + 3)) (Members.ofList _) {}).bind _ = _
  rw [hparts]
  rfl

/-- Whatever a query is read from, it is read again from what is written for it. -/
theorem Query.read_toJson_of_read {room : Nat} {d : Draft} {q : Query} (hp : d.Proper)
    (h : Query.read (room + 4) d = .ok q) :
    Query.read (room + 4) (.ofJson q.toJson) = .ok q := by
  refine Query.read_toJson fun c hc => ?_
  obtain ⟨r, hr, hadmitted⟩ := Query.admitted hp h c hc
  cases hr
  exact hadmitted

theorem read_of_decode {α : Type} {read : Nat → Draft → Except ReadError α} {text : String}
    {a : α} (h : decode read text = .ok a) :
    read maxRoom (Json.Document.ofText text).root = .ok a := by
  obtain ⟨b, hread, htrailing⟩ := bind_eq_ok.1 h
  split at htrailing
  · cases htrailing
  · cases htrailing
    exact hread

/-- Reading normalises: the query that a text holds, however it is spelled there, is read again
    and unchanged from what is written for it. So is one that nests deeper than texts may. -/
theorem Query.decode_normalises (q : Query) :
    (∀ text, decode Query.read text = .ok q →
      Query.read maxRoom (.ofJson q.toJson) = .ok q) ∧
    ∀ (d : Draft) (room : Nat), d.Proper → Query.read (room + 4) d = .ok q →
      Query.read (room + 4) (.ofJson q.toJson) = .ok q := by
  refine ⟨fun text h => ?_, fun d room hp h => Query.read_toJson_of_read hp h⟩
  exact Query.read_toJson_of_read (Json.proper_ofText text) (read_of_decode h)

/-- A query and a clause spelled as arrays, with members out of order, an unknown one, an operator
    in an object and a number that is too large for a whole literal. -/
def Sample.spelling : String :=
  "[\"tasks\", \x7b\"take\": null, \"note\": [1], \"where\": [[\"where\", \"size\", " ++
  "[\x7b\"lt\": null\x7d, \x7b\"value\": 18446744073709551615\x7d], " ++
  "null, null, null]]\x7d]"

theorem Query.decode_normalises_spelling :
    ∃ q : Query, decode Query.read Sample.spelling = .ok q ∧
      q.description.conditions ==
        [.compare "size" ⟨.lt, .value (.float 18446744073709551616.0)⟩] ∧
      Query.read maxRoom (.ofJson q.toJson) = .ok q := by
  have hread : (decode Query.read Sample.spelling).toOption.any (fun q =>
      q.description.conditions ==
        [.compare "size" ⟨.lt, .value (.float 18446744073709551616.0)⟩]) = true := by
    decide +kernel
  cases hq : decode Query.read Sample.spelling with
  | error e =>
    rw [hq] at hread
    cases hread
  | ok q =>
    rw [hq] at hread
    exact ⟨q, rfl, hread, (Query.decode_normalises q).1 _ hq⟩

end DocQuery
