-- SUMMARY: Clauses in their surroundings: a connective of one clause makes no difference anywhere, but in the conditions that joins carry along.
import DocQuery.Proofs.Joins
import DocQuery.Proofs.Traversal

/-!
# Clauses in their surroundings

A `Clause.Context` is a clause with a hole, and every occurrence of a sub-clause is what fills the
hole of one. Compilation is compositional: if two clauses compile alike, so does every context
filled with one or the other (`Clause.alike_fill`). All that can tell one from the other are the
conditions of the joins around the hole, which are carried along as they were written
(`Predicate.SameAround`).

The clauses exchanged here are a clause and the same clause as the only one of a connective.
-/

namespace DocQuery

/-! ## Computations that end alike -/

namespace Traced

variable {α β γ δ : Type}

/-- Two computations leave the same events and end alike: with the same error, or with results
    that `R` relates. -/
structure Alike (R : α → β → Prop) (x : Traced α) (y : Traced β) : Prop where
  events : x.events = y.events
  failed : ∀ e, x.outcome = .error e ↔ y.outcome = .error e
  finished : ∀ a b, x.outcome = .ok a → y.outcome = .ok b → R a b

theorem alike_pure {R : α → β → Prop} {a : α} {b : β} (h : R a b) :
    Alike R (pure a) (pure b) where
  events := rfl
  failed _ := by simp
  finished _ _ ha hb := by cases ha; cases hb; exact h

theorem alike_fail {R : α → β → Prop} (e : CompileError) : Alike R (fail e) (fail e) where
  events := rfl
  failed _ := by simp
  finished _ _ ha _ := by cases ha

theorem Alike.refl (x : Traced α) : Alike Eq x x where
  events := rfl
  failed _ := Iff.rfl
  finished _ _ ha hb := Except.ok.inj (ha.symm.trans hb)

theorem Alike.imp {R S : α → β → Prop} {x : Traced α} {y : Traced β} (h : Alike R x y)
    (himp : ∀ a b, R a b → S a b) : Alike S x y :=
  ⟨h.events, h.failed, fun a b ha hb => himp a b (h.finished a b ha hb)⟩

/-- Either both computations fail, in the same way, or both succeed. -/
theorem Alike.cases {R : α → β → Prop} {x : Traced α} {y : Traced β} (h : Alike R x y) :
    (∃ e, x.outcome = .error e ∧ y.outcome = .error e) ∨
    ∃ a b, x.outcome = .ok a ∧ y.outcome = .ok b ∧ R a b := by
  cases hx : x.outcome with
  | error e => exact .inl ⟨e, rfl, (h.failed e).1 hx⟩
  | ok a =>
    cases hy : y.outcome with
    | error e =>
      rw [(h.failed e).2 hy] at hx
      cases hx
    | ok b => exact .inr ⟨a, b, rfl, rfl, h.finished a b hx hy⟩

theorem Alike.eq {x y : Traced α} (h : Alike Eq x y) : x = y := by
  have houtcome : x.outcome = y.outcome := by
    obtain ⟨e, hx, hy⟩ | ⟨a, b, hx, hy, rfl⟩ := h.cases
    · rw [hx, hy]
    · rw [hx, hy]
  have hevents := h.events
  cases x
  cases y
  cases hevents
  cases houtcome
  rfl

/-- Computations in a row end alike if the first ones do, and the second ones do on related
    results. -/
theorem Alike.bind {R : α → β → Prop} {S : γ → δ → Prop} {x : Traced α} {y : Traced β}
    {f : α → Traced γ} {g : β → Traced δ} (hxy : Alike R x y)
    (hfg : ∀ a b, R a b → Alike S (f a) (g b)) : Alike S (x >>= f) (y >>= g) := by
  obtain ⟨e, hx, hy⟩ | ⟨a, b, hx, hy, hab⟩ := hxy.cases
  · refine ⟨?_, ?_, ?_⟩
    · rw [events_bind_error hx, events_bind_error hy, hxy.events]
    · intro e'
      rw [outcome_bind, outcome_bind, hx, hy]
      simp [Bind.bind, Except.bind]
    · intro c d hc
      rw [outcome_bind, hx] at hc
      cases hc
  · have hf : (x >>= f).outcome = (f a).outcome := by
      rw [outcome_bind, hx]
      rfl
    have hg : (y >>= g).outcome = (g b).outcome := by
      rw [outcome_bind, hy]
      rfl
    have halike := hfg a b hab
    refine ⟨?_, ?_, ?_⟩
    · rw [events_bind_ok hx, events_bind_ok hy, hxy.events, halike.events]
    · intro e
      rw [hf, hg]
      exact halike.failed e
    · intro c d hc hd
      exact halike.finished c d (hf.symm.trans hc) (hg.symm.trans hd)

end Traced

/-! ## Contexts -/

/-- A clause with a hole in the place of a sub-clause. -/
inductive Clause.Context where
  | hole
  | group (connective : Connective) (before : List Clause) (inner : Context)
      (after : List Clause)
  | on (table : String) (before : List Clause) (inner : Context) (after : List Clause)

namespace Clause.Context

/-- Puts a clause into the hole. -/
def fill (s : Clause) : Context → Clause
  | hole => s
  | group connective before inner after => .group connective (before ++ inner.fill s :: after)
  | on table before inner after => .on table (before ++ inner.fill s :: after)

/-- Whether the hole is somewhere below an `on`. -/
def belowOn : Context → Bool
  | hole => false
  | group _ _ inner _ => inner.belowOn
  | on .. => true

end Clause.Context

/-- Predicates for a context that is filled with `s` or with `s'`: they are the same up to the
    conditions of the joins around the hole, which are those of the `on` clauses around it. -/
inductive Predicate.SameAround (s s' : Clause) : Clause.Context → Predicate → Predicate → Prop where
  | hole (p : Predicate) : SameAround s s' .hole p p
  /-- A connective of one clause is left out of the predicate. -/
  | alone (connective : Connective) {inner : Clause.Context} {p p' : Predicate} :
    SameAround s s' inner p p' → SameAround s s' (.group connective [] inner []) p p'
  | group (connective : Connective) (before after : List Clause) {inner : Clause.Context}
      (ps qs : List Predicate) {p p' : Predicate} :
    SameAround s s' inner p p' →
    SameAround s s' (.group connective before inner after)
      (.group connective (ps ++ p :: qs)) (.group connective (ps ++ p' :: qs))
  /-- The conditions of a join are connected by `and`. -/
  | on (table mapKey joinKey : String) {before after : List Clause} {inner : Clause.Context}
      {p p' : Predicate} :
    SameAround s s' (.group .and before inner after) p p' →
    SameAround s s' (.on table before inner after)
      (.join table (some p) (before ++ inner.fill s :: after) mapKey joinKey)
      (.join table (some p') (before ++ inner.fill s' :: after) mapKey joinKey)

/-- Without a join around the hole there is nothing to differ in. -/
theorem Predicate.SameAround.eq {s s' : Clause} {context : Clause.Context} {p p' : Predicate}
    (h : SameAround s s' context p p') (hbelow : context.belowOn = false) : p = p' := by
  induction h with
  | hole p => rfl
  | alone connective _ ih => exact ih hbelow
  | group connective before after ps qs _ ih => rw [ih hbelow]
  | on table mapKey joinKey _ ih => cases hbelow

/-! ## Compiling contexts -/

/-- Lists that differ in one place, `n` members before the place and `m` members behind it. -/
def DifferAt {α : Type} (R : α → α → Prop) (n m : Nat) (as bs : List α) : Prop :=
  ∃ cs a b ds, cs.length = n ∧ ds.length = m ∧ as = cs ++ a :: ds ∧ bs = cs ++ b :: ds ∧ R a b

section Compile

variable {settings : Settings} {associations : List Association} {s s' : Clause}

/-- Connecting predicates that differ around a hole. A connective is left out on both sides or on
    none. -/
theorem Predicate.SameAround.connect {inner : Clause.Context} {ps ps' : List Predicate}
    (connective : Connective) {before after : List Clause}
    (h : DifferAt (SameAround s s' inner) before.length after.length ps ps') :
    ∃ p p', Predicate.connect connective ps = .ok p ∧ Predicate.connect connective ps' = .ok p' ∧
      SameAround s s' (.group connective before inner after) p p' := by
  obtain ⟨qs, q, q', rs, hbefore, hafter, rfl, rfl, hq⟩ := h
  by_cases halone : before = [] ∧ after = []
  · obtain ⟨rfl, rfl⟩ := halone
    obtain rfl := List.length_eq_zero_iff.1 hbefore
    obtain rfl := List.length_eq_zero_iff.1 hafter
    exact ⟨q, q', rfl, rfl, .alone connective hq⟩
  · have hlength : 2 ≤ qs.length + (rs.length + 1) := by
      simp only [← List.length_eq_zero_iff] at halone
      omega
    refine ⟨_, _, connect_eq_ok.2 (.inr ⟨?_, rfl⟩), connect_eq_ok.2 (.inr ⟨?_, rfl⟩),
      .group connective before after qs rs hq⟩
    · simpa using hlength
    · simpa using hlength

theorem Predicate.SameAround.conjunction? {inner : Clause.Context} {ps ps' : List Predicate}
    {before after : List Clause}
    (h : DifferAt (SameAround s s' inner) before.length after.length ps ps') :
    ∃ p p', Predicate.conjunction? ps = some p ∧ Predicate.conjunction? ps' = some p' ∧
      SameAround s s' (.group .and before inner after) p p' := by
  obtain ⟨p, p', hp, hp', hsame⟩ := SameAround.connect .and h
  exact ⟨p, p', connect_and_eq_ok.1 hp, connect_and_eq_ok.1 hp', hsame⟩

namespace Clause

/-- There are as many predicates as clauses. -/
private theorem alike_length (cs : List Clause) :
    Traced.Alike (fun ps ps' => ps = ps' ∧ ps.length = cs.length)
      (compileList settings associations cs) (compileList settings associations cs) where
  events := rfl
  failed _ := Iff.rfl
  finished _ _ hps hps' :=
    ⟨Except.ok.inj (hps.symm.trans hps'), (compileList_eq_ok.1 hps).length_eq.symm⟩

/-- Conditions of which one is exchanged compile to predicates of which one is exchanged. -/
theorem alike_compileList {R : Predicate → Predicate → Prop} {c c' : Clause}
    (h : Traced.Alike R (compile settings associations c) (compile settings associations c'))
    (before after : List Clause) :
    Traced.Alike (DifferAt R before.length after.length)
      (compileList settings associations (before ++ c :: after))
      (compileList settings associations (before ++ c' :: after)) := by
  induction before with
  | nil =>
    simp only [List.nil_append, compileList]
    apply h.bind
    intro p p' hp
    apply (alike_length after).bind
    rintro ps _ ⟨rfl, hps⟩
    exact Traced.alike_pure ⟨[], p, p', ps, rfl, hps, rfl, rfl, hp⟩
  | cons b before ih =>
    simp only [List.cons_append, compileList]
    apply (Traced.Alike.refl _).bind
    rintro q _ rfl
    apply ih.bind
    rintro _ _ ⟨qs, p, p', rs, hqs, hrs, rfl, rfl, hp⟩
    exact Traced.alike_pure ⟨q :: qs, p, p', rs, congrArg (· + 1) hqs, hrs, rfl, rfl, hp⟩

/-- Conditions of a join or of a query. -/
theorem alike_compileConjunction {inner : Context}
    (h : Traced.Alike (Predicate.SameAround s s' inner)
      (compile settings associations (inner.fill s))
      (compile settings associations (inner.fill s')))
    (before after : List Clause) :
    Traced.Alike
      (fun query query' => ∃ p p', query = some p ∧ query' = some p' ∧
        Predicate.SameAround s s' (.group .and before inner after) p p')
      (compileConjunction settings associations (before ++ inner.fill s :: after))
      (compileConjunction settings associations (before ++ inner.fill s' :: after)) := by
  apply (alike_compileList h before after).bind
  intro ps ps' hps
  exact Traced.alike_pure (Predicate.SameAround.conjunction? hps)

/-- Clauses that compile to the same predicate, with the same events, are interchangeable in every
    context. -/
theorem alike_fill (h : compile settings associations s = compile settings associations s')
    (context : Context) :
    Traced.Alike (Predicate.SameAround s s' context)
      (compile settings associations (context.fill s))
      (compile settings associations (context.fill s')) := by
  induction context with
  | hole =>
    rw [Context.fill, Context.fill, ← h]
    apply (Traced.Alike.refl _).imp
    rintro p _ rfl
    exact .hole p
  | group connective before inner after ih =>
    rw [Context.fill, Context.fill, compile, compile]
    apply (alike_compileList ih before after).bind
    intro ps ps' hps
    obtain ⟨p, p', hp, hp', hsame⟩ := Predicate.SameAround.connect connective hps
    rw [hp, hp']
    exact Traced.alike_pure hsame
  | on table before inner after ih =>
    rw [Context.fill, Context.fill, compile, compile]
    apply (Traced.Alike.refl _).bind
    rintro association _ rfl
    apply (alike_compileList ih before after).bind
    intro ps ps' hps
    obtain ⟨p, p', hp, hp', hsame⟩ := Predicate.SameAround.conjunction? hps
    rw [hp, hp']
    -- The event of the join has the same keys on both sides.
    apply (Traced.Alike.refl _).bind
    intro _ _ _
    exact Traced.alike_pure (.on table _ _ hsame)

/-- A connective of one clause is that clause. -/
theorem compile_group_singleton (connective : Connective) (c : Clause) :
    compile settings associations (.group connective [c]) = compile settings associations c := by
  rw [compile, compileList, compileList]
  obtain ⟨events, outcome⟩ := compile settings associations c
  cases outcome with
  | error e => rfl
  | ok p =>
    change (⟨(events ++ ([] ++ [])) ++ [], .ok p⟩ : Traced Predicate) = ⟨events, .ok p⟩
    rw [List.append_nil, List.append_nil, List.append_nil]

/-- Conditions are connected by `and` anyway. -/
theorem compileConjunction_group_and {cs : List Clause} (h : cs ≠ []) :
    (compileConjunction settings associations [.group .and cs]).outcome =
      (compileConjunction settings associations cs).outcome := by
  simp only [compileConjunction, Traced.outcome_bind, compileList_cons, compile_group,
    compileList_nil, Traced.outcome_pure]
  cases hps : (compileList settings associations cs).outcome with
  | error e => rfl
  | ok ps =>
    have hne : ps ≠ [] := by
      intro hnil
      have hlength := (compileList_eq_ok.1 hps).length_eq
      rw [hnil, List.length_nil, List.length_eq_zero_iff] at hlength
      exact h hlength
    obtain ⟨p, hp⟩ := Option.ne_none_iff_exists'.1 (mt Predicate.conjunction?_eq_none.1 hne)
    change ((Predicate.connect .and ps >>= fun p => .ok [p]) >>= fun qs =>
      .ok (Predicate.conjunction? qs)) = Except.ok (Predicate.conjunction? ps)
    rw [hp, Predicate.connect_and_eq_ok.2 hp]
    rfl

end Clause

end Compile

/-! ## Queries -/

/-- The query with other conditions. -/
def Query.withConditions (q : Query) (cs : List Clause) : Query :=
  { q with description := { q.description with conditions := cs } }

private theorem Query.unsupported?_withConditions (q : Query) (cs : List Clause) :
    (q.withConditions cs).description.unsupported? = q.description.unsupported? := rfl

/-- Compiled queries whose predicates are the same up to the joins around a hole. -/
structure CompiledQuery.SameAround (s s' : Clause) (context : Clause.Context)
    (compiled compiled' : CompiledQuery) : Prop where
  table : compiled.table = compiled'.table
  query : ∃ p p', compiled.query = some p ∧ compiled'.query = some p' ∧
    Predicate.SameAround s s' context p p'
  hasJoins : compiled.hasJoins = compiled'.hasJoins

theorem CompiledQuery.SameAround.eq {s s' : Clause} {context : Clause.Context}
    {compiled compiled' : CompiledQuery} (h : compiled.SameAround s s' context compiled')
    (hbelow : context.belowOn = false) : compiled = compiled' := by
  obtain ⟨table, query, hasJoins⟩ := compiled
  obtain ⟨table', query', hasJoins'⟩ := compiled'
  obtain ⟨rfl, ⟨p, p', rfl, rfl, hsame⟩, rfl⟩ := h
  rw [hsame.eq hbelow]

namespace Query

/-- Exchanging sub-clauses that compile alike. -/
theorem alike_compile (settings : Settings) (q : Query) {s s' : Clause}
    (h : Clause.compile settings q.associations s = Clause.compile settings q.associations s')
    (before : List Clause) (context : Clause.Context) (after : List Clause) :
    Traced.Alike (CompiledQuery.SameAround s s' (.group .and before context after))
      ((q.withConditions (before ++ context.fill s :: after)).compile settings)
      ((q.withConditions (before ++ context.fill s' :: after)).compile settings) := by
  have hlength : (before ++ context.fill s' :: after).length =
      (before ++ context.fill s :: after).length := by
    simp
  have hconditions := Clause.alike_compileConjunction (Clause.alike_fill h context) before after
  rw [Query.compile, Query.compile, unsupported?_withConditions, unsupported?_withConditions]
  cases q.description.unsupported? with
  | some feature => exact Traced.alike_fail _
  | none =>
    simp only [withConditions, hlength]
    apply (Traced.Alike.refl _).bind
    intro _ _ _
    apply hconditions.bind
    rintro _ _ ⟨p, p', rfl, rfl, hsame⟩
    apply (Traced.Alike.refl _).bind
    intro _ _ _
    exact Traced.alike_pure ⟨rfl, ⟨p, p', rfl, rfl, hsame⟩, rfl⟩

private theorem compile_group_and (settings : Settings) (q : Query) {cs : List Clause}
    (h : cs ≠ []) :
    ((q.withConditions [.group .and cs]).compile settings).outcome =
      ((q.withConditions cs).compile settings).outcome := by
  cases hunsupported : q.description.unsupported? with
  | some feature =>
    have hrefused := fun cs => (unsupported?_withConditions q cs).trans hunsupported
    rw [compile_unsupported (hrefused _), compile_unsupported (hrefused _)]
  | none =>
    have hsupported := fun cs => (unsupported?_withConditions q cs).trans hunsupported
    rw [compile_supported (hsupported _), compile_supported (hsupported _)]
    exact congrArg (Except.map _) (Clause.compileConjunction_group_and h)

/-- A connective of one clause makes no difference. Not below an `on` clause: then a query with
    such a connective around a sub-clause compiles to the same, with the same trace. Below one:
    then the trace and the error are the same, and the compiled query is the same up to the
    conditions of the joins around the sub-clause. And the conditions of a query compile to what
    the `and` of them all does. -/
theorem connective_of_one_transparent (settings : Settings) (q : Query) :
    (∀ connective s before context after,
      (context.belowOn = false →
        (q.withConditions (before ++ context.fill (.group connective [s]) :: after)).compile
            settings =
          (q.withConditions (before ++ context.fill s :: after)).compile settings) ∧
      Traced.Alike
        (CompiledQuery.SameAround s (.group connective [s]) (.group .and before context after))
        ((q.withConditions (before ++ context.fill s :: after)).compile settings)
        ((q.withConditions (before ++ context.fill (.group connective [s]) :: after)).compile
          settings)) ∧
    ∀ cs, cs ≠ [] →
      ((q.withConditions [.group .and cs]).compile settings).outcome =
        ((q.withConditions cs).compile settings).outcome := by
  refine ⟨?_, fun cs => compile_group_and settings q⟩
  intro connective s before context after
  have halike := alike_compile settings q (Clause.compile_group_singleton connective s).symm before
    context after
  refine ⟨fun hbelow => ?_, halike⟩
  exact (halike.imp fun compiled compiled' hsame => hsame.eq hbelow).eq.symm

/-- A connective around the inner join of the nested sample, which is below an `on` clause, around
    the outer one, which is not, and around two conditions. -/
theorem connective_of_one_transparent_nested :
    Traced.Alike
      (CompiledQuery.SameAround (.on "teams" []) (.group .and [.on "teams" []])
        (.group .and [] (.on "projects" [] (.group .or
          [.compare "name" ⟨.eq, .value (.text "new")⟩] .hole []) []) []))
      (Sample.nested.compile {})
      ((Sample.nested.withConditions [.on "projects" [.group .or [
        .compare "name" ⟨.eq, .value (.text "new")⟩, .group .and [.on "teams" []]]]]).compile {}) ∧
    (Sample.nested.withConditions [.group .or Sample.nested.description.conditions]).compile {} =
      Sample.nested.compile {} ∧
    ((Sample.nested.withConditions [.group .and [.on "teams" [], .on "projects" []]]).compile
        {}).outcome =
      ((Sample.nested.withConditions [.on "teams" [], .on "projects" []]).compile {}).outcome := by
  obtain ⟨hwrap, hroot⟩ := connective_of_one_transparent {} Sample.nested
  refine ⟨?_, ?_, hroot _ (List.cons_ne_nil _ _)⟩
  · exact (hwrap .and (.on "teams" []) [] (.on "projects" [] (.group .or
      [.compare "name" ⟨.eq, .value (.text "new")⟩] .hole []) []) []).2
  · exact (hwrap .or (.on "projects" [.group .or [
      .compare "name" ⟨.eq, .value (.text "new")⟩, .on "teams" []]]) [] .hole []).1 rfl

end Query

end DocQuery
