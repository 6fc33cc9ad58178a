-- SUMMARY: Compilation as a traversal: the events and faults of a query in order, of which the first fault decides the outcome.
import DocQuery.Proofs.Outcome

/-!
# Compilation as a traversal

The actions of a query are all events and all faults that a reader meets who goes through it from
left to right and is not stopped by a fault. They are defined without the compiler:

- a feature that the engine lacks is a fault, and comes before everything else;
- a comparison of two columns is an event, and a literal of the wrong shape a fault;
- a connective without conditions is a fault, behind its conditions;
- a table without exactly one association is a fault, before the conditions of the join, and the
  join itself is an event behind them.

Compilation performs these actions up to the first fault (`Traced.Performs`).
-/

namespace DocQuery

/-- Something met on the way through a query. -/
inductive Action where
  | event (e : Event)
  | fault (e : CompileError)

namespace Action

def fault? : Action → Option CompileError
  | event _ => none
  | fault e => some e

def firstFault? (actions : List Action) : Option CompileError :=
  actions.findSome? fault?

/-- The events up to the first fault. -/
def eventsBeforeFault : List Action → List Event
  | [] => []
  | .event e :: rest => e :: eventsBeforeFault rest
  | .fault _ :: _ => []

@[simp] theorem firstFault?_nil : firstFault? [] = none := rfl

@[simp] theorem firstFault?_event {e : Event} {rest : List Action} :
    firstFault? (.event e :: rest) = firstFault? rest := rfl

@[simp] theorem firstFault?_fault {e : CompileError} {rest : List Action} :
    firstFault? (.fault e :: rest) = some e := rfl

theorem firstFault?_append {as bs : List Action} :
    firstFault? (as ++ bs) = (firstFault? as).or (firstFault? bs) :=
  List.findSome?_append

theorem eventsBeforeFault_append {as bs : List Action} (h : firstFault? as = none) :
    eventsBeforeFault (as ++ bs) = eventsBeforeFault as ++ eventsBeforeFault bs := by
  induction as with
  | nil => rfl
  | cons a as ih =>
    cases a with
    | event e => simp [eventsBeforeFault, ih h]
    | fault e => cases h

/-- Nothing happens behind a fault. -/
theorem eventsBeforeFault_append_of_fault {as bs : List Action} {e : CompileError}
    (h : firstFault? as = some e) : eventsBeforeFault (as ++ bs) = eventsBeforeFault as := by
  induction as with
  | nil => cases h
  | cons a as ih =>
    cases a with
    | event e => simp [eventsBeforeFault, ih h]
    | fault e => rfl

end Action

/-! ## The actions of a query -/

/-- The fault of a comparison with literals. `weakGt` is reported under the name of `gt`. -/
def Comparison.fault? (c : Comparison) : Option CompileError :=
  match c.right with
  | .column _ => none
  | .value _ =>
    match c.operator with
    | .oneOf => some (.invalidOperand .oneOf .list)
    | .notIn => some (.invalidOperand .notIn .list)
    | .between => some (.invalidOperand .between .list)
    | _ => none
  | .values xs =>
    match c.operator with
    | .eq => some (.invalidOperand .eq .scalar)
    | .notEq => some (.invalidOperand .notEq .scalar)
    | .gt => some (.invalidOperand .gt .scalar)
    | .weakGt => some (.invalidOperand .gt .scalar)
    | .gte => some (.invalidOperand .gte .scalar)
    | .lt => some (.invalidOperand .lt .scalar)
    | .lte => some (.invalidOperand .lte .scalar)
    | .between => if xs.length = 2 then none else some (.invalidOperand .between .pair)
    | _ => none

/-- The fault of a join with a table: it needs exactly one association. -/
def associationFault? (associations : List Association) (table : String) : Option CompileError :=
  match associations.countP fun a => a.target == table with
  | 0 => some (.missingAssociation table)
  | 1 => none
  | n => some (.ambiguousAssociation table n)

/-- The event of a join with a table. -/
def joinEvent? (settings : Settings) (associations : List Association) (table : String) :
    Option Event :=
  (associations.find? fun a => a.target == table).map fun a =>
    .join table (a.relation.mapKey settings) (a.relation.joinKey settings)

mutual

/-- The actions of a clause, in the order of a traversal from left to right. -/
def Clause.actions (settings : Settings) (associations : List Association) :
    Clause → List Action
  | .compare column comparison =>
    match comparison.right with
    | .column other => [.event (.deferred column other)]
    | _ => (comparison.fault?.map .fault).toList
  | .group connective cs =>
    actionsList settings associations cs ++
      if cs.isEmpty then [.fault (.invalidClause connective.name "conditions must not be empty")]
      else []
  | .on table cs =>
    ((associationFault? associations table).map .fault).toList ++
      actionsList settings associations cs ++
      ((joinEvent? settings associations table).map .event).toList
  | .raw _ => []

def Clause.actionsList (settings : Settings) (associations : List Association) :
    List Clause → List Action
  | [] => []
  | c :: cs => c.actions settings associations ++ actionsList settings associations cs

end

/-- The features of a description that the engine lacks. -/
def Description.unsupported (d : Description) : List Feature :=
  (if d.sortBy.isEmpty then [] else [.sortBy]) ++
    (if d.take.isSome then [.take] else []) ++
    (if d.skip.isSome then [.skip] else [])

def Query.actions (settings : Settings) (q : Query) : List Action :=
  q.description.unsupported.map (fun feature => .fault (.unsupportedFeature feature)) ++
    [.event (.start q.table q.description.conditions.length)] ++
    Clause.actionsList settings q.associations q.description.conditions ++
    [.event (.finish q.table (!q.description.conditions.isEmpty)
      (!q.description.joinTables.isEmpty))]

/-! ## Performing actions -/

namespace Traced

variable {α β : Type}

/-- A computation performs actions: it leaves the events before the first fault, fails with that
    fault, and succeeds if there is none. -/
structure Performs (x : Traced α) (actions : List Action) : Prop where
  events : x.events = Action.eventsBeforeFault actions
  failed : ∀ e, Action.firstFault? actions = some e → x.outcome = .error e
  finished : Action.firstFault? actions = none → ∃ a, x.outcome = .ok a

theorem events_bind_ok {x : Traced α} {f : α → Traced β} {a : α} (h : x.outcome = .ok a) :
    (x >>= f).events = x.events ++ (f a).events := by
  change (Traced.bind x f).events = _
  simp only [Traced.bind, h]

theorem events_bind_error {x : Traced α} {f : α → Traced β} {e : CompileError}
    (h : x.outcome = .error e) : (x >>= f).events = x.events := by
  change (Traced.bind x f).events = _
  simp only [Traced.bind, h]

theorem performs_pure (a : α) : (pure a : Traced α).Performs [] where
  events := rfl
  failed _ h := nomatch h
  finished _ := ⟨a, rfl⟩

theorem performs_emit (e : Event) : (emit e).Performs [.event e] where
  events := rfl
  failed _ h := nomatch h
  finished _ := ⟨(), rfl⟩

theorem performs_fail (e : CompileError) (rest : List Action) :
    (fail e : Traced α).Performs (.fault e :: rest) where
  events := rfl
  failed _ h := by cases h; rfl
  finished h := nomatch h

/-- The actions of two computations in a row follow one another, and the second computation only
    counts if the first one succeeds. -/
theorem Performs.bind {x : Traced α} {f : α → Traced β} {as bs : List Action}
    (hx : x.Performs as) (hf : ∀ a, x.outcome = .ok a → (f a).Performs bs) :
    (x >>= f).Performs (as ++ bs) := by
  cases has : Action.firstFault? as with
  | some e =>
    have hfail := hx.failed e has
    have hfirst : Action.firstFault? (as ++ bs) = some e := by
      simp [Action.firstFault?_append, has]
    refine ⟨?_, ?_, ?_⟩
    · rw [events_bind_error hfail, Action.eventsBeforeFault_append_of_fault has, hx.events]
    · intro e' he'
      obtain rfl : e = e' := Option.some.inj (hfirst.symm.trans he')
      rw [outcome_bind, hfail]
      rfl
    · intro hnone
      rw [hfirst] at hnone
      cases hnone
  | none =>
    obtain ⟨a, ha⟩ := hx.finished has
    have hfirst : Action.firstFault? (as ++ bs) = Action.firstFault? bs := by
      simp [Action.firstFault?_append, has]
    have houtcome : (x >>= f).outcome = (f a).outcome := by
      rw [outcome_bind, ha]
      rfl
    refine ⟨?_, ?_, ?_⟩
    · rw [events_bind_ok ha, Action.eventsBeforeFault_append has, hx.events, (hf a ha).events]
    · intro e he
      rw [houtcome]
      exact (hf a ha).failed e (hfirst.symm.trans he)
    · intro hnone
      rw [houtcome]
      exact (hf a ha).finished (hfirst.symm.trans hnone)

end Traced

/-! ## Compilation performs the actions of a query -/

private theorem Comparison.performs_condition {settings : Settings} {c : Comparison}
    (hright : ∀ other, c.right ≠ .column other) :
    (Traced.ofExcept (c.condition settings)).Performs (c.fault?.map .fault).toList := by
  obtain ⟨op, right⟩ := c
  cases right with
  | column other => exact absurd rfl (hright other)
  | value x =>
    cases op
    case oneOf | notIn | between => exact Traced.performs_fail _ []
    case eq | notEq | like | notLike =>
      cases x <;> exact Traced.performs_pure _
    case gt | weakGt | gte | lt | lte => exact Traced.performs_pure _
  | values xs =>
    cases op
    case eq | notEq | gt | weakGt | gte | lt | lte => exact Traced.performs_fail _ []
    case oneOf | notIn | like | notLike => exact Traced.performs_pure _
    case between =>
      match xs with
      | [low, high] => exact Traced.performs_pure _
      | [] | [_] | _ :: _ :: _ :: _ => exact Traced.performs_fail _ []

private theorem performs_findAssociation {associations : List Association} {table : String} :
    (Traced.ofExcept (findAssociation associations table)).Performs
      ((associationFault? associations table).map .fault).toList := by
  simp only [findAssociation, associationFault?, List.countP_eq_length_filter]
  generalize (associations.filter fun a => a.target == table) = found
  match found with
  | [] => exact Traced.performs_fail _ []
  | [a] => exact Traced.performs_pure a
  | _ :: _ :: _ => exact Traced.performs_fail _ []

theorem joinEvent?_of_findAssociation {settings : Settings} {associations : List Association}
    {table : String} {a : Association} (h : findAssociation associations table = .ok a) :
    joinEvent? settings associations table =
      some (.join table (a.relation.mapKey settings) (a.relation.joinKey settings)) := by
  rw [joinEvent?, ← List.head?_filter, findAssociation_eq_ok.1 h]
  rfl

namespace Clause

variable {settings : Settings} {associations : List Association}

private theorem performs_connect {connective : Connective} {cs : List Clause} {ps : List Predicate}
    (h : (compileList settings associations cs).outcome = .ok ps) :
    (Traced.ofExcept (Predicate.connect connective ps)).Performs
      (if cs.isEmpty then [.fault (.invalidClause connective.name "conditions must not be empty")]
        else []) := by
  have hlength := (compileList_eq_ok.1 h).length_eq
  match cs, ps with
  | [], [] => exact Traced.performs_fail _ []
  | [_], [p] => exact Traced.performs_pure p
  | _ :: _ :: _, _ :: _ :: _ => exact Traced.performs_pure _

private theorem performs_compileList {cs : List Clause}
    (h : ∀ c ∈ cs, (compile settings associations c).Performs (c.actions settings associations)) :
    (compileList settings associations cs).Performs (actionsList settings associations cs) := by
  induction cs with
  | nil =>
    rw [compileList, actionsList]
    exact Traced.performs_pure []
  | cons c cs ih =>
    rw [compileList, actionsList, ← List.append_nil (actionsList settings associations cs)]
    have hcs := ih fun c hc => h c (List.mem_cons_of_mem _ hc)
    refine (h c List.mem_cons_self).bind fun p _ => ?_
    exact hcs.bind fun ps _ => Traced.performs_pure (p :: ps)

/-- Compiling a clause performs its actions. -/
theorem performs_compile (c : Clause) :
    (compile settings associations c).Performs (c.actions settings associations) := by
  induction c with
  | compare column comparison =>
    by_cases hright : ∃ other, comparison.right = .column other
    · obtain ⟨other, hright⟩ := hright
      simp only [compile, actions, hright]
      exact (Traced.performs_emit _).bind fun _ _ => Traced.performs_pure _
    · have hright : ∀ other, comparison.right ≠ .column other := not_exists.1 hright
      simp only [compile, actions]
      rw [← List.append_nil (Option.toList _)]
      exact (Comparison.performs_condition hright).bind fun _ _ => Traced.performs_pure _
  | group connective cs ih =>
    rw [compile, actions]
    exact (performs_compileList ih).bind fun ps hps => performs_connect hps
  | on table cs ih =>
    rw [compile, actions, List.append_assoc]
    refine performs_findAssociation.bind fun a ha => ?_
    rw [joinEvent?_of_findAssociation ha]
    refine (performs_compileList ih).bind fun ps _ => ?_
    exact (Traced.performs_emit _).bind fun _ _ => Traced.performs_pure _
  | raw expression =>
    rw [compile, actions]
    exact Traced.performs_pure _

theorem performs_compileConjunction {cs : List Clause} :
    (compileConjunction settings associations cs).Performs
      (actionsList settings associations cs) := by
  rw [compileConjunction, ← List.append_nil (actionsList settings associations cs)]
  refine (performs_compileList fun c _ => performs_compile c).bind fun ps _ => ?_
  exact Traced.performs_pure _

end Clause

theorem Description.head?_unsupported (d : Description) :
    d.unsupported.head? = d.unsupported? := by
  simp only [Description.unsupported, Description.unsupported?]
  cases d.sortBy.isEmpty <;> cases d.take.isSome <;> cases d.skip.isSome <;> rfl

/-- Compiling a query performs its actions. -/
theorem Query.performs_compile (settings : Settings) (q : Query) :
    (q.compile settings).Performs (q.actions settings) := by
  rw [Query.compile, Query.actions, ← Description.head?_unsupported]
  cases q.description.unsupported with
  | cons feature features => exact Traced.performs_fail _ _
  | nil =>
    simp only [List.head?_nil, List.map_nil, List.nil_append, List.append_assoc]
    refine (Traced.performs_emit _).bind fun _ _ => ?_
    refine Clause.performs_compileConjunction.bind fun query hquery => ?_
    rw [← Clause.isSome_of_compileConjunction hquery]
    exact (Traced.performs_emit _).bind fun _ _ => Traced.performs_pure _

/-! ## The first fault decides -/

theorem Action.firstFault?_eq_none {actions : List Action} :
    firstFault? actions = none ↔ ∀ e, .fault e ∉ actions := by
  induction actions with
  | nil => simp
  | cons a actions ih =>
    cases a with
    | event e => simp [ih]
    | fault e =>
      simp only [firstFault?_fault, List.mem_cons, reduceCtorEq, false_iff]
      intro h
      exact h e (.inl rfl)

theorem Action.mem_of_firstFault? {actions : List Action} {e : CompileError}
    (h : firstFault? actions = some e) : .fault e ∈ actions := by
  induction actions with
  | nil => cases h
  | cons a actions ih =>
    cases a with
    | event _ => exact List.mem_cons_of_mem _ (ih h)
    | fault _ => cases h; exact List.mem_cons_self

namespace Traced

variable {α : Type} {x : Traced α} {actions : List Action}

theorem Performs.outcome_eq_error (h : x.Performs actions) {e : CompileError} :
    x.outcome = .error e ↔ Action.firstFault? actions = some e := by
  constructor
  · intro hx
    cases hfault : Action.firstFault? actions with
    | none =>
      obtain ⟨a, ha⟩ := h.finished hfault
      rw [hx] at ha
      cases ha
    | some e' =>
      rw [h.failed e' hfault] at hx
      cases hx
      rfl
  · exact h.failed e

theorem Performs.exists_outcome_eq_ok (h : x.Performs actions) :
    (∃ a, x.outcome = .ok a) ↔ ∀ e, .fault e ∉ actions := by
  rw [← Action.firstFault?_eq_none]
  constructor
  · rintro ⟨a, ha⟩
    cases hfault : Action.firstFault? actions with
    | none => rfl
    | some e =>
      rw [h.failed e hfault] at ha
      cases ha
  · exact h.finished

end Traced

/-! An error of the class `invariantViolation` says that something is broken before compilation
starts: a clause of an unknown kind, or two columns that were not kept from the operators. No
fault of a query is one. -/

private theorem Comparison.errorClass_of_fault {c : Comparison} {e : CompileError}
    (h : c.fault? = some e) : e.errorClass ≠ .invariantViolation := by
  obtain ⟨op, right⟩ := c
  cases right with
  | column other => cases h
  | value x =>
    cases op
    case oneOf | notIn | between => cases h; decide
    case eq | notEq | gt | weakGt | gte | lt | lte | like | notLike => cases h
  | values xs =>
    cases op
    case eq | notEq | gt | weakGt | gte | lt | lte => cases h; decide
    case oneOf | notIn | like | notLike => cases h
    case between =>
      simp only [Comparison.fault?] at h
      split at h
      · cases h
      · cases h; decide

private theorem errorClass_of_associationFault {associations : List Association} {table : String}
    {e : CompileError} (h : associationFault? associations table = some e) :
    e.errorClass ≠ .invariantViolation := by
  simp only [associationFault?] at h
  split at h
  next => cases h; simp [CompileError.errorClass]
  next => cases h
  next => cases h; simp [CompileError.errorClass]

theorem Clause.mem_actionsList {settings : Settings} {associations : List Association}
    {cs : List Clause} {a : Action} :
    a ∈ actionsList settings associations cs ↔ ∃ c ∈ cs, a ∈ c.actions settings associations := by
  induction cs with
  | nil => simp [actionsList]
  | cons c cs ih => simp [actionsList, ih]

private theorem Clause.errorClass_of_fault {settings : Settings} {associations : List Association}
    {c : Clause} {e : CompileError} (h : .fault e ∈ c.actions settings associations) :
    e.errorClass ≠ .invariantViolation := by
  induction c with
  | compare column comparison =>
    rw [actions] at h
    split at h
    next => simp at h
    next => exact Comparison.errorClass_of_fault (by simpa using h)
  | group connective cs ih =>
    rw [actions, List.mem_append, mem_actionsList] at h
    rcases h with ⟨c, hc, h⟩ | h
    · exact ih c hc h
    · split at h
      · cases List.mem_singleton.1 h
        simp [CompileError.errorClass]
      · cases h
  | on table cs ih =>
    rw [actions, List.mem_append, List.mem_append, mem_actionsList] at h
    rcases h with (h | ⟨c, hc, h⟩) | h
    · exact errorClass_of_associationFault (by simpa using h)
    · exact ih c hc h
    · simp at h
  | raw expression => simp [actions] at h

private theorem Query.errorClass_of_fault {settings : Settings} {q : Query} {e : CompileError}
    (h : .fault e ∈ q.actions settings) : e.errorClass ≠ .invariantViolation := by
  simp only [Query.actions, List.mem_append, List.mem_map, List.mem_singleton, reduceCtorEq,
    or_false, Clause.mem_actionsList, Action.fault.injEq] at h
  rcases h with ⟨feature, _, rfl⟩ | ⟨c, _, h⟩
  · simp [CompileError.errorClass]
  · exact Clause.errorClass_of_fault h

/-- Compilation fails with the first fault of a query and with nothing else. It succeeds exactly
    if there is no fault. Errors of a broken invariant never occur. -/
theorem Query.first_fault_decides (settings : Settings) (q : Query) :
    (∀ e, (q.compile settings).outcome = .error e ↔
      Action.firstFault? (q.actions settings) = some e) ∧
    ((∃ compiled, (q.compile settings).outcome = .ok compiled) ↔
      ∀ e, .fault e ∉ q.actions settings) ∧
    ¬ ∃ e, (q.compile settings).outcome = .error e ∧ e.errorClass = .invariantViolation := by
  have hperforms := Query.performs_compile settings q
  refine ⟨fun e => hperforms.outcome_eq_error, hperforms.exists_outcome_eq_ok, ?_⟩
  rintro ⟨e, he, hclass⟩
  have hmem := Action.mem_of_firstFault? (hperforms.outcome_eq_error.1 he)
  exact Query.errorClass_of_fault hmem hclass

end DocQuery
