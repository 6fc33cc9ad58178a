-- SUMMARY: The trace of a compilation: the events of the traversal up to the first fault, and the joins among them in post-order.
import DocQuery.Proofs.Joins
import DocQuery.Proofs.Traversal

/-!
# The trace of a compilation

Compilation leaves its events while it goes through the clauses, so a trace could miss an event,
tell one twice or go on behind a failure. It does not: between the start and the finish it is the
traversal of the conditions, cut off at the first fault. Behind a success nothing is cut off, and
the joins of the trace are the joins of the predicate, what stands inside first.
-/

namespace DocQuery

/-! ## Joins among events -/

def Event.isJoin : Event → Bool
  | join .. => true
  | _ => false

/-- The event that tells of a join. -/
def Join.event (j : Join) : Event :=
  .join j.table j.mapKey j.joinKey

namespace Action

/-- The event of a join. -/
def join? : Action → Option Event
  | event e => if e.isJoin then some e else none
  | fault _ => none

/-- Without a fault no join is cut off. -/
theorem filter_eventsBeforeFault {actions : List Action} (h : firstFault? actions = none) :
    (eventsBeforeFault actions).filter Event.isJoin = actions.filterMap join? := by
  induction actions with
  | nil => rfl
  | cons a actions ih =>
    cases a with
    | event e =>
      rw [eventsBeforeFault, List.filter_cons, List.filterMap_cons, ih h, join?]
      cases e.isJoin with
      | true => rfl
      | false => rfl
    | fault e => cases h

@[simp] theorem filterMap_join?_faults (faults : Option CompileError) :
    (faults.map Action.fault).toList.filterMap join? = [] := by
  cases faults with
  | none => rfl
  | some e => rfl

end Action

namespace Clause

variable {settings : Settings} {associations : List Association}

/-- The joins that the traversal of a clause tells of are the joins of a predicate. -/
def TellsJoins (settings : Settings) (associations : List Association) (c : Clause)
    (p : Predicate) : Prop :=
  (c.actions settings associations).filterMap Action.join? = p.joins.map Join.event

private theorem tellsJoins_list {cs : List Clause} {ps : List Predicate}
    (h : List.Forall₂ (TellsJoins settings associations) cs ps) :
    (actionsList settings associations cs).filterMap Action.join? =
      (Predicate.joinsList ps).map Join.event := by
  induction h with
  | nil => rfl
  | cons hcp _ ih =>
    rw [actionsList, Predicate.joinsList, List.filterMap_append, List.map_append, hcp, ih]

private theorem preserved_tellsJoins :
    Preserved settings associations (TellsJoins settings associations) where
  deferred column operator other := rfl
  compared column comparison condition hright _ := by
    have hactions : (actions settings associations (.compare column comparison)).filterMap
        Action.join? = [] := by
      rw [actions]
      split
      next other heq => exact absurd heq (hright other)
      next => exact Action.filterMap_join?_faults comparison.fault?
    rw [TellsJoins, hactions]
    cases condition with
    | test t => rfl
    | always => rfl
  group connective cs ps p _ htells hconnect := by
    have htail : (if cs.isEmpty then
        [Action.fault (.invalidClause connective.name "conditions must not be empty")]
        else []).filterMap Action.join? = [] := by
      split
      · rfl
      · rfl
    rw [TellsJoins, actions, List.filterMap_append, tellsJoins_list htells, htail,
      List.append_nil, Predicate.joins_connect hconnect]
  on table cs ps association hassociation _ htells := by
    -- The association is there, so the event of the join itself is, behind those of the conditions.
    rw [TellsJoins, actions, joinEvent?_of_findAssociation hassociation, List.filterMap_append,
      List.filterMap_append, Action.filterMap_join?_faults, tellsJoins_list htells,
      Predicate.joins, Predicate.joinsOption_conjunction?, List.map_append]
    rfl
  raw expression := rfl

/-- The joins that the traversal of compiled conditions tells of. -/
private theorem tellsJoins_conjunction {cs : List Clause} {query : Option Predicate}
    (h : (compileConjunction settings associations cs).outcome = .ok query) :
    (actionsList settings associations cs).filterMap Action.join? =
      (Predicate.joinsOption query).map Join.event := by
  obtain ⟨ps, hps, rfl⟩ := compileConjunction_eq_ok.1 h
  rw [Predicate.joinsOption_conjunction?]
  refine tellsJoins_list ((compileList_eq_ok.1 hps).imp ?_)
  intro c p hcp
  exact compile_induction preserved_tellsJoins hcp

end Clause

/-! ## The trace of a query -/

namespace Query

variable {settings : Settings} {q : Query}

/-- The last event of a compilation that came to its end. -/
def finishEvent (q : Query) (compiled : CompiledQuery) : Event :=
  .finish q.table compiled.query.isSome compiled.hasJoins

private theorem events_of_unsupported (h : q.description.unsupported ≠ []) :
    (q.compile settings).events = [] := by
  rw [(performs_compile settings q).events, actions]
  cases hunsupported : q.description.unsupported with
  | nil => exact absurd hunsupported h
  | cons feature features => rfl

private theorem events_of_supported (h : q.description.unsupported = []) :
    (q.compile settings).events =
      [.start q.table q.description.conditions.length] ++
      Action.eventsBeforeFault
        (Clause.actionsList settings q.associations q.description.conditions) ++
      ((q.compile settings).outcome.toOption.map q.finishEvent).toList := by
  have hsupported : q.description.unsupported? = none := by
    rw [← Description.head?_unsupported, h]
    rfl
  have hconditions := @Clause.performs_compileConjunction settings q.associations
    q.description.conditions
  rw [(performs_compile settings q).events, actions, h, compile_supported hsupported]
  simp only [List.map_nil, List.nil_append, List.cons_append, Action.eventsBeforeFault]
  congr 1
  cases houtcome : (Clause.compileConjunction settings q.associations
      q.description.conditions).outcome with
  | error e =>
    rw [Action.eventsBeforeFault_append_of_fault (hconditions.outcome_eq_error.1 houtcome)]
    exact (List.append_nil _).symm
  | ok query =>
    have hnone := Action.firstFault?_eq_none.2 (hconditions.exists_outcome_eq_ok.1 ⟨_, houtcome⟩)
    rw [Action.eventsBeforeFault_append hnone, ← Clause.isSome_of_compileConjunction houtcome]
    rfl

/-- The joins of a trace are those of the predicate, in post-order. -/
theorem filter_isJoin_events {compiled : CompiledQuery}
    (h : (q.compile settings).outcome = .ok compiled) :
    (q.compile settings).events.filter Event.isJoin =
      (Predicate.joinsOption compiled.query).map Join.event := by
  have hperforms := performs_compile settings q
  have hnone := Action.firstFault?_eq_none.2 (hperforms.exists_outcome_eq_ok.1 ⟨_, h⟩)
  obtain ⟨hsupported, query, hquery, rfl⟩ := compile_eq_ok.1 h
  have hunsupported : q.description.unsupported = [] := by
    rw [← List.head?_eq_none_iff, Description.head?_unsupported, hsupported]
  rw [hperforms.events, Action.filter_eventsBeforeFault hnone, actions, hunsupported,
    List.filterMap_append, List.filterMap_append, Clause.tellsJoins_conjunction hquery]
  exact List.append_nil _

/-- The trace is the traversal: nothing if a feature is refused, and else the start, the events of
    the conditions up to the first fault, and the finish exactly if the query compiles. Its joins
    are then those of the predicate. -/
theorem events_follow_traversal (settings : Settings) (q : Query) :
    (q.description.unsupported ≠ [] → (q.compile settings).events = []) ∧
    (q.description.unsupported = [] →
      (q.compile settings).events =
        [.start q.table q.description.conditions.length] ++
        Action.eventsBeforeFault
          (Clause.actionsList settings q.associations q.description.conditions) ++
        ((q.compile settings).outcome.toOption.map q.finishEvent).toList) ∧
    ∀ compiled, (q.compile settings).outcome = .ok compiled →
      (q.compile settings).events.filter Event.isJoin =
        (Predicate.joinsOption compiled.query).map Join.event :=
  ⟨events_of_unsupported, events_of_supported, fun _ h => filter_isJoin_events h⟩

end Query

/-- A comparison of columns inside a join, then a connective without conditions, then another
    comparison of columns. -/
def Sample.stopped : Query where
  table := "tasks"
  description := {
    conditions := [
      .on "projects" [.compare "owner" ⟨.eq, .column "author"⟩],
      .group .or [],
      .compare "start" ⟨.lt, .column "end"⟩] }
  associations := [⟨"projects", .belongsTo "project_id"⟩]

/-- The same, of which only some records are asked for. -/
def Sample.refused : Query :=
  { Sample.stopped with description := { Sample.stopped.description with take := some 5 } }

/-- A query that is refused at once, one that stops half way, and one that compiles. -/
theorem Query.events_follow_traversal_samples :
    (Sample.refused.compile {}).events = [] ∧
    (Sample.stopped.compile {}).events =
      [.start "tasks" 3, .deferred "owner" "author", .join "projects" "id" "project_id"] ∧
    (Sample.nested.compile {}).events.filter Event.isJoin =
      [.join "teams" "project_id" "id", .join "projects" "id" "project_id"] := by
  refine ⟨(events_follow_traversal {} Sample.refused).1 (List.cons_ne_nil _ _), ?_, ?_⟩
  · exact (events_follow_traversal {} Sample.stopped).2.1 rfl
  · exact (events_follow_traversal {} Sample.nested).2.2 _ rfl

end DocQuery
