-- SUMMARY: Deferring comparisons of two columns loses no record, and checking them afterwards gives exactly the records asked for.
import DocQuery.Proofs.Reading

/-!
# Deferral

A comparison of two columns compiles to the always-true node and is checked afterwards, record by
record, by a matcher outside of the engine. Nothing is assumed of the matcher but that it looks at
the operator and at the two values.
-/

namespace DocQuery

variable {Value : Type}

/-- Comparisons as they are carried out in the end: those with literals by the engine, those of
    two columns by the matcher. -/
def matchedReading (E : Engine Value) (db : Database Value) (settings : Settings)
    (matcher : Operator → Value → Value → Prop) : Reading Value :=
  engineReading E db settings fun column operator other r =>
    matcher operator (E.read r column) (E.read r other)

section Matched

variable {E : Engine Value} {db : Database Value} {settings : Settings}
  {associations : List Association} {matcher : Operator → Value → Value → Prop}

/-- Leaving out a comparison asks for less. -/
theorem deferredReading_of_matched {column : String} {comparison : Comparison} {r : Record Value}
    (hr : (Predicate.always settings).Holds E db r)
    (h : matchedReading E db settings matcher column comparison r) :
    deferredReading E db settings column comparison r := by
  simp only [matchedReading, deferredReading, engineReading] at h ⊢
  split
  next other hright => exact hr
  next hright => simpa only [hright] using h

private theorem Clause.satisfied_of_matched
    (hdb : ∀ table, ∀ r ∈ db table, (Predicate.always settings).Holds E db r)
    {c : Clause} {r : Record Value} (hr : (Predicate.always settings).Holds E db r)
    (h : c.Satisfied E db settings associations (matchedReading E db settings matcher) r) :
    c.Satisfied E db settings associations (deferredReading E db settings) r :=
  h.mono hdb (fun _ _ _ hr => deferredReading_of_matched hr) hr

end Matched

open Classical in
/-- Deferral loses no record: a compiled predicate holds wherever its clause does. So filtering
    what the engine returns by the full conditions gives exactly the records asked for. All that
    is asked of the engine is that the always-true node is true. -/
theorem Query.matched_of_deferred {E : Engine Value} {db : Database Value} {settings : Settings}
    (hdb : ∀ table, ∀ r ∈ db table, (Predicate.always settings).Holds E db r)
    (matcher : Operator → Value → Value → Prop) :
    (∀ associations c p, (Clause.compile settings associations c).outcome = .ok p →
      ∀ r, (Predicate.always settings).Holds E db r →
        c.Satisfied E db settings associations (matchedReading E db settings matcher) r →
        p.Holds E db r) ∧
    ∀ q compiled, (Query.compile settings q).outcome = .ok compiled →
      (((db compiled.table).filter fun r => Predicate.Accepts E db compiled.query r).filter fun r =>
        ∀ c ∈ q.description.conditions,
          c.Satisfied E db settings q.associations (matchedReading E db settings matcher) r) =
      (db q.table).filter fun r => ∀ c ∈ q.description.conditions,
        c.Satisfied E db settings q.associations (matchedReading E db settings matcher) r := by
  constructor
  · intro associations c p h r hr hsat
    rw [Clause.holds_iff_satisfied h]
    exact Clause.satisfied_of_matched hdb hr hsat
  · intro q compiled h
    obtain ⟨_, query, hquery, rfl⟩ := Query.compile_eq_ok.1 h
    rw [List.filter_filter]
    refine List.filter_congr fun r hr => ?_
    simp only [Clause.accepts_iff_satisfied hquery, ← Bool.decide_and, decide_eq_decide,
      and_iff_left_iff_imp]
    intro hsat c hc
    exact Clause.satisfied_of_matched hdb (hdb q.table r hr) (hsat c hc)

/-- A matcher that compares literals like the engine. -/
def Sample.matcher : Operator → Literal → Literal → Prop
  | .gt, v, w => w.Before v
  | _, _, _ => False

open Classical in
/-- A task with the start behind the stop passes the engine. Filtering the tasks that pass gives
    the tasks asked for. -/
theorem Query.matched_of_deferred_sample :
    Sample.predicate.Holds Engine.literals Sample.database
      (.ofList [("project_id", .int 7), ("start", .int 3), ("stop", .int 1)]) ∧
    (((Sample.database "tasks").filter fun r =>
        Predicate.Accepts Engine.literals Sample.database (some Sample.predicate) r).filter
      fun r => ∀ c ∈ Sample.conditions,
        c.Satisfied Engine.literals Sample.database {} Sample.associations
          (matchedReading Engine.literals Sample.database {} Sample.matcher) r) =
      (Sample.database "tasks").filter fun r => ∀ c ∈ Sample.conditions,
        c.Satisfied Engine.literals Sample.database {} Sample.associations
          (matchedReading Engine.literals Sample.database {} Sample.matcher) r := by
  have hdb : ∀ table, ∀ r ∈ Sample.database table,
      (Predicate.always {}).Holds Engine.literals Sample.database r :=
    fun table r hr => congrArg Option.isSome (Sample.database_lacks_column table r hr)
  have h := Query.matched_of_deferred hdb Sample.matcher
  constructor
  · refine h.1 Sample.associations (.group .and Sample.conditions) Sample.predicate rfl _ rfl ?_
    simp only [Sample.conditions, Clause.Satisfied, Clause.EverySatisfied, Clause.SomeSatisfied]
    refine ⟨.inr (.inl ?_), ⟨_, rfl, rfl⟩, ?_, trivial⟩
    · refine ⟨_, List.mem_singleton_self _, rfl, _, List.mem_singleton_self _, ?_, ?_, trivial⟩
      · simp [Relation.Relates, Engine.read, Record.ofList]
      · refine ⟨_, rfl, ?_⟩
        simp [Condition.toPredicate, Predicate.Holds, FieldTest.Holds, Engine.literals,
          Record.ofList, List.lookup_cons]
    · simp [matchedReading, engineReading, Sample.matcher, Literal.Before, Engine.read,
        Record.ofList, List.lookup_cons]
  · exact h.2 ⟨"tasks", { conditions := Sample.conditions }, Sample.associations⟩ _ rfl

end DocQuery
