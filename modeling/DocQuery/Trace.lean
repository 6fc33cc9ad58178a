-- SUMMARY: Computations that may fail and leave a trace of events, up to the failure or the end.
import DocQuery.CompileError

/-!
# Traces

`Traced α` is a computation that has left some events and either failed or produced an `α`. What
happened before a failure stays in the trace.
-/

namespace DocQuery

/-- A step of compilation worth telling. -/
inductive Event where
  | start (table : String) (conditions : Nat)
  /-- A comparison of two columns was left to whoever matches records one by one. -/
  | deferred (column comparedTo : String)
  | join (table mapKey joinKey : String)
  | finish (table : String) (hasPredicate hasJoins : Bool)
deriving DecidableEq, Repr

def Event.display : Event → String
  | start table conditions => "start table=" ++ table ++ " conditions=" ++ toString conditions
  | deferred column comparedTo => "deferred column=" ++ column ++ " compared_to=" ++ comparedTo
  | join table mapKey joinKey =>
    "join table=" ++ table ++ " map_key=" ++ mapKey ++ " join_key=" ++ joinKey
  | finish table hasPredicate hasJoins =>
    "finish table=" ++ table ++ " predicate=" ++ toString hasPredicate
      ++ " joins=" ++ toString hasJoins

/-- A computation with its events. -/
structure Traced (α : Type) where
  events : List Event
  outcome : Except CompileError α

namespace Traced

variable {α β : Type}

protected def pure (a : α) : Traced α :=
  ⟨[], .ok a⟩

protected def bind (x : Traced α) (f : α → Traced β) : Traced β :=
  match x.outcome with
  | .ok a =>
    let y := f a
    ⟨x.events ++ y.events, y.outcome⟩
  | .error e => ⟨x.events, .error e⟩

instance : Monad Traced where
  pure := Traced.pure
  bind := Traced.bind

/-- Leaves one event. -/
def emit (event : Event) : Traced Unit :=
  ⟨[event], .ok ()⟩

/-- A computation without events. -/
def ofExcept (x : Except CompileError α) : Traced α :=
  ⟨[], x⟩

/-- A failure. -/
def fail (e : CompileError) : Traced α :=
  ⟨[], .error e⟩

end Traced

end DocQuery
