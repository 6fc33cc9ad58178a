-- SUMMARY: Reading clauses.
import DocQuery.Clause
import DocQuery.Decode.Comparison

/-!
# Reading clauses

A clause is first read loosely: every member it may have is read and must be well typed, whatever
the kind of the clause. Only then is the kind looked at, and the members that it needs.
-/

namespace DocQuery

open Json (Draft)

/-- A clause whose kind has not been looked at. A member that is null counts as absent. -/
structure Clause.Loose where
  kind : String
  left : Option String := none
  comparison : Option Comparison := none
  table : Option String := none
  conditions : Option (List Clause) := none
  expr : Option Expression := none

/-- A member that the kind of a clause needs. -/
def Clause.need {α : Type} (kind member : String) : Option α → Except CompileError α
  | some a => .ok a
  | none => .error (.missingMember kind member)

/-- The clause of the given kind; it must have what its kind needs, in the order asked for here. -/
def Clause.ofLoose (c : Clause.Loose) : Except CompileError Clause := do
  match c.kind with
  | "where" =>
    let left ← need "where" "left" c.left
    let comparison ← need "where" "comparison" c.comparison
    return .compare left comparison
  | "and" => return .group .and (← need "and" "conditions" c.conditions)
  | "or" => return .group .or (← need "or" "conditions" c.conditions)
  | "on" =>
    let table ← need "on" "table" c.table
    let conditions ← need "on" "conditions" c.conditions
    return .on table conditions
  | "loki" => return .raw (← need "loki" "expr" c.expr)
  | kind => .error (.unknownClauseKind kind)

/-! ## The loose form -/

/-- A loose clause under construction; the outer options tell which members have been read. -/
structure Clause.Parts where
  kind : Option String := none
  left : Option (Option String) := none
  comparison : Option (Option Comparison) := none
  table : Option (Option String) := none
  conditions : Option (Option (List Clause)) := none
  expr : Option (Option Expression) := none

def Expression.read (room : Nat) (d : Draft) : Except ReadError Expression :=
  ofText ((d.toJson room).map Expression.ofJson)

/-- The members of a clause. `readConditions` reads a list of clauses. -/
def Clause.fields (room : Nat) (readConditions : Draft → Except ReadError (List Clause)) :
    List (Field Clause.Parts) := [
  { name := "type", optional := false, given := fun p => p.kind.isSome,
    read := fun d p => do return { p with kind := some (← readString d) } },
  { name := "left", optional := false, given := fun p => p.left.isSome,
    read := fun d p => do return { p with left := some (← readOption readString d) } },
  { name := "comparison", optional := false, given := fun p => p.comparison.isSome,
    read := fun d p => do
      return { p with comparison := some (← readOption (Comparison.read room) d) } },
  { name := "table", optional := false, given := fun p => p.table.isSome,
    read := fun d p => do return { p with table := some (← readOption readString d) } },
  { name := "conditions", optional := false, given := fun p => p.conditions.isSome,
    read := fun d p => do
      return { p with conditions := some (← readOption readConditions d) } },
  { name := "expr", optional := false, given := fun p => p.expr.isSome,
    read := fun d p => do
      return { p with expr := some (← readOption (Expression.read room) d) } }]

/-- The loose clause, once all members have been read. Only the kind cannot be absent. -/
def Clause.Parts.finish (p : Clause.Parts) : Except ReadError Clause.Loose := do
  return {
    kind := ← required "type" p.kind
    left := p.left.join
    comparison := p.comparison.join
    table := p.table.join
    conditions := p.conditions.join
    expr := p.expr.join }

/-- Accepts a loose clause that makes sense. -/
def Clause.Loose.check (c : Clause.Loose) : Except ReadError Clause :=
  match Clause.ofLoose c with
  | .ok clause => .ok clause
  | .error error => refuse (.refused error)

/-! ## Clauses -/

/-- Reads a clause. Its conditions stand two containers further in. -/
def Clause.read (room : Nat) (d : Draft) : Except ReadError Clause := do
  let fields := match room with
    | 0 => none
    | room + 1 =>
      let readClause := match room with
        | 0 => none
        | room + 1 => some (Clause.read room)
      some (Clause.fields room (readList readClause))
  let p ← readRecord "struct RawClause" fields {} d
  (← p.finish).check

end DocQuery
