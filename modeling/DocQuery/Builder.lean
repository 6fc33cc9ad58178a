-- SUMMARY: Building a query step by step, its conditions serving as a stack of clauses.
import DocQuery.Compile

/-!
# Builders

A builder holds a query under construction together with the settings to compile it with. The
conditions of the query are a stack whose top is the last condition.
-/

namespace DocQuery

structure Builder where
  query : Query := { table := "t" }
  settings : Settings := {}

namespace Builder

/-! ## The stack -/

def conditions (b : Builder) : List Clause :=
  b.query.description.conditions

def withDescription (b : Builder) (d : Description) : Builder :=
  { b with query := { b.query with description := d } }

def withConditions (b : Builder) (cs : List Clause) : Builder :=
  b.withDescription { b.query.description with conditions := cs }

def depth (b : Builder) : Nat :=
  b.conditions.length

def top? (b : Builder) : Option Clause :=
  b.conditions.getLast?

def push (b : Builder) (c : Clause) : Builder :=
  b.withConditions (b.conditions ++ [c])

def pop (b : Builder) : Builder :=
  b.withConditions b.conditions.dropLast

/-- The top `n` clauses, in the order in which they were pushed. -/
def top (b : Builder) (n : Nat) : List Clause :=
  b.conditions.drop (b.depth - n)

/-- Replaces the top `n` clauses by one clause made of them. -/
def gather (b : Builder) (n : Nat) (wrap : List Clause → Clause) : Builder :=
  (b.withConditions (b.conditions.take (b.depth - n))).push (wrap (b.top n))

/-- Wraps a clause into itself `times` times. With `sibling`, each layer also compares the column
    `n` with the number of the layer. -/
def nestClause (wrap : List Clause → Clause) (sibling : Bool) (c : Clause) (times : Nat) : Clause :=
  (List.range times).foldl (fun c i =>
    let layer : Clause :=
      .compare "n" { operator := .eq, right := .value (.int (Int64.ofNat i)) }
    wrap (if sibling then [c, layer] else [c])) c

/-- Wraps the top clause. -/
def nest (b : Builder) (wrap : List Clause → Clause) (sibling : Bool) (times : Nat) : Builder :=
  match b.top? with
  | none => b
  | some c => b.pop.push (nestClause wrap sibling c times)

/-- Whether the two top clauses are equal. -/
def topsEqual (b : Builder) : Bool :=
  match b.top 2 with
  | [c, d] => c == d
  | _ => false

/-! ## The rest of the query -/

def addJoinTables (b : Builder) (tables : List String) : Builder :=
  let d := b.query.description
  b.withDescription { d with joinTables := d.joinTables ++ tables }

def associate (b : Builder) (a : Association) : Builder :=
  { b with query := { b.query with associations := b.query.associations ++ [a] } }

def addSortKey (b : Builder) (k : SortKey) : Builder :=
  let d := b.query.description
  b.withDescription { d with sortBy := d.sortBy ++ [k] }

def clearSort (b : Builder) : Builder :=
  b.withDescription { b.query.description with sortBy := [] }

def setTake (b : Builder) (n : Option UInt64) : Builder :=
  b.withDescription { b.query.description with take := n }

def setSkip (b : Builder) (n : Option UInt64) : Builder :=
  b.withDescription { b.query.description with skip := n }

/-- A fresh query on a table, with the clauses of the current one. -/
def restart (b : Builder) (table : String) : Builder :=
  { b with query := { table, description := { conditions := b.conditions } } }

def compile (b : Builder) : Traced CompiledQuery :=
  b.query.compile b.settings

end Builder

end DocQuery
