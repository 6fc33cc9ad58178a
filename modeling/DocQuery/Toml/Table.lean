-- SUMMARY: TOML values and tables, and the rules by which tables grow.

/-!
# TOML tables

A TOML document defines each key once. Tables come into being in four ways, and the way decides
who may add to them later:

* a header `[a]` defines `a`, once;
* a header `[a.b]` also brings `a` into being, if need be, and `[a]` may still define it;
* a dotted key `a.b = …` brings `a` into being, or takes it over if a longer header brought it into
  being; no header may define it then, and only dotted keys of the same section may add to it;
* an inline table is complete as it stands.

A header `[[a]]` adds a table to the array `a`, which no other notation may have begun.
-/

namespace DocQuery.Toml

/-- How a table came into being. -/
inductive Origin where
  | header
  | superTable
  | dottedKey
  | inline
deriving DecidableEq, Repr

/-- A value without parts. -/
inductive Scalar where
  | string (s : String)
  /-- A whole number; none if the word spells no number. -/
  | integer (n : Option Int)
  /-- A floating-point number; none if it is too large. -/
  | float (x : Option Float)
  | boolean (b : Bool)
  | datetime

mutual

inductive Value where
  | scalar (v : Scalar)
  | array (items : List Value)
  /-- An array of tables: those before the last, and the last. -/
  | tables (earlier : List Table) (last : Table)
  | table (t : Table)

inductive Table where
  | mk (origin : Origin) (entries : List (String × Value))

end

namespace Table

def origin : Table → Origin
  | .mk origin _ => origin

def entries : Table → List (String × Value)
  | .mk _ entries => entries

def empty (origin : Origin) : Table :=
  .mk origin []

def get? (t : Table) (key : String) : Option Value :=
  (t.entries.find? fun e => e.1 == key).map Prod.snd

/-- Puts a value in the place of the one with the same key, or behind all others. -/
def set (t : Table) (key : String) (v : Value) : Table :=
  if (t.get? key).isSome then
    .mk t.origin (t.entries.map fun e => if e.1 == key then (key, v) else e)
  else .mk t.origin (t.entries ++ [(key, v)])

/-- Changes the table at a path, bringing tables into being on the way. `dotted` tells a dotted
    key, which takes over the tables on its way, from a header. -/
def update (dotted : Bool) : List String → (Table → Option Table) → Table → Option Table
  | [], change, t => change t
  | key :: path, change, t =>
    match t.get? key with
    | none => do
      let child := empty (if dotted then .dottedKey else .superTable)
      return t.set key (.table (← update dotted path change child))
    | some (.table child) =>
      match child.origin, dotted with
      | .inline, _ => none
      | .header, true => none
      | .superTable, true => do
        let child := .mk .dottedKey child.entries
        return t.set key (.table (← update dotted path change child))
      | _, _ => do return t.set key (.table (← update dotted path change child))
    | some (.tables earlier last) => do
      return t.set key (.tables earlier (← update dotted path change last))
    | some _ => none

/-- Gives a value to a dotted key. The table that gets the value has to be the one at hand, or
    one that a dotted key brought into being. -/
def assign (path : List String) (key : String) (v : Value) : Table → Option Table :=
  update true path fun t =>
    if (t.origin == .dottedKey) == path.isEmpty then none
    else if (t.get? key).isSome then none
    else some (t.set key v)

/-- Begins a table with a header. -/
def openTable (path : List String) (key : String) : Table → Option Table :=
  update false path fun t =>
    match t.get? key with
    | none => some (t.set key (.table (empty .header)))
    | some (.table child) =>
      if child.origin == .superTable then some (t.set key (.table (.mk .header child.entries)))
      else none
    | some _ => none

/-- Adds a table to an array of tables. -/
def openItem (path : List String) (key : String) : Table → Option Table :=
  update false path fun t =>
    match t.get? key with
    | none => some (t.set key (.tables [] (empty .header)))
    | some (.tables earlier last) =>
      some (t.set key (.tables (earlier ++ [last]) (empty .header)))
    | some _ => none

end Table

end DocQuery.Toml
