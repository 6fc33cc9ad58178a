-- SUMMARY: Reading associations, descriptions and queries, and texts as a whole.
import DocQuery.Query
import DocQuery.Decode.Clause
import DocQuery.Json.Reader

/-!
# Reading queries
-/

namespace DocQuery

open Json (Draft Items Members Document)

/-! ## Relations

A relation is an object with a tag among its members, or an array that starts with the tag. The
tag is checked where it stands; the other members are kept until the end and looked at then. -/

inductive Relation.Form where
  | belongsTo
  | hasMany
deriving DecidableEq, Repr

namespace Relation

def Form.choices : List (String × Form) :=
  [("belongs_to", .belongsTo), ("has_many", .hasMany)]

/-- The member that a relation of this form needs. -/
def Form.member : Form → String
  | .belongsTo => "key"
  | .hasMany => "foreignKey"

/-- The name of the form in messages. -/
def Form.title : Form → String
  | .belongsTo => "AssociationInfo::BelongsTo"
  | .hasMany => "AssociationInfo::HasMany"

def ofForm : Form → String → Relation
  | .belongsTo, key => .belongsTo key
  | .hasMany, key => .hasMany key

/-- The text in a value that has been read already. -/
def textOf : Json → Except ReadError String
  | .string s => .ok s
  | j => refuse (.wrongType (.ofJson j) "a string")

/-- The relation from the array that follows its tag. -/
def ofItems (form : Form) : List Json → Except ReadError Relation
  | [] => refuse (.wrongLength 0 ("struct variant " ++ form.title ++ " with 1 element"))
  | j :: rest => do
    let key ← textOf j
    if rest.isEmpty then return ofForm form key
    else refuse (.wrongLength (rest.length + 1) "1 element in sequence")

/-- The text of the one member that counts, looked up among all members in order. -/
def findKey (name : String) : List (String × Json) → Option String → Except ReadError String
  | [], some key => .ok key
  | [], none => refuse (.missingField name)
  | (k, j) :: rest, found => do
    if k == name then
      if found.isSome then refuse (.duplicateField name)
      else findKey name rest (some (← textOf j))
    else findKey name rest found

/-- Splits the members of a relation into its tag and the rest. -/
def readMembers (room : Nat) :
    Members → Option Form → List (String × Json) →
      Except ReadError (Option Form × List (String × Json))
  | .close, tag, kept => .ok (tag, kept.reverse)
  | .cut fault, _, _ => .error (.text fault)
  | .noKey found, _, _ => .error (.text found.keyFault)
  | .member key value rest, tag, kept => do
    let name ← ofText key.read
    if name == "type" then
      if tag.isSome then refuse (.duplicateField "type")
      else readMembers room rest (some (← readChoiceName Form.choices value)) kept
    else
      let j ← ofText (value.toJson room)
      readMembers room rest tag ((name, j) :: kept)

/-- Reads a relation. -/
def read (room : Nat) : Draft → Except ReadError Relation
  | .array items =>
    match room with
    | 0 => .error (.text .malformed)
    | room + 1 =>
      match items with
      | .close => refuse (.missingField "type")
      | .cut fault => .error (.text fault)
      | .item head rest => do
        let form ← readChoiceName Form.choices head
        ofItems form (← ofText (rest.toList room))
  | .object members =>
    match room with
    | 0 => .error (.text .malformed)
    | room + 1 => do
      let (tag, kept) ← readMembers room members none []
      let form ← required "type" tag
      return ofForm form (← findKey form.member kept none)
  | d => wrongType "internally tagged enum AssociationInfo" d

end Relation

/-! ## Associations -/

structure Association.Parts where
  target : Option String := none
  relation : Option Relation := none

def Association.fields (room : Nat) : List (Field Association.Parts) := [
  { name := "to", optional := false, given := fun p => p.target.isSome,
    read := fun d p => do return { p with target := some (← readString d) } },
  { name := "info", optional := false, given := fun p => p.relation.isSome,
    read := fun d p => do return { p with relation := some (← Relation.read room d) } }]

def Association.read (room : Nat) (d : Draft) : Except ReadError Association := do
  let p ← readRecord "struct QueryAssociation" (inside room Association.fields) {} d
  return { target := ← required "to" p.target, relation := ← required "info" p.relation }

/-! ## Descriptions -/

def Direction.choices : List (String × Direction) :=
  [("asc", .asc), ("desc", .desc)]

def Direction.read (room : Nat) : Draft → Except ReadError Direction :=
  readName room Direction.choices

structure SortKey.Parts where
  column : Option String := none
  direction : Option Direction := none

def SortKey.fields (room : Nat) : List (Field SortKey.Parts) := [
  { name := "sortColumn", optional := false, given := fun p => p.column.isSome,
    read := fun d p => do return { p with column := some (← readString d) } },
  { name := "sortOrder", optional := false, given := fun p => p.direction.isSome,
    read := fun d p => do return { p with direction := some (← Direction.read room d) } }]

def SortKey.read (room : Nat) (d : Draft) : Except ReadError SortKey := do
  let p ← readRecord "struct SortBy" (inside room SortKey.fields) {} d
  return { column := ← required "sortColumn" p.column,
           direction := ← required "sortOrder" p.direction }

/-- A description under construction. Every field may be absent. -/
structure Description.Parts where
  conditions : Option (List Clause) := none
  joinTables : Option (List String) := none
  sortBy : Option (List SortKey) := none
  take : Option (Option UInt64) := none
  skip : Option (Option UInt64) := none

def Description.fields (room : Nat) : List (Field Description.Parts) := [
  { name := "where", optional := true, given := fun p => p.conditions.isSome,
    read := fun d p => do
      return { p with conditions := some (← readList (inside room Clause.read) d) } },
  { name := "joinTables", optional := true, given := fun p => p.joinTables.isSome,
    read := fun d p => do
      return { p with joinTables := some (← readList (inside room fun _ => readString) d) } },
  { name := "sortBy", optional := true, given := fun p => p.sortBy.isSome,
    read := fun d p => do
      return { p with sortBy := some (← readList (inside room SortKey.read) d) } },
  { name := "take", optional := true, given := fun p => p.take.isSome,
    read := fun d p => do return { p with take := some (← readOption readCount d) } },
  { name := "skip", optional := true, given := fun p => p.skip.isSome,
    read := fun d p => do return { p with skip := some (← readOption readCount d) } }]

def Description.read (room : Nat) (d : Draft) : Except ReadError Description := do
  let p ← readRecord "struct QueryDescription" (inside room Description.fields) {} d
  return {
    conditions := p.conditions.getD []
    joinTables := p.joinTables.getD []
    sortBy := p.sortBy.getD []
    take := p.take.join
    skip := p.skip.join }

/-! ## Queries -/

structure Query.Parts where
  table : Option String := none
  description : Option Description := none
  associations : Option (List Association) := none

def Query.fields (room : Nat) : List (Field Query.Parts) := [
  { name := "table", optional := false, given := fun p => p.table.isSome,
    read := fun d p => do return { p with table := some (← readString d) } },
  { name := "description", optional := false, given := fun p => p.description.isSome,
    read := fun d p => do return { p with description := some (← Description.read room d) } },
  { name := "associations", optional := true, given := fun p => p.associations.isSome,
    read := fun d p => do
      return { p with associations := some (← readList (inside room Association.read) d) } }]

def Query.read (room : Nat) (d : Draft) : Except ReadError Query := do
  let p ← readRecord "struct SerializedQuery" (inside room Query.fields) {} d
  return {
    table := ← required "table" p.table
    description := ← required "description" p.description
    associations := p.associations.getD [] }

/-! ## Texts -/

/-- How many containers a text may open one inside the other. -/
def maxRoom : Nat :=
  127

/-- Reads a text that holds one value and nothing after it. -/
def decode {α : Type} (read : Nat → Draft → Except ReadError α) (text : String) :
    Except ReadError α := do
  let document := Document.ofText text
  let a ← read maxRoom document.root
  if document.trailing then .error (.text .malformed) else return a

end DocQuery
