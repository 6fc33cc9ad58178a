-- SUMMARY: Records whose fields each have a place of their own, and from which trees they are read.
import DocQuery.Decode.Query
import DocQuery.Proofs.Records
import Mathlib.Data.List.Pairwise

/-!
# Slots

Each field of a record is read into a place of its own (`Slot`). So the fields do not get in each
other's way, and a record is read exactly from the trees that fit it.
-/

namespace DocQuery

open Json (Draft Items Members)

/-! ## Fields with their places -/

/-- A field with its place in the record under construction. -/
structure Slot (σ : Type) where
  name : String
  optional : Bool
  Value : Type
  get : σ → Option Value
  set : Value → σ → σ
  read : Draft → Except ReadError Value

namespace Slot

variable {σ : Type}

def field (p : Slot σ) : Field σ where
  name := p.name
  optional := p.optional
  given s := (p.get s).isSome
  read d s := do return p.set (← p.read d) s

/-- Two fields have places of their own. -/
def Apart (p q : Slot σ) : Prop :=
  (∀ a s, q.get (p.set a s) = q.get s) ∧ (∀ b s, p.get (q.set b s) = p.get s) ∧
    ∀ a b s, p.set a (q.set b s) = q.set b (p.set a s)

instance : Std.Symm (@Apart σ) where
  symm _ _ := fun ⟨hget, hget', hset⟩ => ⟨hget', hget, fun b a s => (hset a b s).symm⟩

theorem read_eq_ok {p : Slot σ} {d : Draft} {s t : σ} :
    p.field.read d s = .ok t ↔ ∃ a, p.read d = .ok a ∧ p.set a s = t := by
  refine bind_eq_ok.trans (exists_congr fun a => and_congr_right fun _ => ?_)
  exact ⟨Except.ok.inj, congrArg Except.ok⟩

end Slot

/-- The slots of a record that starts out empty: each field has one of its own. -/
structure Slots {σ : Type} (fields : List (Field σ)) (empty : σ) (slots : List (Slot σ)) :
    Prop where
  fields : fields = slots.map Slot.field
  names : (slots.map Slot.name).Nodup
  own : ∀ p ∈ slots, ∀ a s, p.get (p.set a s) = some a
  apart : slots.Pairwise Slot.Apart
  empty : ∀ p ∈ slots, p.get empty = none

namespace Slots

variable {σ : Type} {fields : List (Field σ)} {empty : σ} {slots : List (Slot σ)}
  (h : Slots fields empty slots)
include h

theorem map_name : fields.map Field.name = slots.map Slot.name := by
  rw [h.fields, List.map_map]
  rfl

/-- Fields with slots of their own may be read in any order. -/
theorem independent : Independent fields where
  names := h.map_name ▸ h.names
  given := by
    rw [h.fields]
    simp only [List.forall_mem_map]
    intro p hp q hq d s t ht
    obtain ⟨a, _, rfl⟩ := Slot.read_eq_ok.1 ht
    by_cases hname : q.name = p.name
    · obtain rfl := List.inj_on_of_nodup_map h.names hq hp hname
      simp [Slot.field, h.own q hq]
    · have hapart := h.apart.forall hp hq fun heq => hname (heq ▸ rfl)
      simp [Slot.field, hapart.1, hname]
  swap := by
    rw [h.fields]
    simp only [List.forall_mem_map]
    intro p hp q hq hne d e s u hread
    obtain ⟨t, ht, hu⟩ := bind_eq_ok.1 hread
    obtain ⟨a, ha, rfl⟩ := Slot.read_eq_ok.1 ht
    obtain ⟨b, hb, rfl⟩ := Slot.read_eq_ok.1 hu
    have hapart := h.apart.forall hp hq fun heq => hne (heq ▸ rfl)
    rw [← hapart.2.2]
    exact bind_eq_ok.2 ⟨_, Slot.read_eq_ok.2 ⟨b, hb, rfl⟩, Slot.read_eq_ok.2 ⟨a, ha, rfl⟩⟩

/-- A record is read exactly from the trees that fit it. -/
theorem readRecord_eq_ok {type : String} {v : Json} {u : σ} :
    readRecord type (some fields) empty (.ofJson v) = .ok u ↔
      v.Fits fields ∧ readGiven (v.membersOf (slots.map Slot.name)) fields empty = .ok u := by
  rw [← h.map_name]
  apply h.independent.readRecord_iff
  rw [h.fields]
  simp only [List.forall_mem_map]
  intro p hp
  simp [Slot.field, h.empty p hp]

/-- A record without optional fields is read exactly from the trees that give all of it. -/
theorem readRecord_required_eq_ok (hrequired : ∀ p ∈ slots, p.optional = false) {type : String}
    {v : Json} {u : σ} :
    readRecord type (some fields) empty (.ofJson v) = .ok u ↔
      ∃ members, Json.Record (slots.map Slot.name) v members ∧
        readGiven members fields empty = .ok u := by
  have hfields : ∀ f ∈ fields, f.optional = false := by
    rw [h.fields]
    exact List.forall_mem_map.2 hrequired
  rw [h.readRecord_eq_ok, ← h.map_name]
  constructor
  · rintro ⟨hfits, hu⟩
    exact ⟨_, hfits.record hfields, hu⟩
  · rintro ⟨members, hrecord, hu⟩
    obtain rfl := hrecord.eq_membersOf
    exact ⟨hrecord.fits, hu⟩

end Slots

/-! ## The slots of the records -/

def Comparison.slots (room : Nat) : List (Slot Comparison.Parts) := [
  ⟨"operator", false, Operator, (·.operator), fun a p => { p with operator := some a },
    Operator.read room⟩,
  ⟨"right", false, Operand, (·.right), fun a p => { p with right := some a }, Operand.read room⟩]

theorem Comparison.slots_fields (room : Nat) :
    Slots (Comparison.fields room) {} (Comparison.slots room) := by
  constructor <;> simp [Comparison.fields, Comparison.slots, Slot.field, Slot.Apart]

def Clause.slots (room : Nat) (readConditions : Draft → Except ReadError (List Clause)) :
    List (Slot Clause.Parts) := [
  ⟨"type", false, String, (·.kind), fun a p => { p with kind := some a }, readString⟩,
  ⟨"left", false, Option String, (·.left), fun a p => { p with left := some a },
    readOption readString⟩,
  ⟨"comparison", false, Option Comparison, (·.comparison),
    fun a p => { p with comparison := some a }, readOption (Comparison.read room)⟩,
  ⟨"table", false, Option String, (·.table), fun a p => { p with table := some a },
    readOption readString⟩,
  ⟨"conditions", false, Option (List Clause), (·.conditions),
    fun a p => { p with conditions := some a }, readOption readConditions⟩,
  ⟨"expr", false, Option Expression, (·.expr), fun a p => { p with expr := some a },
    readOption (Expression.read room)⟩]

theorem Clause.slots_fields (room : Nat)
    (readConditions : Draft → Except ReadError (List Clause)) :
    Slots (Clause.fields room readConditions) {} (Clause.slots room readConditions) := by
  constructor <;> simp [Clause.fields, Clause.slots, Slot.field, Slot.Apart]

def SortKey.slots (room : Nat) : List (Slot SortKey.Parts) := [
  ⟨"sortColumn", false, String, (·.column), fun a p => { p with column := some a }, readString⟩,
  ⟨"sortOrder", false, Direction, (·.direction), fun a p => { p with direction := some a },
    Direction.read room⟩]

theorem SortKey.slots_fields (room : Nat) :
    Slots (SortKey.fields room) {} (SortKey.slots room) := by
  constructor <;> simp [SortKey.fields, SortKey.slots, Slot.field, Slot.Apart]

def Association.slots (room : Nat) : List (Slot Association.Parts) := [
  ⟨"to", false, String, (·.target), fun a p => { p with target := some a }, readString⟩,
  ⟨"info", false, Relation, (·.relation), fun a p => { p with relation := some a },
    Relation.read room⟩]

theorem Association.slots_fields (room : Nat) :
    Slots (Association.fields room) {} (Association.slots room) := by
  constructor <;> simp [Association.fields, Association.slots, Slot.field, Slot.Apart]

def Description.slots (room : Nat) : List (Slot Description.Parts) := [
  ⟨"where", true, List Clause, (·.conditions), fun a p => { p with conditions := some a },
    readList (inside room Clause.read)⟩,
  ⟨"joinTables", true, List String, (·.joinTables), fun a p => { p with joinTables := some a },
    readList (inside room fun _ => readString)⟩,
  ⟨"sortBy", true, List SortKey, (·.sortBy), fun a p => { p with sortBy := some a },
    readList (inside room SortKey.read)⟩,
  ⟨"take", true, Option UInt64, (·.take), fun a p => { p with take := some a },
    readOption readCount⟩,
  ⟨"skip", true, Option UInt64, (·.skip), fun a p => { p with skip := some a },
    readOption readCount⟩]

theorem Description.slots_fields (room : Nat) :
    Slots (Description.fields room) {} (Description.slots room) := by
  constructor <;> simp [Description.fields, Description.slots, Slot.field, Slot.Apart]

def Query.slots (room : Nat) : List (Slot Query.Parts) := [
  ⟨"table", false, String, (·.table), fun a p => { p with table := some a }, readString⟩,
  ⟨"description", false, Description, (·.description), fun a p => { p with description := some a },
    Description.read room⟩,
  ⟨"associations", true, List Association, (·.associations),
    fun a p => { p with associations := some a }, readList (inside room Association.read)⟩]

theorem Query.slots_fields (room : Nat) : Slots (Query.fields room) {} (Query.slots room) := by
  constructor <;> simp [Query.fields, Query.slots, Slot.field, Slot.Apart]

end DocQuery
