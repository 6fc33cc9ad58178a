-- SUMMARY: JSON trees whose objects list their members by key, and how to bring any tree into that form.
import DocQuery.Json.Basic

/-!
# Sorted trees

`Sorted` says that the keys of every object, at any depth, strictly increase. `sort` turns a tree
into a sorted one; of the members with one key the last wins. `sorted_sort` ties the two together.
-/

namespace DocQuery.Json

/-! ## Sorted trees -/

/-- The keys of the members strictly increase. -/
def KeysIncrease (members : List (String × Json)) : Prop :=
  members.Pairwise fun a b => a.1 < b.1

mutual

/-- The keys of every object strictly increase. -/
def Sorted : Json → Prop
  | .array items => SortedItems items
  | .object members => KeysIncrease members ∧ SortedMembers members
  | _ => True

def SortedItems : List Json → Prop
  | [] => True
  | j :: rest => Sorted j ∧ SortedItems rest

def SortedMembers : List (String × Json) → Prop
  | [] => True
  | (_, j) :: rest => Sorted j ∧ SortedMembers rest

end

/-! ## Sorting -/

/-- Puts a member at its place among members in increasing order, over one with the same key. -/
def insertMember (key : String) (value : Json) : List (String × Json) → List (String × Json)
  | [] => [(key, value)]
  | (k, v) :: rest =>
    if key < k then (key, value) :: (k, v) :: rest
    else if key = k then (key, value) :: rest
    else (k, v) :: insertMember key value rest

/-- The members in increasing order of their keys, the last one of each key. -/
def sortMembers (members : List (String × Json)) : List (String × Json) :=
  members.foldl (fun sorted member => insertMember member.1 member.2 sorted) []

mutual

/-- The tree with the members of every object in order. -/
def sort : Json → Json
  | .array items => .array (sortItems items)
  | .object members => .object (sortMembers (sortValues members))
  | j => j

def sortItems : List Json → List Json
  | [] => []
  | j :: rest => sort j :: sortItems rest

def sortValues : List (String × Json) → List (String × Json)
  | [] => []
  | (k, j) :: rest => (k, sort j) :: sortValues rest

end

/-! ## Sorting sorts -/

theorem mem_insertMember {key : String} {value : Json} {members : List (String × Json)}
    {m : String × Json} (h : m ∈ insertMember key value members) :
    m = (key, value) ∨ m ∈ members := by
  induction members with
  | nil => simpa [insertMember] using h
  | cons head rest ih =>
    unfold insertMember at h
    split at h
    · simpa using h
    · split at h
      · rcases List.mem_cons.1 h with h | h
        · exact .inl h
        · exact .inr (List.mem_cons_of_mem _ h)
      · rcases List.mem_cons.1 h with h | h
        · exact .inr (h ▸ List.mem_cons_self)
        · exact (ih h).imp_right (List.mem_cons_of_mem _)

private theorem keysIncrease_insertMember {key : String} {value : Json}
    {members : List (String × Json)} (h : KeysIncrease members) :
    KeysIncrease (insertMember key value members) := by
  induction members with
  | nil => simp [insertMember, KeysIncrease]
  | cons head rest ih =>
    obtain ⟨hhead, hrest⟩ := List.pairwise_cons.1 h
    unfold insertMember
    split
    next hlt =>
      refine List.pairwise_cons.2 ⟨fun m hm => ?_, h⟩
      rcases List.mem_cons.1 hm with rfl | hm
      · exact hlt
      · exact String.lt_trans hlt (hhead m hm)
    next hge =>
      split
      next heq => exact List.pairwise_cons.2 ⟨fun m hm => heq ▸ hhead m hm, hrest⟩
      next hne =>
        refine List.pairwise_cons.2 ⟨fun m hm => ?_, ih hrest⟩
        rcases mem_insertMember hm with rfl | hm
        · refine Decidable.byContradiction fun hlt => hne ?_
          exact String.le_antisymm (String.not_lt.1 hlt) (String.not_lt.1 hge)
        · exact hhead m hm

private theorem sortedMembers_iff {members : List (String × Json)} :
    SortedMembers members ↔ ∀ m ∈ members, Sorted m.2 := by
  induction members with
  | nil => simp [SortedMembers]
  | cons head rest ih => simp [SortedMembers, ih]

theorem sorted_sortMembers {members : List (String × Json)} (h : SortedMembers members) :
    KeysIncrease (sortMembers members) ∧ SortedMembers (sortMembers members) := by
  suffices ∀ sorted, KeysIncrease sorted ∧ SortedMembers sorted →
      KeysIncrease (members.foldl (fun sorted m => insertMember m.1 m.2 sorted) sorted) ∧
      SortedMembers (members.foldl (fun sorted m => insertMember m.1 m.2 sorted) sorted) from
    this [] ⟨.nil, trivial⟩
  induction members with
  | nil => exact fun _ hs => hs
  | cons head rest ih =>
    intro sorted hs
    refine ih h.2 _ ⟨keysIncrease_insertMember hs.1, ?_⟩
    refine sortedMembers_iff.2 fun m hm => ?_
    rcases mem_insertMember hm with rfl | hm
    · exact h.1
    · exact sortedMembers_iff.1 hs.2 m hm

mutual

theorem sorted_sort : ∀ j : Json, (sort j).Sorted
  | .null => by simp [sort, Sorted]
  | .bool _ => by simp [sort, Sorted]
  | .number _ => by simp [sort, Sorted]
  | .string _ => by simp [sort, Sorted]
  | .array items => by simpa [sort, Sorted] using sortedItems_sortItems items
  | .object members => by
    simpa [sort, Sorted] using sorted_sortMembers (sortedMembers_sortValues members)

theorem sortedItems_sortItems : ∀ items : List Json, SortedItems (sortItems items)
  | [] => by simp [sortItems, SortedItems]
  | j :: rest => by
    simpa [sortItems, SortedItems] using ⟨sorted_sort j, sortedItems_sortItems rest⟩

theorem sortedMembers_sortValues :
    ∀ members : List (String × Json), SortedMembers (sortValues members)
  | [] => by simp [sortValues, SortedMembers]
  | (_, j) :: rest => by
    simpa [sortValues, SortedMembers] using ⟨sorted_sort j, sortedMembers_sortValues rest⟩

end

end DocQuery.Json
