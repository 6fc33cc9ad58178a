-- SUMMARY: How deep JSON trees nest, and that a tree is read back from its own draft if there is room for it.
import DocQuery.Json.Draft
import DocQuery.Json.Sorted

/-!
# Nesting

The depth of a tree is how many containers it opens one inside the other. A reader with room for
that many gets the tree back from its draft, and whatever a reader returns is no deeper than the
room it had. Sorting a tree never makes it deeper, and does nothing to a sorted one.
-/

namespace DocQuery

/-! ## Results of readers -/

section Results

variable {ε α β : Type}

theorem bind_eq_ok {x : Except ε α} {f : α → Except ε β} {b : β} :
    x >>= f = .ok b ↔ ∃ a, x = .ok a ∧ f a = .ok b := by
  constructor
  · intro h
    cases x with
    | error e => cases h
    | ok a => exact ⟨a, rfl, h⟩
  · rintro ⟨a, rfl, h⟩
    exact h

theorem exists_of_map_eq_ok {x : Except ε α} {f : α → β} {b : β}
    (h : x.map f = .ok b) : ∃ a, x = .ok a ∧ f a = b := by
  cases x with
  | error e => cases h
  | ok a => exact ⟨a, rfl, Except.ok.inj h⟩

end Results

namespace Json

/-! ## Depth -/

mutual

/-- How many containers a value opens one inside the other. -/
def depth : Json → Nat
  | .null => 0
  | .bool _ => 0
  | .number _ => 0
  | .string _ => 0
  | .array items => depthItems items + 1
  | .object members => depthMembers members + 1

def depthItems : List Json → Nat
  | [] => 0
  | j :: rest => max (depth j) (depthItems rest)

def depthMembers : List (String × Json) → Nat
  | [] => 0
  | (_, j) :: rest => max (depth j) (depthMembers rest)

end

theorem depthItems_le {items : List Json} {n : Nat} :
    depthItems items ≤ n ↔ ∀ j ∈ items, j.depth ≤ n := by
  induction items with
  | nil => simp [depthItems]
  | cons j rest ih => rw [depthItems, Nat.max_le, ih, List.forall_mem_cons]

theorem depthMembers_le {members : List (String × Json)} {n : Nat} :
    depthMembers members ≤ n ↔ ∀ m ∈ members, m.2.depth ≤ n := by
  induction members with
  | nil => simp [depthMembers]
  | cons m rest ih => rw [depthMembers, Nat.max_le, ih, List.forall_mem_cons]

/-! ## Reading whole values -/

mutual

theorem Draft.toJson_ofJson : ∀ (j : Json) {room : Nat}, j.depth ≤ room →
    (Draft.ofJson j).toJson room = .ok j
  | .null, _, _ => by rw [Draft.ofJson, Draft.toJson]
  | .bool _, _, _ => by rw [Draft.ofJson, Draft.toJson]
  | .number _, _, _ => by
    rw [Draft.ofJson, Draft.toJson]
    rfl
  | .string _, _, _ => by
    rw [Draft.ofJson, Draft.toJson]
    rfl
  | .array items, 0, h => absurd h (Nat.not_succ_le_zero _)
  | .array items, room + 1, h => by
    rw [Draft.ofJson, Draft.toJson, Items.toList_ofList items (Nat.le_of_succ_le_succ h)]
    rfl
  | .object members, 0, h => absurd h (Nat.not_succ_le_zero _)
  | .object members, room + 1, h => by
    rw [Draft.ofJson, Draft.toJson, Members.toList_ofList members (Nat.le_of_succ_le_succ h)]
    rfl

theorem Items.toList_ofList : ∀ (items : List Json) {room : Nat}, depthItems items ≤ room →
    (Items.ofList items).toList room = .ok items
  | [], _, _ => by rw [Items.ofList, Items.toList]
  | j :: rest, room, h => by
    obtain ⟨hj, hrest⟩ := Nat.max_le.1 h
    rw [Items.ofList, Items.toList, Draft.toJson_ofJson j hj, Items.toList_ofList rest hrest]
    rfl

theorem Members.toList_ofList : ∀ (members : List (String × Json)) {room : Nat},
    depthMembers members ≤ room → (Members.ofList members).toList room = .ok members
  | [], _, _ => by rw [Members.ofList, Members.toList]
  | (k, j) :: rest, room, h => by
    obtain ⟨hj, hrest⟩ := Nat.max_le.1 h
    rw [Members.ofList, Members.toList, Draft.toJson_ofJson j hj, Members.toList_ofList rest hrest]
    rfl

end

mutual

/-- What is read is no deeper than the room for it. -/
theorem Draft.depth_toJson : ∀ (d : Draft) {room : Nat} {j : Json}, d.toJson room = .ok j →
    j.depth ≤ room
  | .absent, _, _, h => nomatch h
  | .broken _, _, _, h => nomatch h
  | .null, _, _, h => by
    cases h
    exact Nat.zero_le _
  | .bool _, _, _, h => by
    cases h
    exact Nat.zero_le _
  | .number n, _, _, h => by
    obtain ⟨_, _, rfl⟩ := exists_of_map_eq_ok h
    exact Nat.zero_le _
  | .string s, _, _, h => by
    obtain ⟨_, _, rfl⟩ := exists_of_map_eq_ok h
    exact Nat.zero_le _
  | .array items, 0, _, h => nomatch h
  | .array items, room + 1, _, h => by
    obtain ⟨js, hitems, rfl⟩ := exists_of_map_eq_ok h
    exact Nat.succ_le_succ (Items.depth_toList items hitems)
  | .object members, 0, _, h => nomatch h
  | .object members, room + 1, _, h => by
    obtain ⟨ms, hmembers, rfl⟩ := exists_of_map_eq_ok h
    exact Nat.succ_le_succ (Members.depth_toList members hmembers)

theorem Items.depth_toList : ∀ (items : Items) {room : Nat} {js : List Json},
    items.toList room = .ok js → depthItems js ≤ room
  | .close, _, _, h => by
    cases h
    exact Nat.zero_le _
  | .cut _, _, _, h => nomatch h
  | .item head rest, room, _, h => by
    obtain ⟨j, hhead, h⟩ := bind_eq_ok.1 h
    obtain ⟨js, hrest, h⟩ := bind_eq_ok.1 h
    cases h
    exact Nat.max_le.2 ⟨Draft.depth_toJson head hhead, Items.depth_toList rest hrest⟩

theorem Members.depth_toList : ∀ (members : Members) {room : Nat} {ms : List (String × Json)},
    members.toList room = .ok ms → depthMembers ms ≤ room
  | .close, _, _, h => by
    cases h
    exact Nat.zero_le _
  | .cut _, _, _, h => nomatch h
  | .noKey _, _, _, h => nomatch h
  | .member key value rest, room, _, h => by
    obtain ⟨_, _, h⟩ := bind_eq_ok.1 h
    obtain ⟨j, hvalue, h⟩ := bind_eq_ok.1 h
    obtain ⟨ms, hrest, h⟩ := bind_eq_ok.1 h
    cases h
    exact Nat.max_le.2 ⟨Draft.depth_toJson value hvalue, Members.depth_toList rest hrest⟩

end

mutual

theorem Draft.eq_of_toJson : ∀ (j : Json) {room : Nat} {j' : Json},
    (Draft.ofJson j).toJson room = .ok j' → j' = j
  | .null, _, _, h => (Except.ok.inj h).symm
  | .bool _, _, _, h => (Except.ok.inj h).symm
  | .number _, _, _, h => (Except.ok.inj h).symm
  | .string _, _, _, h => (Except.ok.inj h).symm
  | .array items, 0, _, h => nomatch h
  | .array items, room + 1, _, h => by
    obtain ⟨js, hitems, rfl⟩ := exists_of_map_eq_ok h
    rw [Items.eq_of_toList items hitems]
  | .object members, 0, _, h => nomatch h
  | .object members, room + 1, _, h => by
    obtain ⟨ms, hmembers, rfl⟩ := exists_of_map_eq_ok h
    rw [Members.eq_of_toList members hmembers]

theorem Items.eq_of_toList : ∀ (items : List Json) {room : Nat} {js : List Json},
    (Items.ofList items).toList room = .ok js → js = items
  | [], _, _, h => (Except.ok.inj h).symm
  | j :: rest, _, _, h => by
    obtain ⟨_, hj, h⟩ := bind_eq_ok.1 h
    obtain ⟨_, hrest, h⟩ := bind_eq_ok.1 h
    cases h
    rw [Draft.eq_of_toJson j hj, Items.eq_of_toList rest hrest]

theorem Members.eq_of_toList : ∀ (members : List (String × Json)) {room : Nat}
    {ms : List (String × Json)}, (Members.ofList members).toList room = .ok ms → ms = members
  | [], _, _, h => (Except.ok.inj h).symm
  | (k, j) :: rest, _, _, h => by
    obtain ⟨_, hk, h⟩ := bind_eq_ok.1 h
    obtain ⟨_, hj, h⟩ := bind_eq_ok.1 h
    obtain ⟨_, hrest, h⟩ := bind_eq_ok.1 h
    cases h
    cases hk
    rw [Draft.eq_of_toJson j hj, Members.eq_of_toList rest hrest]

end

/-- A tree is read back from its draft exactly if there is room for it. -/
theorem Draft.toJson_eq_ok {j j' : Json} {room : Nat} :
    (Draft.ofJson j).toJson room = .ok j' ↔ j.depth ≤ room ∧ j' = j := by
  constructor
  · intro h
    obtain rfl := Draft.eq_of_toJson j h
    exact ⟨Draft.depth_toJson _ h, rfl⟩
  · rintro ⟨h, rfl⟩
    exact Draft.toJson_ofJson j' h

/-! ## Sorting -/

theorem sortItems_eq_map (items : List Json) : sortItems items = items.map sort := by
  induction items with
  | nil => rfl
  | cons j rest ih => rw [sortItems, ih, List.map_cons]

theorem sortValues_eq_map (members : List (String × Json)) :
    sortValues members = members.map fun m => (m.1, m.2.sort) := by
  induction members with
  | nil => rfl
  | cons m rest ih => rw [sortValues, ih, List.map_cons]

private theorem insertMember_last {key : String} {value : Json} {members : List (String × Json)}
    (h : ∀ m ∈ members, m.1 < key) :
    insertMember key value members = members ++ [(key, value)] := by
  induction members with
  | nil => rfl
  | cons head rest ih =>
    obtain ⟨hhead, hrest⟩ := List.forall_mem_cons.1 h
    have hlt : ¬ key < head.1 := String.lt_asymm hhead
    have hne : key ≠ head.1 := fun heq => String.lt_irrefl key (heq ▸ hhead)
    rw [insertMember, if_neg hlt, if_neg hne, ih hrest]
    rfl

private theorem sortMembers_eq_self {members : List (String × Json)} (h : KeysIncrease members) :
    sortMembers members = members := by
  suffices ∀ sorted, KeysIncrease (sorted ++ members) →
      members.foldl (fun sorted m => insertMember m.1 m.2 sorted) sorted = sorted ++ members from
    this [] h
  clear h
  induction members with
  | nil => exact fun sorted _ => (List.append_nil sorted).symm
  | cons head rest ih =>
    intro sorted h
    have hlast : ∀ m ∈ sorted, m.1 < head.1 := fun m hm =>
      (List.pairwise_append.1 h).2.2 m hm head List.mem_cons_self
    rw [List.foldl_cons, insertMember_last hlast]
    rw [ih _ (by rwa [List.append_assoc]), List.append_assoc]
    rfl

mutual

theorem sort_eq_self : ∀ {j : Json}, j.Sorted → j.sort = j
  | .null, _ => by simp [sort]
  | .bool _, _ => by simp [sort]
  | .number _, _ => by simp [sort]
  | .string _, _ => by simp [sort]
  | .array items, h => by
    rw [Sorted] at h
    rw [sort, sortItems_eq_self h]
  | .object members, h => by
    rw [Sorted] at h
    rw [sort, sortValues_eq_self h.2, sortMembers_eq_self h.1]

theorem sortItems_eq_self : ∀ {items : List Json}, SortedItems items → sortItems items = items
  | [], _ => by rw [sortItems]
  | j :: rest, h => by
    rw [sortItems, sort_eq_self h.1, sortItems_eq_self h.2]

theorem sortValues_eq_self :
    ∀ {members : List (String × Json)}, SortedMembers members → sortValues members = members
  | [], _ => by rw [sortValues]
  | (k, j) :: rest, h => by
    rw [sortValues, sort_eq_self h.1, sortValues_eq_self h.2]

end

/-- Sorting puts no member in that was not there. -/
private theorem mem_sortMembers {members : List (String × Json)} {m : String × Json}
    (h : m ∈ sortMembers members) : m ∈ members := by
  suffices ∀ sorted, m ∈ members.foldl (fun sorted m => insertMember m.1 m.2 sorted) sorted →
      m ∈ sorted ∨ m ∈ members from
    (this [] h).resolve_left List.not_mem_nil
  clear h
  induction members with
  | nil => exact fun _ hm => .inl hm
  | cons head rest ih =>
    intro sorted hm
    rcases ih _ hm with hm | hm
    · rcases mem_insertMember hm with rfl | hm
      · exact .inr List.mem_cons_self
      · exact .inl hm
    · exact .inr (List.mem_cons_of_mem _ hm)

mutual

theorem depth_sort_le : ∀ j : Json, j.sort.depth ≤ j.depth
  | .null => by simp [sort]
  | .bool _ => by simp [sort]
  | .number _ => by simp [sort]
  | .string _ => by simp [sort]
  | .array items => by
    rw [sort, depth, depth]
    exact Nat.succ_le_succ (depthItems_sortItems_le items)
  | .object members => by
    rw [sort, depth, depth]
    refine Nat.succ_le_succ (depthMembers_le.2 fun m hm => ?_)
    exact depthMembers_le.1 (depthMembers_sortValues_le members) m (mem_sortMembers hm)

theorem depthItems_sortItems_le :
    ∀ items : List Json, depthItems (sortItems items) ≤ depthItems items
  | [] => by simp [sortItems]
  | j :: rest => by
    rw [sortItems, depthItems, depthItems]
    have hj := depth_sort_le j
    have hrest := depthItems_sortItems_le rest
    omega

theorem depthMembers_sortValues_le :
    ∀ members : List (String × Json), depthMembers (sortValues members) ≤ depthMembers members
  | [] => by simp [sortValues]
  | (k, j) :: rest => by
    rw [sortValues, depthMembers, depthMembers]
    have hj := depth_sort_le j
    have hrest := depthMembers_sortValues_le rest
    omega

end

end Json

end DocQuery
