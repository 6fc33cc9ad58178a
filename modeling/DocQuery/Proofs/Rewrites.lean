-- SUMMARY: Rewrites of a query's document: members in another order, members that nobody reads, and what one rewrite does to a tree.
import DocQuery.Proofs.Grammar
import DocQuery.Proofs.Slots
import Mathlib.Data.List.Perm.Basic

/-!
# Rewrites of documents

The document of a query can be written in many ways. The members of an object may come in another
order, an object that stands for a part of the query may have members that mean nothing there,
and a clause may have members that one of its kind does not use. `Rewrite` is one such change, at
any place of the document.

What a value stands for is its `Part`. A value that stands for no part of its own is rewritten in
the order of members only. This keeps its depth, and keeps it the same once it is sorted if no
object in it repeats a key. Readers that allow no object of two members at all cannot be shown
anything else (`Json.Rigid`).

Of the members of a record a rewrite changes at most one, and `Part.Changed` says in which ways.
-/

namespace DocQuery

/-! ## Distinct keys -/

namespace Json

mutual

/-- No object repeats a key. -/
def KeysDistinct : Json → Prop
  | .array items => KeysDistinctItems items
  | .object members => (members.map Prod.fst).Nodup ∧ KeysDistinctMembers members
  | _ => True

def KeysDistinctItems : List Json → Prop
  | [] => True
  | j :: rest => KeysDistinct j ∧ KeysDistinctItems rest

def KeysDistinctMembers : List (String × Json) → Prop
  | [] => True
  | (_, j) :: rest => KeysDistinct j ∧ KeysDistinctMembers rest

end

theorem keysDistinctItems_iff {items : List Json} :
    KeysDistinctItems items ↔ ∀ j ∈ items, j.KeysDistinct := by
  induction items with
  | nil => simp [KeysDistinctItems]
  | cons j rest ih => simp [KeysDistinctItems, ih]

theorem keysDistinctMembers_iff {members : List (String × Json)} :
    KeysDistinctMembers members ↔ ∀ m ∈ members, m.2.KeysDistinct := by
  induction members with
  | nil => simp [KeysDistinctMembers]
  | cons m rest ih => simp [KeysDistinctMembers, ih]

/-! ## Sorting what has distinct keys -/

private theorem insertMember_perm {key : String} {value : Json} {members : List (String × Json)}
    (h : key ∉ members.map Prod.fst) :
    (insertMember key value members).Perm ((key, value) :: members) := by
  induction members with
  | nil => rfl
  | cons head rest ih =>
    obtain ⟨hhead, hrest⟩ := not_or.1 (mt List.mem_cons.2 h)
    unfold insertMember
    split
    · rfl
    · exact ((ih hrest).cons head).trans (List.Perm.swap _ _ _)

private theorem sortMembers_perm {members : List (String × Json)}
    (h : (members.map Prod.fst).Nodup) :
    (sortMembers members).Perm members := by
  suffices ∀ sorted, ((members ++ sorted).map Prod.fst).Nodup →
      (members.foldl (fun sorted m => insertMember m.1 m.2 sorted) sorted).Perm
        (members ++ sorted) by
    simpa [sortMembers] using this [] (by simpa using h)
  clear h
  induction members with
  | nil => exact fun sorted _ => .refl sorted
  | cons head rest ih =>
    intro sorted h
    obtain ⟨hhead, _⟩ := List.nodup_cons.1 h
    have hfresh : head.1 ∉ sorted.map Prod.fst := fun hmem =>
      hhead (by simpa using Or.inr (List.mem_map.1 hmem))
    have hinsert : (rest ++ insertMember head.1 head.2 sorted).Perm (head :: (rest ++ sorted)) :=
      ((insertMember_perm hfresh).append_left rest).trans List.perm_middle
    exact (ih _ ((hinsert.map Prod.fst).nodup_iff.2 h)).trans hinsert

private theorem keys_sortValues (members : List (String × Json)) :
    (sortValues members).map Prod.fst = members.map Prod.fst := by
  simp [sortValues_eq_map]

/-- Members with distinct keys are sorted into one list, whatever their order. -/
theorem sortMembers_sortValues_eq {members members' : List (String × Json)}
    (h : members.Perm members') (hkeys : (members.map Prod.fst).Nodup) :
    sortMembers (sortValues members) = sortMembers (sortValues members') := by
  have hvalues : (sortValues members).Perm (sortValues members') := by
    simp only [sortValues_eq_map]
    exact h.map _
  have hkeys' : (members'.map Prod.fst).Nodup := (h.map Prod.fst).nodup_iff.1 hkeys
  rw [← keys_sortValues] at hkeys hkeys'
  apply List.Perm.eq_of_pairwise ?_ (sorted_sortMembers (sortedMembers_sortValues members)).1
    (sorted_sortMembers (sortedMembers_sortValues members')).1
  · exact (sortMembers_perm hkeys).trans (hvalues.trans (sortMembers_perm hkeys').symm)
  · intro a b _ _ hab hba
    exact absurd hba (String.lt_asymm hab)

end Json

/-! ## Parts of a document -/

/-- What a value stands for in the document of a query. -/
inductive Part where
  | query
  | description
  | sortKey
  | clause
  | comparison
  | association
  | relation
  | list (item : Part)
  /-- A name, a number, an operand, a passthrough expression, or what nobody reads. -/
  | other

namespace Part

/-- The members that have a meaning in any case, in the order of the array form. -/
def names : Part → List String
  | .query => ["table", "description", "associations"]
  | .description => ["where", "joinTables", "sortBy", "take", "skip"]
  | .sortKey => ["sortColumn", "sortOrder"]
  | .clause => Clause.memberNames
  | .comparison => Comparison.memberNames
  | .association => ["to", "info"]
  | .relation => ["type"]
  | .list _ => []
  | .other => []

/-- What the value of a member stands for. -/
def child : Part → String → Part
  | .query, "description" => .description
  | .query, "associations" => .list .association
  | .description, "where" => .list .clause
  | .description, "sortBy" => .list .sortKey
  | .clause, "comparison" => .comparison
  | .clause, "conditions" => .list .clause
  | .association, "info" => .relation
  | _, _ => .other

/-- What an item of an array stands for. Records may be written as arrays. -/
def element : Part → Nat → Part
  | .list item, _ => item
  | part, i => (part.names[i]?).elim .other part.child

/-- An object with the given members may have another one under the key, and nobody reads it. -/
def Ignores (members : List (String × Json)) (key : String) : Part → Prop
  | .list _ => False
  | .other => False
  | .relation => key ≠ "type" ∧ ∀ tag form, members.lookup "type" = some (.string tag) →
      (tag, form) ∈ Relation.Form.choices → key ≠ form.member
  | part => key ∉ part.names

end Part

namespace Clause

/-- A clause with these members may have a member of that name, but its kind does not use it. -/
def Unused (members : List (String × Json)) (name : String) : Prop :=
  name ∈ memberNames ∧ name ≠ "type" ∧ ∃ kind required,
    members.lookup "type" = some (.string kind) ∧ requiredMembers kind = some required ∧
    name ∉ required

/-- The type that a member has in a clause of any kind, unless it is null. -/
def MemberType (j : Json) : String → Prop
  | "left" => ∃ s, j = .string s
  | "comparison" => Comparison.Document j
  | "table" => ∃ s, j = .string s
  | "conditions" => ∃ items, j = .array items ∧ ∀ i ∈ items, Document i
  | "expr" => True
  | _ => False

end Clause

/-- One rewrite at one place of a document. `room` is how many containers a reader of the value
    may open; nothing is put into a relation or a clause that is too deep for it. -/
inductive Rewrite : Nat → Part → Json → Json → Prop where
  /-- The members of an object come in another order. -/
  | permuted {room : Nat} {part : Part} {members members' : List (String × Json)} :
    members.Perm members' → Rewrite room part (.object members) (.object members')
  /-- A member that nobody reads is put into an object. -/
  | inserted {room : Nat} {part : Part} {before after : List (String × Json)} {key : String}
      {j : Json} :
    part.Ignores (before ++ after) key → (part = .relation → j.depth < room) →
    Rewrite room part (.object (before ++ after)) (.object (before ++ (key, j) :: after))
  /-- A member that its kind does not use is put into a clause. -/
  | unusedInserted {room : Nat} {before after : List (String × Json)} {name : String} {j : Json} :
    Clause.Unused (before ++ after) name → (before ++ after).lookup name = none →
    j = .null ∨ Clause.MemberType j name → j.depth < room →
    Rewrite room .clause (.object (before ++ after)) (.object (before ++ (name, j) :: after))
  /-- A member that its kind does not use is taken out of a clause. -/
  | unusedRemoved {room : Nat} {before after : List (String × Json)} {name : String} {j : Json} :
    Clause.Unused (before ++ after) name →
    Rewrite room .clause (.object (before ++ (name, j) :: after)) (.object (before ++ after))
  /-- The value of a member is rewritten. -/
  | member {room : Nat} {part : Part} {before after : List (String × Json)} {key : String}
      {j j' : Json} :
    Rewrite (room - 1) (part.child key) j j' →
    Rewrite room part (.object (before ++ (key, j) :: after))
      (.object (before ++ (key, j') :: after))
  /-- An item of an array is rewritten. -/
  | item {room : Nat} {part : Part} {before after : List Json} {j j' : Json} :
    Rewrite (room - 1) (part.element before.length) j j' →
    Rewrite room part (.array (before ++ j :: after)) (.array (before ++ j' :: after))

/-! ## Values that stand for no part -/

namespace Rewrite

theorem isScalar_eq_false {room : Nat} {part : Part} {v v' : Json} (h : Rewrite room part v v') :
    v.isScalar = false ∧ v'.isScalar = false := by
  cases h <;> exact ⟨rfl, rfl⟩

theorem ne_null {room : Nat} {part : Part} {v v' : Json} (h : Rewrite room part v v') :
    v ≠ .null ∧ v' ≠ .null := by
  cases h <;> exact ⟨nofun, nofun⟩

/-- A value that stands for no part is rewritten in the order of members only, and so is whatever
    it holds. -/
theorem other_induction {P : Json → Json → Prop}
    (permuted : ∀ {members members' : List (String × Json)}, members.Perm members' →
      P (.object members) (.object members'))
    (member : ∀ {before after : List (String × Json)} {key : String} {j j' : Json}, P j j' →
      P (.object (before ++ (key, j) :: after)) (.object (before ++ (key, j') :: after)))
    (item : ∀ {before after : List Json} {j j' : Json}, P j j' →
      P (.array (before ++ j :: after)) (.array (before ++ j' :: after)))
    {room : Nat} {v v' : Json} (h : Rewrite room .other v v') : P v v' := by
  generalize hpart : Part.other = part at h
  induction h with
  | permuted hperm => exact permuted hperm
  | inserted hignores _ =>
    subst hpart
    exact hignores.elim
  | unusedInserted | unusedRemoved => cases hpart
  | member _ ih =>
    subst hpart
    exact member (ih rfl)
  | item _ ih =>
    subst hpart
    exact item (ih rfl)

theorem depth_eq {room : Nat} {v v' : Json} (h : Rewrite room .other v v') :
    v'.depth = v.depth := by
  apply h.other_induction (P := fun v v' => v'.depth = v.depth)
  · intro members members' hperm
    apply congrArg (· + 1)
    apply eq_of_forall_ge_iff
    intro n
    simp only [Json.depthMembers_le, hperm.mem_iff]
  · intro before after key j j' hj
    apply congrArg (· + 1)
    apply eq_of_forall_ge_iff
    intro n
    simp only [Json.depthMembers_le, List.forall_mem_append, List.forall_mem_cons, hj]
  · intro before after j j' hj
    apply congrArg (· + 1)
    apply eq_of_forall_ge_iff
    intro n
    simp only [Json.depthItems_le, List.forall_mem_append, List.forall_mem_cons, hj]

/-- Without repeated keys, sorting undoes a rewrite. -/
theorem sort_eq {room : Nat} {v v' : Json} (h : Rewrite room .other v v') :
    v.KeysDistinct → v'.KeysDistinct ∧ v'.sort = v.sort := by
  apply h.other_induction (P := fun v v' => v.KeysDistinct → v'.KeysDistinct ∧ v'.sort = v.sort)
  · rintro members members' hperm ⟨hkeys, hmembers⟩
    refine ⟨⟨(hperm.map Prod.fst).nodup_iff.1 hkeys, ?_⟩, ?_⟩
    · simp only [Json.keysDistinctMembers_iff, hperm.mem_iff] at hmembers ⊢
      exact hmembers
    · simp only [Json.sort, Json.sortMembers_sortValues_eq hperm hkeys]
  · rintro before after key j j' ih ⟨hkeys, hmembers⟩
    simp only [Json.keysDistinctMembers_iff, List.forall_mem_append, List.forall_mem_cons]
      at hmembers
    obtain ⟨hbefore, hj, hafter⟩ := hmembers
    obtain ⟨hj', hsort⟩ := ih hj
    refine ⟨⟨?_, ?_⟩, ?_⟩
    · simpa using hkeys
    · simp only [Json.keysDistinctMembers_iff, List.forall_mem_append, List.forall_mem_cons]
      exact ⟨hbefore, hj', hafter⟩
    · simp only [Json.sort, Json.sortValues_eq_map, List.map_append, List.map_cons, hsort]
  · intro before after j j' ih hitems
    simp only [Json.KeysDistinct, Json.keysDistinctItems_iff, List.forall_mem_append,
      List.forall_mem_cons] at hitems ⊢
    obtain ⟨hbefore, hj, hafter⟩ := hitems
    obtain ⟨hj', hsort⟩ := ih hj
    refine ⟨⟨hbefore, hj', hafter⟩, ?_⟩
    simp only [Json.sort, Json.sortItems_eq_map, List.map_append, List.map_cons, hsort]

end Rewrite

/-- No object of the tree has two members. -/
inductive Json.Rigid : Json → Prop where
  | scalar {j : Json} : j.isScalar = true → Rigid j
  | single {key : String} {j : Json} : Rigid j → Rigid (.object [(key, j)])
  | array {items : List Json} : (∀ j ∈ items, Rigid j) → Rigid (.array items)

/-- There is nothing to rewrite where no object has two members. -/
theorem Json.Rigid.eq_of_rewrite {v v' : Json} (hrigid : v.Rigid) {room : Nat}
    (h : Rewrite room .other v v') : v' = v := by
  revert hrigid
  apply h.other_induction (P := fun v v' => v.Rigid → v' = v)
  · intro members members' hperm hrigid
    cases hrigid with
    | scalar hscalar => cases hscalar
    | single _ => rw [List.singleton_perm.1 hperm]
  · intro before after key j j' ih hrigid
    have hj : j.Rigid := by
      generalize hmembers : before ++ (key, j) :: after = members at hrigid
      cases hrigid with
      | scalar hscalar => cases hscalar
      | @single key' i hi =>
        have hmem : (key, j) ∈ [(key', i)] := hmembers ▸ List.mem_append_right _ List.mem_cons_self
        cases List.mem_singleton.1 hmem
        exact hi
    rw [ih hj]
  · intro before after j j' ih hrigid
    cases hrigid with
    | scalar hscalar => cases hscalar
    | array hitems => rw [ih (hitems _ (List.mem_append_right _ List.mem_cons_self))]

/-! ## The members of a record -/

section Members

variable {members members' before after : List (String × Json)} {name key : String} {j j' : Json}

theorem lookup_eq_head?_filter :
    members.lookup name = ((members.filter fun m => m.1 == name).head?).map Prod.snd := by
  induction members with
  | nil => rfl
  | cons m rest ih =>
    by_cases hname : m.1 = name
    · subst hname
      rw [List.lookup_cons_self, List.filter_cons_of_pos (by simp), List.head?_cons,
        Option.map_some]
    · rw [lookup_cons_of_ne (Ne.symm hname), ih, List.filter_cons_of_neg (by simpa using hname)]

/-- What there is only one of stays where it is looked for. -/
theorem filter_eq_of_perm (h : members.Perm members') {p : String × Json → Bool}
    (hcount : members.countP p ≤ 1) : members.filter p = members'.filter p := by
  have hperm : (members.filter p).Perm (members'.filter p) := h.filter p
  rw [List.countP_eq_length_filter] at hcount
  match hfilter : members.filter p, hcount with
  | [], _ =>
    rw [hfilter] at hperm
    exact (List.nil_perm.1 hperm).symm
  | [m], _ =>
    rw [hfilter] at hperm
    exact List.singleton_perm.1 hperm

private theorem lookup_eq_of_perm (h : members.Perm members')
    (hcount : members.countP (fun m => m.1 == name) ≤ 1) :
    members'.lookup name = members.lookup name := by
  rw [lookup_eq_head?_filter, lookup_eq_head?_filter, filter_eq_of_perm h hcount]

private theorem lookup_append_cons_of_ne (h : name ≠ key) :
    (before ++ (key, j) :: after).lookup name = (before ++ after).lookup name := by
  rw [List.lookup_append, List.lookup_append, lookup_cons_of_ne h]

private theorem countP_append_cons_of_ne (h : name ≠ key) :
    (before ++ (key, j) :: after).countP (fun m => m.1 == name) =
      (before ++ after).countP (fun m => m.1 == name) := by
  simp [List.countP_append, Ne.symm h]

private theorem countP_append_cons_self :
    (before ++ (name, j) :: after).countP (fun m => m.1 == name) =
      (before ++ after).countP (fun m => m.1 == name) + 1 := by
  simp [List.countP_append, Nat.add_assoc]

/-- The one member of a name is found, and no other is there without it. -/
private theorem lookup_append_cons_self
    (h : (before ++ (name, j) :: after).countP (fun m => m.1 == name) ≤ 1) :
    (before ++ (name, j) :: after).lookup name = some j ∧ (before ++ after).lookup name = none := by
  have hothers : (before ++ after).countP (fun m => m.1 == name) = 0 := by
    rw [countP_append_cons_self] at h
    exact Nat.le_zero.1 (Nat.le_of_succ_le_succ h)
  have hbefore : before.countP (fun m => m.1 == name) = 0 := by
    rw [List.countP_append] at hothers
    exact Nat.eq_zero_of_add_eq_zero_right hothers
  refine ⟨?_, lookup_eq_none_of_countP hothers⟩
  rw [List.lookup_append, lookup_eq_none_of_countP hbefore, List.lookup_cons_self]
  rfl

private theorem countP_eq_zero_of_lookup (h : members.lookup name = none) :
    members.countP (fun m => m.1 == name) = 0 := by
  rw [List.countP_eq_zero]
  intro m hm heq
  exact bne_iff_ne.1 (List.lookup_eq_none_iff.1 h m hm) (beq_iff_eq.1 heq).symm

end Members

/-- Two trees give a record in the same form, and the second gives no name twice. -/
inductive Json.SameForm (names : List String) : Json → Json → Prop where
  | object {members members' : List (String × Json)} :
    (Json.object members').GivesOnce names → SameForm names (.object members) (.object members')
  | array {items items' : List Json} :
    items'.length = items.length → SameForm names (.array items) (.array items')

private theorem lookup_zip {names : List String} {name : String} (h : name ∈ names)
    (items : List Json) :
    (names.zip items).lookup name = items[names.idxOf name]? := by
  induction names generalizing items with
  | nil => exact absurd h List.not_mem_nil
  | cons head rest ih =>
    cases items with
    | nil => simp
    | cons j items =>
      by_cases hname : name = head
      · subst hname
        simp
      · have hmem : name ∈ rest := (List.mem_cons.1 h).resolve_left hname
        rw [List.zip_cons_cons, lookup_cons_of_ne hname, ih hmem,
          List.idxOf_cons_ne _ (Ne.symm hname), Nat.succ_eq_add_one, List.getElem?_cons_succ]

private theorem Part.element_idxOf {part : Part} {name : String} (h : name ∈ part.names) :
    part.element (part.names.idxOf name) = part.child name := by
  cases part with
  | list item => exact absurd h List.not_mem_nil
  | query | description | sortKey | clause | comparison | association | relation | other =>
    simp only [Part.element, List.getElem?_idxOf h, Option.elim_some]

theorem Part.element_relation (i : Nat) : Part.relation.element i = .other := by
  cases i <;> rfl

/-- How a rewrite may change what a record gives under a name. -/
inductive Part.Changed (room : Nat) (part : Part) (members : List (String × Json))
    (name : String) : Option Json → Option Json → Prop where
  | same (x : Option Json) : Changed room part members name x x
  | rewritten {j j' : Json} :
    Rewrite (room - 1) (part.child name) j j' → Changed room part members name (some j) (some j')
  | unused {x x' : Option Json} :
    part = .clause → Clause.Unused members name →
    (∀ j', x' = some j' → (j' = .null ∨ Clause.MemberType j' name) ∧ j'.depth < room) →
    Changed room part members name x x'

private theorem Clause.Unused.append_cons {before after : List (String × Json)} {name : String}
    {j : Json} (h : Unused (before ++ after) name) :
    Unused (before ++ (name, j) :: after) name := by
  obtain ⟨hname, htype, kind, required, hkind, hrest⟩ := h
  exact ⟨hname, htype, kind, required, (lookup_append_cons_of_ne htype.symm).trans hkind, hrest⟩

private theorem Part.Ignores.not_mem_names {part : Part} {members : List (String × Json)}
    {key : String} (h : part.Ignores members key) : key ∉ part.names := by
  cases part with
  | list | other => exact h.elim
  | relation => exact fun hmem => h.1 (List.mem_singleton.1 hmem)
  | query | description | sortKey | clause | comparison | association => exact h

namespace Rewrite

variable {room : Nat} {part : Part} {v v' : Json}

theorem sameForm (h : Rewrite room part v v') (honce : v.GivesOnce part.names) :
    Json.SameForm part.names v v' := by
  cases h with
  | permuted hperm =>
    apply Json.SameForm.object
    intro name hname
    rw [← hperm.countP_eq]
    exact honce name hname
  | @inserted _ _ before after key j hignores _ =>
    apply Json.SameForm.object
    intro name hname
    have hne : name ≠ key := ne_of_mem_of_not_mem hname hignores.not_mem_names
    rw [countP_append_cons_of_ne hne]
    exact honce name hname
  | @unusedInserted _ before after key j _ hnone _ _ =>
    apply Json.SameForm.object
    intro name hname
    by_cases hkey : name = key
    · subst hkey
      rw [countP_append_cons_self, countP_eq_zero_of_lookup hnone]
    · rw [countP_append_cons_of_ne hkey]
      exact honce name hname
  | @unusedRemoved _ before after key j _ =>
    apply Json.SameForm.object
    intro name hname
    have hsub : (before ++ after).Sublist (before ++ (key, j) :: after) := by simp
    exact hsub.countP_le.trans (honce name hname)
  | member _ =>
    apply Json.SameForm.object
    intro name hname
    simpa only [List.countP_append, List.countP_cons] using honce name hname
  | item _ =>
    apply Json.SameForm.array
    simp only [List.length_append, List.length_cons]

/-- A rewrite changes what a record gives under one name at most. -/
theorem changed (h : Rewrite room part v v') (honce : v.GivesOnce part.names) {name : String}
    (hname : name ∈ part.names) :
    part.Changed room (v.membersOf part.names) name ((v.membersOf part.names).lookup name)
      ((v'.membersOf part.names).lookup name) := by
  cases h with
  | permuted hperm =>
    simp only [Json.membersOf, lookup_eq_of_perm hperm (honce name hname)]
    exact .same _
  | @inserted _ _ before after key j hignores _ =>
    have hne : name ≠ key := ne_of_mem_of_not_mem hname hignores.not_mem_names
    simp only [Json.membersOf, lookup_append_cons_of_ne hne]
    exact .same _
  | @unusedInserted _ before after key j hunused hnone htyped hdepth =>
    by_cases hkey : name = key
    · subst hkey
      apply Part.Changed.unused rfl hunused
      intro j' hj'
      have hcount : (before ++ (name, j) :: after).countP (fun m => m.1 == name) ≤ 1 := by
        rw [countP_append_cons_self, countP_eq_zero_of_lookup hnone]
      cases (lookup_append_cons_self hcount).1.symm.trans hj'
      exact ⟨htyped, hdepth⟩
    · simp only [Json.membersOf, lookup_append_cons_of_ne hkey]
      exact .same _
  | @unusedRemoved _ before after key j hunused =>
    by_cases hkey : name = key
    · subst hkey
      apply Part.Changed.unused rfl hunused.append_cons
      intro j' hj'
      cases (lookup_append_cons_self (honce name hname)).2.symm.trans hj'
    · simp only [Json.membersOf, lookup_append_cons_of_ne hkey]
      exact .same _
  | @member _ _ before after key j j' hj =>
    by_cases hkey : name = key
    · subst hkey
      have hcount : (before ++ (name, j') :: after).countP (fun m => m.1 == name) ≤ 1 := by
        simpa only [List.countP_append, List.countP_cons] using honce name hname
      simp only [Json.membersOf, lookup_append_cons_self (honce name hname),
        lookup_append_cons_self hcount]
      exact .rewritten hj
    · simp only [Json.membersOf, lookup_append_cons_of_ne hkey]
      exact .same _
  | @item _ _ before after j j' hj =>
    simp only [Json.membersOf, lookup_zip hname]
    by_cases hindex : part.names.idxOf name = before.length
    · rw [← hindex, Part.element_idxOf hname] at hj
      simp only [hindex, List.getElem?_append_right (Nat.le_refl _), Nat.sub_self,
        List.getElem?_cons_zero]
      exact .rewritten hj
    · have hsame : (before ++ j' :: after)[part.names.idxOf name]? =
          (before ++ j :: after)[part.names.idxOf name]? := by
        simp only [List.getElem?_append, List.getElem?_cons]
        split
        · rfl
        · rw [if_neg (by omega), if_neg (by omega)]
      rw [hsame]
      exact .same _

end Rewrite

end DocQuery
