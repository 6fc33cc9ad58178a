-- SUMMARY: Readers that read the same from a tree after a rewrite: of lists, records, comparisons, sort keys, relations and associations.
import DocQuery.Proofs.Rewrites

/-!
# Following rewrites

A reader follows a rewrite of a tree if it reads the same from the new tree (`Carries`). A reader of
a list does if the reader of its items does, and a reader of a record if the readers of its fields
do, so the readers are gone through from the leaves up.

`Follows` is the same with a condition: the new tree can be read in any case, but it gives the same
result only if the old one is clear in some sense, and then stays clear.
-/

namespace DocQuery

open Json (Draft Items Members)

/-! ## Readers -/

section Readers

variable {α β : Type} {read : Draft → Except ReadError α} {Clear : Json → Prop} {j j' : Json}

/-- What is read from one tree can be read from the other as well. It is the same if the first tree
    is clear, and then so is the second. -/
def Follows (Clear : Json → Prop) (read : Draft → Except ReadError α) (j j' : Json) : Prop :=
  ∀ a, read (.ofJson j) = .ok a → ∃ a', read (.ofJson j') = .ok a' ∧ (Clear j → a' = a ∧ Clear j')

/-- What is read from one tree is read from the other as well. -/
def Carries (read : Draft → Except ReadError α) (j j' : Json) : Prop :=
  ∀ a, read (.ofJson j) = .ok a → read (.ofJson j') = .ok a

theorem Follows.carries (h : Follows Clear read j j') (hclear : Clear j) : Carries read j j' := by
  intro a ha
  obtain ⟨a', ha', hsame⟩ := h a ha
  rw [ha', (hsame hclear).1]

theorem Carries.follows (h : Carries read j j') : Follows (fun _ => True) read j j' :=
  fun a ha => ⟨a, h a ha, fun _ => ⟨rfl, trivial⟩⟩

theorem Carries.bind (h : Carries read j j') (f : α → Except ReadError β) :
    Carries (fun d => read d >>= f) j j' := by
  intro b hb
  obtain ⟨a, ha, hb⟩ := bind_eq_ok.1 hb
  exact bind_eq_ok.2 ⟨a, h a ha, hb⟩

/-- A reader that takes nothing with two members in an object has nothing to follow. -/
theorem Rewrite.carries_of_rigid {room : Nat} (h : Rewrite room .other j j')
    (hrigid : Takes read j → j.Rigid) : Carries read j j' := by
  intro a ha
  rw [(hrigid ⟨a, ha⟩).eq_of_rewrite h]
  exact ha

theorem rigid_of_readString (h : Takes readString j) : j.Rigid := by
  obtain ⟨s, rfl⟩ := takes_readString.1 h
  exact .scalar rfl

theorem rigid_of_readCount (h : Takes readCount j) : j.Rigid := by
  obtain ⟨n, h⟩ := h
  cases j with
  | number => exact .scalar rfl
  | null | bool | string | array | object => exact absurd h wrongType_ne_ok

theorem rigid_of_readOption (hrigid : Takes read j → j.Rigid) (h : Takes (readOption read) j) :
    j.Rigid := by
  obtain rfl | htakes := takes_readOption.1 h
  · exact .scalar rfl
  · exact hrigid htakes

private theorem rigid_of_readName {choices : List (String × α)} {room : Nat}
    (h : Takes (readName room choices) j) : j.Rigid := by
  obtain ⟨name, a, rfl, _⟩ | ⟨r, name, a, payload, _, rfl, _, b, hunit⟩ := choice_of_takes h
  · exact .scalar rfl
  · apply Json.Rigid.single
    cases payload with
    | null => exact .scalar rfl
    | bool | number | string | array | object => exact absurd hunit wrongType_ne_ok

theorem rigid_of_readList {read : Nat → Draft → Except ReadError α} {room : Nat}
    (hrigid : ∀ r i, Takes (read r) i → i.Rigid) (h : Takes (readList (inside room read)) j) :
    j.Rigid := by
  obtain ⟨r, js, _, rfl, hitems⟩ := takes_readList.1 h
  exact .array fun i hi => hrigid r i (hitems i hi)

private theorem Operand.Document.rigid (h : Operand.Document j) : j.Rigid := by
  cases h with
  | value hscalar => exact .single (.scalar hscalar)
  | values hscalar => exact .single (.array fun i hi => .scalar (hscalar i hi))
  | column name => exact .single (.scalar rfl)

end Readers

/-! ## Lists -/

section Lists

variable {α : Type} {Clear : Json → Prop}

/-- The items of a list are clear. -/
def ClearItems (Clear : Json → Prop) (x : Json) : Prop :=
  ∀ items, x = .array items → ∀ j ∈ items, Clear j

private theorem readItems_follows {read : Draft → Except ReadError α} {before after : List Json}
    {j j' : Json} {C : Prop} {as : List α}
    (hj : ∀ a, read (.ofJson j) = .ok a → ∃ a', read (.ofJson j') = .ok a' ∧ (C → a' = a))
    (h : readItems read (Items.ofList (before ++ j :: after)) = .ok as) :
    ∃ as', readItems read (Items.ofList (before ++ j' :: after)) = .ok as' ∧ (C → as' = as) := by
  induction before generalizing as with
  | nil =>
    obtain ⟨a, ha, h⟩ := bind_eq_ok.1 h
    obtain ⟨rest, hrest, h⟩ := bind_eq_ok.1 h
    cases h
    obtain ⟨a', ha', hsame⟩ := hj a ha
    exact ⟨a' :: rest, bind_eq_ok.2 ⟨a', ha', bind_eq_ok.2 ⟨rest, hrest, rfl⟩⟩,
      fun hC => congrArg (· :: rest) (hsame hC)⟩
  | cons i before ih =>
    obtain ⟨a, ha, h⟩ := bind_eq_ok.1 h
    obtain ⟨rest, hrest, h⟩ := bind_eq_ok.1 h
    cases h
    obtain ⟨rest', hrest', hsame⟩ := ih hrest
    exact ⟨a :: rest', bind_eq_ok.2 ⟨a, ha, bind_eq_ok.2 ⟨rest', hrest', rfl⟩⟩,
      fun hC => congrArg (a :: ·) (hsame hC)⟩

/-- A rewrite of a list is a rewrite of one of its items. -/
private theorem Rewrite.exists_item {room : Nat} {p : Part} {items : List Json} {v' : Json}
    (h : Rewrite room (.list p) (.array items) v') :
    ∃ before j j' after, items = before ++ j :: after ∧ v' = .array (before ++ j' :: after) ∧
      Rewrite (room - 1) p j j' := by
  cases h with
  | item hj => exact ⟨_, _, _, _, rfl, rfl, hj⟩

theorem Rewrite.follows_readList {read : Nat → Draft → Except ReadError α} {room : Nat} {p : Part}
    {v v' : Json} (h : Rewrite room (.list p) v v')
    (hitem : ∀ r j j', room = r + 1 → Rewrite r p j j' → Follows Clear (read r) j j') :
    Follows (ClearItems Clear) (readList (inside room read)) v v' := by
  intro as has
  obtain ⟨r, items, rfl, rfl, _⟩ := takes_readList.1 ⟨as, has⟩
  obtain ⟨before, j, j', after, rfl, rfl, hj⟩ := h.exists_item
  have hfollows := hitem r j j' rfl hj
  have hmem : j ∈ before ++ j :: after := List.mem_append_right _ List.mem_cons_self
  obtain ⟨a, ha⟩ := takes_items.1 ⟨as, has⟩ j hmem
  obtain ⟨_, _, hclear⟩ := hfollows a ha
  obtain ⟨as', has', hsame⟩ := readItems_follows (C := Clear j) (fun a ha => by
    obtain ⟨a', ha', hsame⟩ := hfollows a ha
    exact ⟨a', ha', fun hC => (hsame hC).1⟩) has
  refine ⟨as', has', fun hitems => ⟨hsame (hitems _ rfl j hmem), ?_⟩⟩
  rintro _ ⟨rfl⟩ i hi
  have hothers := hitems _ rfl
  simp only [List.forall_mem_append, List.forall_mem_cons] at hothers
  obtain ⟨hbefore, hjclear, hafter⟩ := hothers
  rcases List.mem_append.1 hi with hi | hi
  · exact hbefore i hi
  · rcases List.mem_cons.1 hi with rfl | hi
    · exact (hclear hjclear).2
    · exact hafter i hi

theorem Rewrite.carries_readList {read : Nat → Draft → Except ReadError α} {room : Nat} {p : Part}
    {v v' : Json} (h : Rewrite room (.list p) v v')
    (hitem : ∀ r j j', Rewrite r p j j' → Carries (read r) j j') :
    Carries (readList (inside room read)) v v' :=
  (h.follows_readList fun r j j' _ hj => (hitem r j j' hj).follows).carries
    fun _ _ _ _ => trivial

end Lists

/-! ## Records -/

section Records

variable {σ : Type} {fields : List (Field σ)} {empty : σ} {slots : List (Slot σ)} {part : Part}
  {room : Nat} {type : String} {v v' : Json}

private theorem Json.Fits.of_sameForm (h : v.Fits fields)
    (hform : Json.SameForm (fields.map Field.name) v v') : v'.Fits fields := by
  cases hform with
  | object honce => exact .object honce
  | array hlength =>
    cases h with
    | array hfields hoptional =>
      rw [← hlength] at hfields hoptional
      exact .array hfields hoptional

private theorem readGiven_carries {members members' : List (String × Json)} {s u : σ}
    (hfields : ∀ f ∈ fields, ∀ s t, f.readFrom members s = .ok t → f.readFrom members' s = .ok t)
    (h : readGiven members fields s = .ok u) : readGiven members' fields s = .ok u := by
  induction fields generalizing s with
  | nil => exact h
  | cons f fields ih =>
    obtain ⟨hf, hfields⟩ := List.forall_mem_cons.1 hfields
    rw [readGiven_cons] at h ⊢
    obtain ⟨t, ht, h⟩ := bind_eq_ok.1 h
    exact bind_eq_ok.2 ⟨t, hf s t ht, ih hfields h⟩

/-- A record other than a clause follows a rewrite if each of its fields does. -/
theorem Rewrite.carries_readRecord (h : Rewrite room part v v') (hpart : part ≠ .clause)
    (hslots : Slots fields empty slots) (hnames : slots.map Slot.name = part.names)
    (hread : ∀ p ∈ slots, ∀ j j' : Json, (v.membersOf part.names).lookup p.name = some j →
      Rewrite (room - 1) (part.child p.name) j j' → Carries p.read j j') :
    Carries (readRecord type (some fields) empty) v v' := by
  intro u hu
  obtain ⟨hfits, hu⟩ := hslots.readRecord_eq_ok.1 hu
  have hfields : fields.map Field.name = part.names := hslots.map_name.trans hnames
  have honce : v.GivesOnce part.names := hfields ▸ hfits.givesOnce
  refine hslots.readRecord_eq_ok.2
    ⟨hfits.of_sameForm (hfields ▸ h.sameForm honce), readGiven_carries ?_ hu⟩
  rw [hslots.fields, hnames]
  simp only [List.forall_mem_map]
  intro p hp s t ht
  have hchanged := h.changed honce (hnames ▸ List.mem_map_of_mem hp)
  generalize hx : (v.membersOf part.names).lookup p.name = x at hchanged
  generalize hx' : (v'.membersOf part.names).lookup p.name = x' at hchanged
  cases hchanged with
  | same =>
    rw [← ht]
    exact congrFun (Field.readFrom_congr (hx'.trans hx.symm)) s
  | rewritten hj =>
    rw [Field.readFrom_some hx] at ht
    rw [Field.readFrom_some hx']
    obtain ⟨a, ha, rfl⟩ := Slot.read_eq_ok.1 ht
    exact Slot.read_eq_ok.2 ⟨a, hread p hp _ _ hx hj a ha, rfl⟩
  | unused hclause => exact absurd hclause hpart

private theorem takes_of_readGiven {σ : Type} {slots : List (Slot σ)}
    {members : List (String × Json)} {s u : σ}
    (h : readGiven members (slots.map Slot.field) s = .ok u) {p : Slot σ} (hp : p ∈ slots)
    {j : Json} (hj : members.lookup p.name = some j) : Takes p.read j := by
  induction slots generalizing s with
  | nil => exact absurd hp List.not_mem_nil
  | cons q slots ih =>
    rw [List.map_cons, readGiven_cons] at h
    obtain ⟨t, ht, h⟩ := bind_eq_ok.1 h
    rcases List.mem_cons.1 hp with rfl | hp
    · rw [Field.readFrom_some hj] at ht
      obtain ⟨a, ha, _⟩ := Slot.read_eq_ok.1 ht
      exact ⟨a, ha⟩
    · exact ih h hp

/-- What is read of a record comes from readers that take what the tree gives. -/
theorem takes_of_readRecord (part : Part) {fields : Nat → List (Field σ)}
    {slots : Nat → List (Slot σ)} (hslots : ∀ r, Slots (fields r) empty (slots r))
    (hnames : ∀ r, (slots r).map Slot.name = part.names) {u : σ}
    (h : readRecord type (inside room fields) empty (.ofJson v) = .ok u) :
    ∃ r, room = r + 1 ∧ v.GivesOnce part.names ∧ ∀ p ∈ slots r, ∀ j : Json,
      (v.membersOf part.names).lookup p.name = some j → Takes p.read j := by
  cases room with
  | zero => exact absurd h readRecord_none_ne_ok
  | succ r =>
    obtain ⟨hfits, hu⟩ := (hslots r).readRecord_eq_ok.1 h
    rw [(hslots r).fields, hnames r] at hu
    refine ⟨r, rfl, ?_, fun p hp j hj => takes_of_readGiven hu hp hj⟩
    rw [← hnames r, ← (hslots r).map_name]
    exact hfits.givesOnce

/-- What a record other than a clause gives after a rewrite comes from what it gave before. -/
theorem Rewrite.exists_lookup (h : Rewrite room part v v') (hpart : part ≠ .clause)
    (honce : v.GivesOnce part.names) {name : String} (hname : name ∈ part.names) {x' : Json}
    (hx' : (v'.membersOf part.names).lookup name = some x') :
    ∃ x, (v.membersOf part.names).lookup name = some x ∧
      (x' = x ∨ Rewrite (room - 1) (part.child name) x x') := by
  have hchanged := h.changed honce hname
  rw [hx'] at hchanged
  generalize hx : (v.membersOf part.names).lookup name = x at hchanged
  cases hchanged with
  | same => exact ⟨x', rfl, .inl rfl⟩
  | rewritten hj => exact ⟨_, rfl, .inr hj⟩
  | unused hclause => exact absurd hclause hpart

/-- A record that there is no room for is not read at all. -/
theorem Rewrite.carries_record {α : Type} {finish : σ → Except ReadError α}
    {fields : Nat → List (Field σ)} {slots : Nat → List (Slot σ)}
    (h : Rewrite room part v v') (hpart : part ≠ .clause)
    (hslots : ∀ r, Slots (fields r) empty (slots r))
    (hnames : ∀ r, (slots r).map Slot.name = part.names)
    (hread : ∀ r, room = r + 1 → ∀ p ∈ slots r, ∀ j j' : Json,
      (v.membersOf part.names).lookup p.name = some j →
      Rewrite r (part.child p.name) j j' → Carries p.read j j') :
    Carries (fun d => readRecord type (inside room fields) empty d >>= finish) v v' := by
  cases room with
  | zero =>
    intro a ha
    obtain ⟨p, hp, _⟩ := bind_eq_ok.1 ha
    exact absurd hp readRecord_none_ne_ok
  | succ r => exact Carries.bind (h.carries_readRecord hpart (hslots r) (hnames r) (hread r rfl)) _

end Records

/-! ## Comparisons and sort keys -/

theorem Comparison.carries_read {room : Nat} {v v' : Json} (h : Rewrite room .comparison v v') :
    Carries (Comparison.read room) v v' := by
  refine h.carries_record nofun Comparison.slots_fields (fun _ => rfl) ?_
  intro r _ p hp j j' _ hj
  simp only [Comparison.slots, List.mem_cons, List.not_mem_nil, or_false] at hp
  rcases hp with rfl | rfl
  · exact Rewrite.carries_of_rigid hj rigid_of_readName
  · exact Rewrite.carries_of_rigid hj fun h => (Operand.document_of_takes h).rigid

theorem SortKey.carries_read {room : Nat} {v v' : Json} (h : Rewrite room .sortKey v v') :
    Carries (SortKey.read room) v v' := by
  refine h.carries_record nofun SortKey.slots_fields (fun _ => rfl) ?_
  intro r _ p hp j j' _ hj
  simp only [SortKey.slots, List.mem_cons, List.not_mem_nil, or_false] at hp
  rcases hp with rfl | rfl
  · exact Rewrite.carries_of_rigid hj rigid_of_readString
  · exact Rewrite.carries_of_rigid hj rigid_of_readName

/-! ## Relations

A relation looks at its tag wherever it stands and keeps the other members for later, so it is no
record. It is read exactly if the tag and the member that the tag asks for are there once. -/

namespace Relation

private theorem readChoiceName_eq_ok {j : Json} {form : Form} :
    readChoiceName Form.choices (.ofJson j) = .ok form ↔
      ∃ tag, j = .string tag ∧ choiceOfName Form.choices tag = .ok form := by
  cases j with
  | string s =>
    constructor
    · intro h
      obtain ⟨_, ⟨rfl⟩, h⟩ := bind_eq_ok.1 h
      exact ⟨s, rfl, h⟩
    · rintro ⟨_, ⟨rfl⟩, h⟩
      exact h
  | null | bool | number | array | object =>
    refine iff_of_false wrongType_ne_ok ?_
    rintro ⟨_, ⟨⟩, _⟩

private theorem textOf_eq_ok {j : Json} {s : String} : textOf j = .ok s ↔ j = .string s := by
  cases j <;> simp [textOf, refuse]

private theorem readMembers_other {room : Nat} {key : String} (hkey : key ≠ "type") {j : Json}
    {members kept : List (String × Json)} {tag : Option Form}
    {result : Option Form × List (String × Json)} :
    readMembers room (Members.ofList ((key, j) :: members)) tag kept = .ok result ↔
      j.depth ≤ room ∧
        readMembers room (Members.ofList members) tag ((key, j) :: kept) = .ok result := by
  have hbind : readMembers room (Members.ofList ((key, j) :: members)) tag kept =
      ofText ((Draft.ofJson j).toJson room) >>= fun j =>
        readMembers room (Members.ofList members) tag ((key, j) :: kept) :=
    if_neg (by simpa using hkey)
  rw [hbind, bind_eq_ok]
  constructor
  · rintro ⟨j', hj', h⟩
    obtain ⟨hdepth, rfl⟩ := Json.Draft.toJson_eq_ok.1 (eq_ok_of_ofText hj')
    exact ⟨hdepth, h⟩
  · rintro ⟨hdepth, h⟩
    refine ⟨j, ?_, h⟩
    rw [Json.Draft.toJson_ofJson j hdepth]
    rfl

/-- The members give the name once, with the value. -/
def GivesOnly (members : List (String × Json)) (name : String) (j : Json) : Prop :=
  members.filter (fun m => m.1 == name) = [(name, j)]

namespace GivesOnly

variable {members members' before after : List (String × Json)} {key name : String} {i j : Json}

private theorem of_perm (h : GivesOnly members name j) (hperm : members.Perm members') :
    GivesOnly members' name j := by
  have hcount : members.countP (fun m => m.1 == name) ≤ 1 := by
    rw [List.countP_eq_length_filter, h]
    rfl
  exact (filter_eq_of_perm hperm hcount).symm.trans h

private theorem lookup_eq (h : GivesOnly members name j) : members.lookup name = some j := by
  rw [lookup_eq_head?_filter, h]
  rfl

private theorem append_cons_of_ne (hkey : key ≠ name) :
    GivesOnly (before ++ (key, i) :: after) name j ↔ GivesOnly (before ++ after) name j := by
  simp only [GivesOnly, List.filter_append, List.filter_cons, beq_false_of_ne hkey,
    Bool.false_eq_true, ↓reduceIte]

private theorem eq_of_append_cons (h : GivesOnly (before ++ (name, i) :: after) name j) :
    i = j := by
  have hmem : (name, i) ∈ (before ++ (name, i) :: after).filter fun m => m.1 == name := by simp
  rw [h] at hmem
  cases List.mem_singleton.1 hmem
  rfl

end GivesOnly

/-- The members split into the tag, which stands once, and the rest in order. A tag that has been
    found already must not stand among them. -/
theorem readMembers_eq_ok {room : Nat} {members : List (String × Json)} {tag : Option Form}
    {kept : List (String × Json)} {form : Form} {rest : List (String × Json)} :
    readMembers room (Members.ofList members) tag kept = .ok (some form, rest) ↔
      (∀ m ∈ members, m.1 ≠ "type" → m.2.depth ≤ room) ∧
      kept.reverse ++ members.filter (fun m => m.1 != "type") = rest ∧
      ((tag = some form ∧ members.filter (fun m => m.1 == "type") = []) ∨
        (tag = none ∧ ∃ name, GivesOnly members "type" (.string name) ∧
          choiceOfName Form.choices name = .ok form)) := by
  induction members generalizing tag kept with
  | nil => simp [Members.ofList, readMembers, GivesOnly, and_comm]
  | cons m members ih =>
    obtain ⟨key, j⟩ := m
    by_cases hkey : key = "type"
    · subst hkey
      cases tag with
      | some tag =>
        refine iff_of_false (fun hread => nomatch hread) ?_
        simp
      | none =>
        have hbind : readMembers room (Members.ofList (("type", j) :: members)) none kept =
            readChoiceName Form.choices (.ofJson j) >>= fun form =>
              readMembers room (Members.ofList members) (some form) kept := rfl
        rw [hbind, bind_eq_ok]
        simp only [ih, readChoiceName_eq_ok]
        constructor
        · rintro ⟨form', ⟨name, rfl, hname⟩, hdepth, hrest, ⟨⟨rfl⟩, hnone⟩ | ⟨⟨⟩, _⟩⟩
          refine ⟨?_, by simpa using hrest, .inr ⟨trivial, name, by simp [GivesOnly, hnone], hname⟩⟩
          intro m hm hne
          exact hdepth m ((List.mem_cons.1 hm).resolve_left fun heq => hne (heq ▸ rfl)) hne
        · rintro ⟨hdepth, hrest, ⟨⟨⟩, _⟩ | ⟨_, name, honly, hname⟩⟩
          rw [GivesOnly, List.filter_cons_of_pos (by simp), List.cons.injEq, Prod.mk.injEq] at honly
          obtain ⟨⟨_, rfl⟩, hnone⟩ := honly
          refine ⟨form, ⟨name, rfl, hname⟩, ?_, by simpa using hrest, .inl ⟨rfl, hnone⟩⟩
          exact fun m hm => hdepth m (List.mem_cons_of_mem _ hm)
    · rw [readMembers_other hkey, ih]
      simp [hkey, and_assoc, GivesOnly]

private theorem findKey_eq_ok {name key : String} {members : List (String × Json)}
    {found : Option String} :
    findKey name members found = .ok key ↔
      (found = some key ∧ members.filter (fun m => m.1 == name) = []) ∨
      (found = none ∧ GivesOnly members name (.string key)) := by
  unfold GivesOnly
  induction members generalizing found with
  | nil => cases found <;> simp [findKey, refuse]
  | cons m members ih =>
    obtain ⟨k, j⟩ := m
    by_cases hk : k = name
    · subst hk
      cases found with
      | some found => simp [findKey, refuse]
      | none =>
        have hbind : findKey k ((k, j) :: members) none =
            textOf j >>= fun text => findKey k members (some text) := by
          simp [findKey]
        rw [hbind, bind_eq_ok]
        simp [ih, textOf_eq_ok]
    · simp [findKey, hk, ih]

/-- An object is a relation exactly if its tag and the member that the tag asks for stand in it
    once, and there is room for all others. -/
theorem read_object_eq_ok {room : Nat} {members : List (String × Json)} {relation : Relation} :
    read room (.ofJson (.object members)) = .ok relation ↔
      ∃ r tag form key, room = r + 1 ∧ (∀ m ∈ members, m.1 ≠ "type" → m.2.depth ≤ r) ∧
        GivesOnly members "type" (.string tag) ∧ choiceOfName Form.choices tag = .ok form ∧
        GivesOnly members form.member (.string key) ∧ ofForm form key = relation := by
  cases room with
  | zero => exact iff_of_false (fun hread => nomatch hread) (by simp)
  | succ r =>
    have hmember : ∀ form : Form, (members.filter fun m => m.1 != "type").filter
        (fun m => m.1 == form.member) = members.filter fun m => m.1 == form.member := by
      intro form
      rw [List.filter_filter]
      apply List.filter_congr
      intro m _
      by_cases hm : m.1 = form.member
      · cases form <;> simp [hm, Form.member]
      · simp [hm]
    constructor
    · intro h
      obtain ⟨⟨tag, kept⟩, hmembers, h⟩ := bind_eq_ok.1 h
      obtain ⟨form, hform, h⟩ := bind_eq_ok.1 h
      obtain ⟨key, hkey, h⟩ := bind_eq_ok.1 h
      cases h
      obtain rfl := eq_some_of_required hform
      obtain ⟨hdepth, rfl, ⟨⟨⟩, _⟩ | ⟨_, name, htag, hchoice⟩⟩ := readMembers_eq_ok.1 hmembers
      obtain ⟨⟨⟩, _⟩ | ⟨_, honly⟩ := findKey_eq_ok.1 hkey
      rw [GivesOnly, List.reverse_nil, List.nil_append, hmember] at honly
      exact ⟨r, name, form, key, rfl, hdepth, htag, hchoice, honly, rfl⟩
    · rintro ⟨_, name, form, key, ⟨rfl⟩, hdepth, htag, hchoice, honly, rfl⟩
      refine bind_eq_ok.2 ⟨(some form, _), readMembers_eq_ok.2
        ⟨hdepth, rfl, .inr ⟨rfl, name, htag, hchoice⟩⟩, bind_eq_ok.2 ⟨form, rfl, ?_⟩⟩
      refine bind_eq_ok.2 ⟨key, findKey_eq_ok.2 (.inr ⟨rfl, ?_⟩), rfl⟩
      rw [GivesOnly, List.reverse_nil, List.nil_append, hmember]
      exact honly

/-- A relation in the form of an array has two names in it. -/
private theorem rigid_array_of_read {room : Nat} {items : List Json}
    (h : Takes (read room) (.array items)) : (Json.array items).Rigid := by
  obtain ⟨relation, hread⟩ := h
  cases room with
  | zero => cases hread
  | succ r =>
    cases items with
    | nil => cases hread
    | cons j rest =>
      obtain ⟨form, hform, hread⟩ := bind_eq_ok.1 hread
      obtain ⟨js, hjs, hitems⟩ := bind_eq_ok.1 hread
      obtain rfl := Json.Items.eq_of_toList rest (eq_ok_of_ofText hjs)
      obtain ⟨tag, rfl, _⟩ := readChoiceName_eq_ok.1 hform
      cases js with
      | nil => cases hitems
      | cons i others =>
        obtain ⟨key, hkey, hitems⟩ := bind_eq_ok.1 hitems
        obtain rfl := textOf_eq_ok.1 hkey
        cases others with
        | cons => cases hitems
        | nil =>
          apply Json.Rigid.array
          simp only [List.forall_mem_cons]
          exact ⟨.scalar rfl, .scalar rfl, nofun⟩

theorem carries_read {room : Nat} {v v' : Json} (h : Rewrite room .relation v v') :
    Carries (read room) v v' := by
  intro relation hread
  cases h with
  | permuted hperm =>
    obtain ⟨r, tag, form, key, rfl, hdepth, htag, hform, hkey, rfl⟩ := read_object_eq_ok.1 hread
    exact read_object_eq_ok.2 ⟨r, tag, form, key, rfl, fun m hm => hdepth m (hperm.mem_iff.2 hm),
      htag.of_perm hperm, hform, hkey.of_perm hperm, rfl⟩
  | @inserted _ _ before after name j hignores hj =>
    obtain ⟨r, tag, form, key, rfl, hdepth, htag, hform, hkey, rfl⟩ := read_object_eq_ok.1 hread
    have hname : name ≠ form.member :=
      hignores.2 tag form htag.lookup_eq (mem_of_choiceOfName hform)
    refine read_object_eq_ok.2 ⟨r, tag, form, key, rfl, ?_,
      (GivesOnly.append_cons_of_ne hignores.1).2 htag, hform,
      (GivesOnly.append_cons_of_ne hname).2 hkey, rfl⟩
    simp only [List.forall_mem_append, List.forall_mem_cons] at hdepth ⊢
    exact ⟨hdepth.1, fun _ => Nat.le_of_lt_succ (hj rfl), hdepth.2⟩
  | @member _ _ before after name j j' hj =>
    obtain ⟨r, tag, form, key, rfl, hdepth, htag, hform, hkey, rfl⟩ := read_object_eq_ok.1 hread
    -- What the relation looks at are names, and these cannot be rewritten.
    have hne : ∀ {key text}, GivesOnly (before ++ (name, j) :: after) key (.string text) →
        name ≠ key := by
      rintro _ text honly rfl
      obtain rfl := honly.eq_of_append_cons
      cases hj.isScalar_eq_false.1
    refine read_object_eq_ok.2 ⟨r, tag, form, key, rfl, ?_, ?_, hform, ?_, rfl⟩
    · simp only [List.forall_mem_append, List.forall_mem_cons] at hdepth ⊢
      refine ⟨hdepth.1, fun hname => ?_, hdepth.2.2⟩
      rw [Rewrite.depth_eq hj]
      exact hdepth.2.1 hname
    · have hne := hne htag
      exact (GivesOnly.append_cons_of_ne hne).2 ((GivesOnly.append_cons_of_ne hne).1 htag)
    · have hne := hne hkey
      exact (GivesOnly.append_cons_of_ne hne).2 ((GivesOnly.append_cons_of_ne hne).1 hkey)
  | @item _ _ before after j j' hj =>
    rw [Part.element_relation] at hj
    have hrewrite : Rewrite room .other (.array (before ++ j :: after))
        (.array (before ++ j' :: after)) := .item hj
    rw [(rigid_array_of_read ⟨relation, hread⟩).eq_of_rewrite hrewrite]
    exact hread

end Relation

theorem Association.carries_read {room : Nat} {v v' : Json} (h : Rewrite room .association v v') :
    Carries (Association.read room) v v' := by
  refine h.carries_record nofun Association.slots_fields (fun _ => rfl) ?_
  intro r _ p hp j j' _ hj
  simp only [Association.slots, List.mem_cons, List.not_mem_nil, or_false] at hp
  rcases hp with rfl | rfl
  · exact Rewrite.carries_of_rigid hj rigid_of_readString
  · exact Relation.carries_read hj

end DocQuery
