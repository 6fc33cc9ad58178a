-- SUMMARY: Records read from JSON trees: no field twice, the members in any order, and other members without effect.
import DocQuery.Decode.Record
import DocQuery.Proofs.Nesting
import Mathlib.Data.List.Nodup

/-!
# Records of trees

A record is read member by member, as they come. If its fields do not get in each other's way
(`Independent`), that amounts to reading the fields in the order of their declaration from
whatever members there are (`readGiven`), provided that no field is given twice. So neither the
order of the members nor any other member matters, and an array is only another way to give them
that may end before the optional ones (`Json.Fits`).
-/

namespace DocQuery

open Json (Draft Items Members)

/-! ## The members of a record -/

/-- A tree gives the named fields of a record by the listed members. An object gives none of them
    twice and may have other members, an array gives all of them in order. -/
inductive Json.Record (names : List String) : Json → List (String × Json) → Prop where
  | object {members : List (String × Json)} :
    (∀ name ∈ names, members.countP (fun m => m.1 == name) ≤ 1) →
    Record names (.object members) members
  | array {items : List Json} :
    items.length = names.length → Record names (.array items) (names.zip items)

/-- The members by which a tree gives a record, those of an array in the order of their names. -/
def Json.membersOf (names : List String) : Json → List (String × Json)
  | .object members => members
  | .array items => names.zip items
  | _ => []

/-- An object gives no name twice. -/
def Json.GivesOnce (names : List String) : Json → Prop
  | .object members => ∀ name ∈ names, members.countP (fun m => m.1 == name) ≤ 1
  | _ => True

section

variable {names : List String} {v : Json} {members : List (String × Json)}

theorem Json.Record.eq_membersOf (h : Json.Record names v members) :
    members = v.membersOf names := by
  cases h <;> rfl

theorem Json.Record.givesOnce (h : Json.Record names v members) : v.GivesOnce names := by
  cases h with
  | object honce => exact honce
  | array => trivial

end

theorem lookup_cons_of_ne {members : List (String × Json)} {key name : String} {j : Json}
    (h : name ≠ key) : ((key, j) :: members).lookup name = members.lookup name := by
  rw [List.lookup_cons, beq_false_of_ne h]

theorem lookup_eq_none_of_countP {members : List (String × Json)} {name : String}
    (h : members.countP (fun m => m.1 == name) = 0) : members.lookup name = none := by
  rw [List.lookup_eq_none_iff]
  intro m hm
  have hne := List.countP_eq_zero.1 h m hm
  exact bne_iff_ne.2 fun heq => hne (beq_iff_eq.2 heq.symm)

theorem wrongType_ne_ok {α : Type} {expected : String} {d : Draft} {a : α} :
    wrongType expected d ≠ .ok a := by
  intro h
  obtain ⟨found, _, h⟩ := bind_eq_ok.1 h
  cases h

/-! ## Stepping over trees -/

mutual

/-- Every tree can be stepped over. -/
theorem Json.Draft.skip_ofJson : ∀ j : Json, (Draft.ofJson j).skip = .ok ()
  | .null => by rw [Draft.ofJson, Draft.skip]
  | .bool _ => by rw [Draft.ofJson, Draft.skip]
  | .number _ => by
    rw [Draft.ofJson, Draft.skip]
    rfl
  | .string _ => by
    rw [Draft.ofJson, Draft.skip]
    rfl
  | .array items => by rw [Draft.ofJson, Draft.skip, Json.Items.skip_ofList items]
  | .object members => by rw [Draft.ofJson, Draft.skip, Json.Members.skip_ofList members]

theorem Json.Items.skip_ofList : ∀ items : List Json, (Items.ofList items).skip = .ok ()
  | [] => by rw [Items.ofList, Items.skip]
  | j :: rest => by
    rw [Items.ofList, Items.skip, Json.Draft.skip_ofJson j, Json.Items.skip_ofList rest]
    rfl

theorem Json.Members.skip_ofList :
    ∀ members : List (String × Json), (Members.ofList members).skip = .ok ()
  | [] => by rw [Members.ofList, Members.skip]
  | (_, j) :: rest => by
    rw [Members.ofList, Members.skip, Json.Draft.skip_ofJson j, Json.Members.skip_ofList rest]
    rfl

end

variable {σ α β : Type}

/-! ## Fields -/

namespace Field

/-- Reads the field from the members, if they give it. -/
def readFrom (f : Field σ) (members : List (String × Json)) (s : σ) : Except ReadError σ :=
  match members.lookup f.name with
  | none => .ok s
  | some j => f.read (.ofJson j) s

private theorem readFrom_none {f : Field σ} {members : List (String × Json)}
    (h : members.lookup f.name = none) (s : σ) : f.readFrom members s = .ok s := by
  rw [readFrom, h]

theorem readFrom_some {f : Field σ} {members : List (String × Json)} {j : Json}
    (h : members.lookup f.name = some j) (s : σ) :
    f.readFrom members s = f.read (.ofJson j) s := by
  rw [readFrom, h]

theorem readFrom_congr {f : Field σ} {members members' : List (String × Json)}
    (h : members.lookup f.name = members'.lookup f.name) :
    f.readFrom members = f.readFrom members' := by
  funext s
  rw [readFrom, readFrom, h]

end Field

/-- Fields that do not get in each other's way: each has its own name, knows whether it has been
    read itself, and may be read before or after the others. -/
structure Independent (fields : List (Field σ)) : Prop where
  names : (fields.map Field.name).Nodup
  given : ∀ f ∈ fields, ∀ g ∈ fields, ∀ {d : Draft} {s t : σ}, f.read d s = .ok t →
    g.given t = (g.given s || g.name == f.name)
  swap : ∀ f ∈ fields, ∀ g ∈ fields, f.name ≠ g.name → ∀ {d e : Draft} {s u : σ},
    f.read d s >>= g.read e = .ok u → g.read e s >>= f.read d = .ok u

namespace Independent

variable {fields : List (Field σ)} (h : Independent fields)
include h

private theorem name_inj {f g : Field σ} (hf : f ∈ fields) (hg : g ∈ fields)
    (hname : f.name = g.name) :
    f = g :=
  List.inj_on_of_nodup_map h.names hf hg hname

private theorem find?_name {f : Field σ} (hf : f ∈ fields) :
    fields.find? (fun g => g.name == f.name) = some f := by
  cases hfind : fields.find? (fun g => g.name == f.name) with
  | none => exact absurd (beq_self_eq_true f.name) (List.find?_eq_none.1 hfind f hf)
  | some g =>
    have hname : g.name = f.name := by simpa using List.find?_some hfind
    rw [h.name_inj (List.mem_of_find?_eq_some hfind) hf hname]

/-- A field may be read before or after the members give another one. -/
private theorem swap_readFrom {f g : Field σ} (hf : f ∈ fields) (hg : g ∈ fields)
    (hne : f.name ≠ g.name) {members : List (String × Json)} {d : Draft} {s u : σ} :
    g.readFrom members s >>= f.read d = .ok u ↔ f.read d s >>= g.readFrom members = .ok u := by
  cases hlookup : members.lookup g.name with
  | none =>
    have hnone : g.readFrom members = pure := funext fun s => g.readFrom_none hlookup s
    rw [hnone, pure_bind, bind_pure]
  | some j =>
    have hsome : g.readFrom members = g.read (.ofJson j) :=
      funext fun s => g.readFrom_some hlookup s
    rw [hsome]
    exact ⟨h.swap g hg f hf hne.symm, h.swap f hf g hg hne⟩

end Independent

/-! ## Reading in the order of declaration -/

/-- Reads those of the fields that the members give, in the order of the fields. -/
def readGiven (members : List (String × Json)) (fields : List (Field σ)) (s : σ) :
    Except ReadError σ :=
  fields.foldlM (fun s f => f.readFrom members s) s

theorem readGiven_cons (members : List (String × Json)) (f : Field σ) (fields : List (Field σ))
    (s : σ) :
    readGiven members (f :: fields) s = f.readFrom members s >>= readGiven members fields := by
  rw [readGiven, List.foldlM_cons]
  rfl

private theorem readGiven_congr {members members' : List (String × Json)} {fields : List (Field σ)}
    (h : ∀ f ∈ fields, members.lookup f.name = members'.lookup f.name) (s : σ) :
    readGiven members fields s = readGiven members' fields s := by
  induction fields generalizing s with
  | nil => rfl
  | cons f fields ih =>
    obtain ⟨hf, hfields⟩ := List.forall_mem_cons.1 h
    rw [readGiven_cons, readGiven_cons, Field.readFrom_congr hf, funext (ih hfields)]

private theorem readGiven_empty (fields : List (Field σ)) (s : σ) :
    readGiven [] fields s = .ok s := by
  induction fields with
  | nil => rfl
  | cons f fields ih =>
    rw [readGiven_cons, Field.readFrom_none List.lookup_nil]
    exact ih

/-- The first member may be read before all others. -/
private theorem Independent.readGiven_member {fields : List (Field σ)} (h : Independent fields)
    {gs : List (Field σ)} (hgs : gs.Sublist fields) {f : Field σ} (hf : f ∈ gs) {j : Json}
    {rest : List (String × Json)} (hrest : rest.lookup f.name = none) {s u : σ} :
    readGiven ((f.name, j) :: rest) gs s = .ok u ↔
      f.read (.ofJson j) s >>= readGiven rest gs = .ok u := by
  induction gs generalizing s with
  | nil => exact absurd hf List.not_mem_nil
  | cons g gs ih =>
    have hnodup : (g.name :: gs.map Field.name).Nodup := h.names.sublist (hgs.map Field.name)
    have hg : g ∈ fields := hgs.subset List.mem_cons_self
    have htail : gs.Sublist fields := (List.sublist_cons_self g gs).trans hgs
    have hcons : readGiven rest (g :: gs) = fun t => g.readFrom rest t >>= readGiven rest gs :=
      funext fun t => readGiven_cons rest g gs t
    rw [readGiven_cons, hcons]
    by_cases hname : g.name = f.name
    · -- The member is for this field, and not for those that follow.
      obtain rfl : g = f := h.name_inj hg (hgs.subset hf) hname
      have hothers : ∀ f ∈ gs, ((g.name, j) :: rest).lookup f.name = rest.lookup f.name :=
        fun f hf => lookup_cons_of_ne fun heq =>
          (List.nodup_cons.1 hnodup).1 (heq ▸ List.mem_map_of_mem hf)
      have hnone : (fun t => g.readFrom rest t >>= readGiven rest gs) = readGiven rest gs := by
        funext t
        rw [g.readFrom_none hrest]
        rfl
      rw [g.readFrom_some List.lookup_cons_self, funext (readGiven_congr hothers), hnone]
    · have hfgs : f ∈ gs := (List.mem_cons.1 hf).resolve_left fun heq => hname (heq ▸ rfl)
      have hftail : ∀ s, readGiven ((f.name, j) :: rest) gs s = .ok u ↔
          f.read (.ofJson j) s >>= readGiven rest gs = .ok u := fun s => ih htail hfgs
      have hlookup : g.readFrom ((f.name, j) :: rest) = g.readFrom rest :=
        Field.readFrom_congr (lookup_cons_of_ne hname)
      have hswap : ∀ t, g.readFrom rest s >>= f.read (.ofJson j) = .ok t ↔
          f.read (.ofJson j) s >>= g.readFrom rest = .ok t := fun t =>
        h.swap_readFrom (htail.subset hfgs) hg (Ne.symm hname)
      calc g.readFrom ((f.name, j) :: rest) s >>= readGiven ((f.name, j) :: rest) gs = .ok u
        _ ↔ g.readFrom rest s >>= (fun t => f.read (.ofJson j) t >>= readGiven rest gs) = .ok u := by
          rw [hlookup, bind_eq_ok, bind_eq_ok]
          exact exists_congr fun t => and_congr_right fun _ => hftail t
        _ ↔ (g.readFrom rest s >>= f.read (.ofJson j)) >>= readGiven rest gs = .ok u := by
          rw [bind_assoc]
        _ ↔ (f.read (.ofJson j) s >>= g.readFrom rest) >>= readGiven rest gs = .ok u := by
          rw [bind_eq_ok, bind_eq_ok]
          exact exists_congr fun t => and_congr_left fun _ => hswap t
        _ ↔ f.read (.ofJson j) s >>= (fun t => g.readFrom rest t >>= readGiven rest gs) = .ok u := by
          rw [bind_assoc]

/-! ## Reading objects and arrays -/

section Trees

variable {fields : List (Field σ)}

/-- A member that is no field is stepped over. -/
private theorem readMembers_unknown {key : String} (h : ∀ f ∈ fields, f.name ≠ key) (j : Json)
    (rest : List (String × Json)) (s : σ) :
    readMembers fields (Members.ofList ((key, j) :: rest)) s =
      readMembers fields (Members.ofList rest) s := by
  have hfind : fields.find? (fun f => f.name == key) = none :=
    List.find?_eq_none.2 fun f hf hname => h f hf (beq_iff_eq.1 hname)
  rw [Members.ofList, readMembers]
  simp only [ofText, Json.Lexeme.value, bind, Except.bind, hfind, Json.Draft.skip_ofJson]

/-- A member that is a field is read, unless that field has been read before. -/
private theorem Independent.readMembers_known (h : Independent fields) {f : Field σ}
    (hf : f ∈ fields) (j : Json) (rest : List (String × Json)) (s : σ) :
    readMembers fields (Members.ofList ((f.name, j) :: rest)) s =
      if f.given s then refuse (.duplicateField f.name)
      else f.read (.ofJson j) s >>= readMembers fields (Members.ofList rest) := by
  rw [Members.ofList, readMembers]
  simp only [ofText, Json.Lexeme.value, bind, Except.bind, h.find?_name hf]

/-- Members are read as they come exactly if no field is given twice and the fields can be read in
    their own order. A field that has been read already must not be given at all. -/
theorem Independent.readMembers_eq_ok (h : Independent fields) {members : List (String × Json)}
    {s u : σ} :
    readMembers fields (Members.ofList members) s = .ok u ↔
      (∀ f ∈ fields, members.countP (fun m => m.1 == f.name) ≤ if f.given s then 0 else 1) ∧
      readGiven members fields s = .ok u := by
  induction members generalizing s with
  | nil => simp [Members.ofList, readMembers, readGiven_empty]
  | cons m rest ih =>
    obtain ⟨key, j⟩ := m
    by_cases hknown : ∃ f ∈ fields, f.name = key
    · obtain ⟨f, hf, rfl⟩ := hknown
      rw [h.readMembers_known hf]
      cases hgiven : f.given s with
      | true =>
        refine iff_of_false (fun hread => nomatch hread) ?_
        rintro ⟨hcount, _⟩
        have hnone := hcount f hf
        simp [hgiven] at hnone
      | false =>
        have hcounts : ∀ t, f.read (.ofJson j) s = .ok t →
            ((∀ g ∈ fields, rest.countP (fun m => m.1 == g.name) ≤ if g.given t then 0 else 1) ↔
              ∀ g ∈ fields, ((f.name, j) :: rest).countP (fun m => m.1 == g.name) ≤
                if g.given s then 0 else 1) := by
          intro t ht
          refine forall₂_congr fun g hg => ?_
          rw [h.given f hf g hg ht, List.countP_cons]
          by_cases hname : f.name = g.name
          · obtain rfl := h.name_inj hf hg hname
            simp [hgiven]
          · simp [hname, Ne.symm hname]
        constructor
        · intro hread
          obtain ⟨t, ht, hrest⟩ := bind_eq_ok.1 hread
          obtain ⟨hcount, hu⟩ := ih.1 hrest
          refine ⟨(hcounts t ht).1 hcount, ?_⟩
          have hnone : rest.lookup f.name = none := by
            have hzero := hcount f hf
            rw [h.given f hf f hf ht, beq_self_eq_true, Bool.or_true, if_pos rfl] at hzero
            exact lookup_eq_none_of_countP (Nat.le_zero.1 hzero)
          exact (h.readGiven_member (List.Sublist.refl _) hf hnone).2 (bind_eq_ok.2 ⟨t, ht, hu⟩)
        · rintro ⟨hcount, hu⟩
          have hnone : rest.lookup f.name = none := by
            have hone := hcount f hf
            rw [List.countP_cons, hgiven, if_pos (beq_self_eq_true f.name)] at hone
            exact lookup_eq_none_of_countP (Nat.le_zero.1 (Nat.le_of_succ_le_succ hone))
          obtain ⟨t, ht, hu⟩ :=
            bind_eq_ok.1 ((h.readGiven_member (List.Sublist.refl _) hf hnone).1 hu)
          exact bind_eq_ok.2 ⟨t, ht, ih.2 ⟨(hcounts t ht).2 hcount, hu⟩⟩
    · have hunknown : ∀ f ∈ fields, f.name ≠ key := fun f hf hname => hknown ⟨f, hf, hname⟩
      rw [readMembers_unknown hunknown, ih,
        readGiven_congr fun f hf => lookup_cons_of_ne (hunknown f hf)]
      refine and_congr_left fun _ => forall₂_congr fun f hf => ?_
      rw [List.countP_cons, if_neg fun hname => hunknown f hf (beq_iff_eq.1 hname).symm]
      rfl

/-- A tree gives the fields of a record. An object gives none of them twice, an array gives them in
    order and may leave out optional ones at its end. -/
inductive Json.Fits (fields : List (Field σ)) : Json → Prop where
  | object {members : List (String × Json)} :
    (Json.object members).GivesOnce (fields.map Field.name) → Fits fields (.object members)
  | array {items : List Json} :
    items.length ≤ fields.length → (∀ f ∈ fields.drop items.length, f.optional = true) →
    Fits fields (.array items)

theorem Json.Fits.givesOnce {v : Json} (h : v.Fits fields) :
    v.GivesOnce (fields.map Field.name) := by
  cases h with
  | object honce => exact honce
  | array => trivial

/-- An array is read exactly if it gives every field that is not optional, and no more items than
    there are fields. -/
theorem readFields_eq_ok (hnames : (fields.map Field.name).Nodup) {expected : String} {length : Nat}
    {items : List Json} {s u : σ} :
    readFields expected length fields (Items.ofList items) s = .ok u ↔
      (Json.array items).Fits fields ∧
      readGiven ((fields.map Field.name).zip items) fields s = .ok u := by
  have hfits : (Json.array items).Fits fields ↔
      items.length ≤ fields.length ∧ ∀ f ∈ fields.drop items.length, f.optional = true :=
    ⟨fun | .array hlength hoptional => ⟨hlength, hoptional⟩, fun h => .array h.1 h.2⟩
  rw [hfits]
  clear hfits
  induction fields generalizing items length s with
  | nil =>
    cases items with
    | nil => simp [Items.ofList, readFields, readGiven, expectClose, bind, Except.bind]
    | cons j rest => exact iff_of_false (fun hread => nomatch hread) (by simp)
  | cons f fields ih =>
    obtain ⟨hname, hnames⟩ := List.nodup_cons.1 hnames
    cases items with
    | nil =>
      have hrest := @ih hnames (length + 1) [] s
      rw [Items.ofList] at hrest ⊢
      rw [readFields]
      cases hf : f.optional with
      | false => simp [hf, refuse]
      | true => simpa [hf, readGiven_empty] using hrest
    | cons j rest =>
      have hothers : ∀ g ∈ fields,
          ((f.name, j) :: (fields.map Field.name).zip rest).lookup g.name =
            ((fields.map Field.name).zip rest).lookup g.name :=
        fun g hg => lookup_cons_of_ne fun heq => hname (heq ▸ List.mem_map_of_mem hg)
      rw [Items.ofList, readFields, List.map_cons, List.zip_cons_cons, readGiven_cons,
        f.readFrom_some List.lookup_cons_self, funext (readGiven_congr hothers), bind_eq_ok,
        bind_eq_ok, List.length_cons, List.length_cons, List.drop_succ_cons,
        Nat.add_le_add_iff_right, ← exists_and_left]
      exact exists_congr fun t => (and_congr_right fun _ => ih hnames).trans and_left_comm

/-- A record is read exactly from the trees that fit it. -/
theorem Independent.readRecord_iff (h : Independent fields) {empty : σ}
    (hempty : ∀ f ∈ fields, f.given empty = false) {type : String} {v : Json} {u : σ} :
    readRecord type (some fields) empty (.ofJson v) = .ok u ↔
      v.Fits fields ∧ readGiven (v.membersOf (fields.map Field.name)) fields empty = .ok u := by
  cases v with
  | object members =>
    have hcount : (∀ f ∈ fields, members.countP (fun m => m.1 == f.name) ≤
          if f.given empty then 0 else 1) ↔ (Json.object members).Fits fields := by
      have honce : (Json.object members).GivesOnce (fields.map Field.name) ↔
          (Json.object members).Fits fields := ⟨.object, Json.Fits.givesOnce⟩
      rw [← honce, Json.GivesOnce, List.forall_mem_map]
      refine forall₂_congr fun f hf => ?_
      rw [hempty f hf]
      rfl
    rw [Draft.ofJson, readRecord, h.readMembers_eq_ok, hcount]
    rfl
  | array items => exact readFields_eq_ok h.names
  | null | bool | number | string =>
    refine iff_of_false wrongType_ne_ok ?_
    rintro ⟨⟨⟩, _⟩

theorem Json.Fits.record {v : Json} (h : v.Fits fields)
    (hfields : ∀ f ∈ fields, f.optional = false) :
    Json.Record (fields.map Field.name) v (v.membersOf (fields.map Field.name)) := by
  cases h with
  | object honce => exact .object honce
  | @array items hlength hoptional =>
    have hdrop : fields.drop items.length = [] := by
      refine List.eq_nil_iff_forall_not_mem.2 fun f hf => ?_
      have hnot := hfields f (List.mem_of_mem_drop hf)
      rw [hoptional f hf] at hnot
      cases hnot
    refine .array ?_
    rw [List.length_map]
    exact Nat.le_antisymm hlength (List.drop_eq_nil_iff.1 hdrop)

theorem Json.Record.fits {v : Json} {members : List (String × Json)}
    (h : Json.Record (fields.map Field.name) v members) : v.Fits fields := by
  cases h with
  | object honce => exact .object honce
  | array hlength =>
    rw [List.length_map] at hlength
    refine .array (Nat.le_of_eq hlength) ?_
    rw [hlength, List.drop_length]
    simp

theorem readRecord_none_ne_ok {type : String} {empty u : σ} {d : Draft} :
    readRecord type none empty d ≠ .ok u := by
  intro h
  unfold readRecord at h
  split at h
  next => cases h
  next => cases h
  next => exact wrongType_ne_ok h

end Trees

/-- Whoever has room for a tree can open it, and has room for whatever it gives for a field. -/
theorem Json.Record.exists_room {names : List String} {v : Json} {members : List (String × Json)}
    (h : Json.Record names v members) {room : Nat} (hroom : v.depth ≤ room) :
    ∃ r, room = r + 1 ∧ ∀ {name j}, members.lookup name = some j → j.depth ≤ r := by
  have hmem : ∀ {name j}, members.lookup name = some j → (name, j) ∈ members := by
    intro name j hj
    obtain ⟨before, after, rfl, _⟩ := List.lookup_eq_some_iff.1 hj
    exact List.mem_append_right before List.mem_cons_self
  cases room with
  | zero => cases h <;> exact absurd hroom (Nat.not_succ_le_zero _)
  | succ r =>
    refine ⟨r, rfl, fun hj => ?_⟩
    cases h with
    | object _ => exact Json.depthMembers_le.1 (Nat.le_of_succ_le_succ hroom) _ (hmem hj)
    | array _ =>
      exact Json.depthItems_le.1 (Nat.le_of_succ_le_succ hroom) _ (List.of_mem_zip (hmem hj)).2

/-! ## Single members -/

/-- The value that the members give under a name. -/
def readMember (read : Draft → Except ReadError α) (members : List (String × Json))
    (name : String) : Except ReadError (Option α) :=
  match members.lookup name with
  | none => .ok none
  | some j => (read (.ofJson j)).map some

theorem readMember_absent {read : Draft → Except ReadError α} {members : List (String × Json)}
    {name : String} (h : members.lookup name = none) :
    readMember read members name = .ok none := by
  rw [readMember, h]

theorem readMember_present {read : Draft → Except ReadError α} {members : List (String × Json)}
    {name : String} {j : Json} (h : members.lookup name = some j) :
    readMember read members name = (read (.ofJson j)).map some := by
  rw [readMember, h]

/-- Reading a member gives a value exactly if the member is there and has that value. -/
theorem readMember_eq_ok {read : Draft → Except ReadError α} {members : List (String × Json)}
    {name : String} {a : Option α} :
    readMember read members name = .ok a ↔
      Option.Rel (fun j a => read (.ofJson j) = .ok a) (members.lookup name) a := by
  cases hlookup : members.lookup name with
  | none =>
    rw [readMember_absent hlookup]
    constructor
    · rintro ⟨rfl⟩
      exact .none
    · rintro ⟨⟩
      rfl
  | some j =>
    rw [readMember_present hlookup]
    constructor
    · intro h
      obtain ⟨a, ha, rfl⟩ := exists_of_map_eq_ok h
      exact .some ha
    · rintro ⟨h⟩
      rw [h]
      rfl

/-- The fields of a record are read one after the other. `put` is the record under construction
    as far as it depends on the first field. -/
theorem readGiven_cons_eq_ok {f : Field σ} {fields : List (Field σ)}
    {read : Draft → Except ReadError α} (put : Option α → σ)
    (hread : ∀ d, f.read d (put none) = do return put (some (← read d)))
    {members : List (String × Json)} {u : σ} :
    readGiven members (f :: fields) (put none) = .ok u ↔
      ∃ a, readMember read members f.name = .ok a ∧ readGiven members fields (put a) = .ok u := by
  rw [readGiven_cons]
  cases hlookup : members.lookup f.name with
  | none =>
    rw [f.readFrom_none hlookup, readMember_absent hlookup]
    simp [bind, Except.bind]
  | some j =>
    rw [f.readFrom_some hlookup, hread, readMember_present hlookup]
    cases read (.ofJson j) with
    | error e => simp [bind, Except.bind, Except.map]
    | ok a => simp [bind, Except.bind, Except.map, pure, Except.pure]

end DocQuery
