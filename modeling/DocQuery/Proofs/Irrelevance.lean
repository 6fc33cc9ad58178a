-- SUMMARY: The query that a document is read as depends neither on the order of members nor on members that nobody reads.
import DocQuery.Proofs.Following
import Mathlib.Logic.Relation

/-!
# What does not matter in a document

Rewrites of a document do not change the query that it is read as, however many there are
(`Query.read_eq_of_rewrites`).

There is one thing to watch. A passthrough expression that repeats a key means its last member, so
there the order matters. The document starts without repeated keys, but a rewrite may bring some in,
as part of a member that nobody uses. Hence the statement about clauses has two halves: a rewritten
clause can always be read, and it is the same clause if the expressions that are passed through
repeat no key (`Clause.Clear`), which then still holds.
-/

namespace DocQuery

open Json (Draft Items Members)

/-! ## Clauses -/

private theorem Expression.read_eq_ok {room : Nat} {j : Json} {e : Expression} :
    Expression.read room (.ofJson j) = .ok e ↔ j.depth ≤ room ∧ Expression.ofJson j = e := by
  constructor
  · intro h
    obtain ⟨j', hj', rfl⟩ := exists_of_map_eq_ok (eq_ok_of_ofText h)
    obtain ⟨hdepth, rfl⟩ := Json.Draft.toJson_eq_ok.1 hj'
    exact ⟨hdepth, rfl⟩
  · rintro ⟨hdepth, rfl⟩
    rw [Expression.read, Json.Draft.toJson_ofJson j hdepth]
    rfl

/-- An expression can always be read in another order, and means the same if it repeats no key. -/
theorem Expression.follows_read {room r : Nat} {j j' : Json} (h : Rewrite r .other j j') :
    Follows Json.KeysDistinct (Expression.read room) j j' := by
  intro e he
  obtain ⟨hdepth, rfl⟩ := Expression.read_eq_ok.1 he
  refine ⟨_, Expression.read_eq_ok.2 ⟨h.depth_eq ▸ hdepth, rfl⟩, fun hkeys => ?_⟩
  obtain ⟨hkeys', hsort⟩ := h.sort_eq hkeys
  exact ⟨by simp only [Expression.ofJson, hsort], hkeys'⟩

private theorem Json.Record.of_sameForm {names : List String} {v v' : Json}
    {members : List (String × Json)} (h : Json.Record names v members)
    (hform : Json.SameForm names v v') : Json.Record names v' (v'.membersOf names) := by
  cases hform with
  | object honce => exact .object honce
  | array hlength =>
    cases h with
    | array hnames => exact .array (hlength.trans hnames)

namespace Clause

/-- The kind of a clause with these members uses the member of that name. -/
def Uses (members : List (String × Json)) (name : String) : Prop :=
  ∃ kind required, members.lookup "type" = some (.string kind) ∧
    requiredMembers kind = some required ∧ name ∈ required

private theorem Unused.not_uses {members : List (String × Json)} {name : String}
    (h : Unused members name) :
    ¬ Uses members name := by
  obtain ⟨_, _, kind, required, hkind, hrequired, hname⟩ := h
  rintro ⟨kind', required', hkind', hrequired', hname'⟩
  cases hkind.symm.trans hkind'
  cases hrequired.symm.trans hrequired'
  exact hname hname'

/-- A clause passes an expression through, itself or by one of the conditions that it uses. -/
inductive Passes : Json → Json → Prop where
  | expr {v e : Json} :
    Uses (v.membersOf memberNames) "expr" → (v.membersOf memberNames).lookup "expr" = some e →
    Passes v e
  | condition {v j e : Json} {items : List Json} :
    Uses (v.membersOf memberNames) "conditions" →
    (v.membersOf memberNames).lookup "conditions" = some (.array items) → j ∈ items →
    Passes j e → Passes v e

/-- The expressions that a clause passes through repeat no key. -/
def Clear (v : Json) : Prop :=
  ∀ e, Passes v e → e.KeysDistinct

/-- The members of a clause that is clear. -/
structure ClearMembers (members : List (String × Json)) : Prop where
  expr : Uses members "expr" → ∀ e, members.lookup "expr" = some e → e.KeysDistinct
  conditions : Uses members "conditions" →
    ∀ x, members.lookup "conditions" = some x → ClearItems Clear x

private theorem clear_iff {v : Json} : Clear v ↔ ClearMembers (v.membersOf memberNames) := by
  constructor
  · intro h
    refine ⟨fun huses e he => h e (.expr huses he), ?_⟩
    rintro huses _ hx items rfl j hj e he
    exact h e (.condition huses hx hj he)
  · rintro h e he
    cases he with
    | expr huses he => exact h.expr huses e he
    | condition huses hx hj he => exact h.conditions huses _ hx _ rfl _ hj e he

/-- The reader of an optional member follows rewrites and takes whatever has the right type. -/
structure ReadsMember {α : Type} (Clear : Json → Prop) (r : Nat) (name : String)
    (read : Draft → Except ReadError α) : Prop where
  follows : ∀ {j j'}, Rewrite r (Part.clause.child name) j j' → Follows Clear read j j'
  takes : ∀ {j}, MemberType j name → j.depth ≤ r → Takes read j

private theorem readsMember_name (r : Nat) {name : String}
    (hname : name = "left" ∨ name = "table") :
    ReadsMember (fun _ => True) r name readString := by
  rcases hname with rfl | rfl <;>
    exact {
      follows := fun hj => (Rewrite.carries_of_rigid hj rigid_of_readString).follows
      takes := fun htype _ => takes_readString.2 htype }

private theorem readsMember_comparison (r : Nat) :
    ReadsMember (fun _ => True) r "comparison" (Comparison.read r) where
  follows hj := (Comparison.carries_read hj).follows
  takes htype hdepth := Comparison.Document.takes htype hdepth

private theorem readsMember_conditions {r : Nat} (hitem : ∀ r' j j', r = r' + 1 →
    Rewrite r' .clause j j' → Follows Clear (read r') j j') :
    ReadsMember (ClearItems Clear) r "conditions" (readList (inside r read)) where
  follows hj := hj.follows_readList hitem
  takes := by
    rintro _ ⟨items, rfl, hitems⟩ hdepth
    obtain ⟨r', rfl⟩ : ∃ r', r = r' + 1 := Nat.exists_eq_add_one.2 (Nat.zero_lt_of_lt hdepth)
    apply takes_readList.2
    refine ⟨r', items, rfl, rfl, fun i hi => ?_⟩
    exact (hitems i hi).takes (Json.depthItems_le.1 (Nat.le_of_succ_le_succ hdepth) i hi)

private theorem readsMember_expr (r : Nat) :
    ReadsMember Json.KeysDistinct r "expr" (Expression.read r) where
  follows hj := Expression.follows_read hj
  takes _ hdepth := takes_expression hdepth

/-- An optional member follows a rewrite of its clause as far as the kind uses it. -/
private theorem ReadsMember.follows_changed {α : Type} {read : Draft → Except ReadError α}
    {Clear : Json → Prop} {r : Nat} {name : String} (hreads : ReadsMember Clear r name read)
    {members members' : List (String × Json)}
    (hchanged : Part.clause.Changed (r + 1) members name (members.lookup name)
      (members'.lookup name))
    {a : Option (Option α)} (ha : readMember (readOption read) members name = .ok a) :
    ∃ a', readMember (readOption read) members' name = .ok a' ∧
      (Uses members name → (∀ j, members.lookup name = some j → Clear j) →
        a' = a ∧ ∀ j', members'.lookup name = some j' → Clear j') := by
  generalize hx : members.lookup name = x at hchanged
  generalize hx' : members'.lookup name = x' at hchanged
  cases hchanged with
  | same =>
    refine ⟨a, ?_, fun _ hclear => ⟨rfl, hclear⟩⟩
    simp only [readMember, hx'.trans hx.symm] at ha ⊢
    exact ha
  | @rewritten j j' hj =>
    obtain ⟨hnull, hnull'⟩ := hj.ne_null
    rw [readMember_present hx, readOption_of_ne_null hnull] at ha
    obtain ⟨_, hsome, rfl⟩ := exists_of_map_eq_ok ha
    obtain ⟨c, hc, rfl⟩ := exists_of_map_eq_ok hsome
    obtain ⟨c', hc', hsame⟩ := hreads.follows hj c hc
    refine ⟨some (some c'), ?_, fun _ hclear => ?_⟩
    · rw [readMember_present hx', readOption_of_ne_null hnull', hc']
      rfl
    · obtain ⟨rfl, hclear'⟩ := hsame (hclear j rfl)
      refine ⟨rfl, ?_⟩
      rintro _ ⟨rfl⟩
      exact hclear'
  | unused _ hunused hvalue =>
    obtain ⟨a', ha'⟩ : ∃ a', readMember (readOption read) members' name = .ok a' := by
      apply exists_readMember_option.2
      intro j hj
      obtain ⟨htype, hdepth⟩ := hvalue j (hx'.symm.trans hj)
      exact htype.imp_right fun htype => hreads.takes htype (Nat.le_of_lt_succ hdepth)
    exact ⟨a', ha', fun huses => absurd huses hunused.not_uses⟩

private theorem given_of_ne_null {members : List (String × Json)} {name : String} {j : Json}
    (h : members.lookup name = some j) (hnull : j ≠ .null) : Json.given members name = true := by
  unfold Json.given
  rw [h]
  cases j with
  | null => exact absurd rfl hnull
  | bool | number | string | array | object => rfl

/-- The members that the kind uses are given after a rewrite if they were given before. -/
private theorem given_of_changed {room : Nat} {name : String}
    {members members' : List (String × Json)}
    (hchanged : Part.clause.Changed room members name (members.lookup name) (members'.lookup name))
    (huses : Uses members name) :
    Json.given members' name = Json.given members name := by
  generalize hx : members.lookup name = x at hchanged
  generalize hx' : members'.lookup name = x' at hchanged
  cases hchanged with
  | same => simp only [Json.given, hx'.trans hx.symm]
  | rewritten hj =>
    rw [given_of_ne_null hx hj.ne_null.1, given_of_ne_null hx' hj.ne_null.2]
  | unused _ hunused _ => exact absurd huses hunused.not_uses

/-- The kind of a clause stays what it is. -/
private theorem lookup_type_of_changed {room : Nat} {kind : String}
    {members members' : List (String × Json)}
    (hchanged : Part.clause.Changed room members "type" (members.lookup "type")
      (members'.lookup "type")) (hkind : members.lookup "type" = some (.string kind)) :
    members'.lookup "type" = some (.string kind) := by
  rw [hkind] at hchanged
  generalize hx' : members'.lookup "type" = x' at hchanged ⊢
  cases hchanged with
  | same => rfl
  | rewritten hj => cases hj.isScalar_eq_false.1
  | unused _ hunused _ => exact absurd rfl hunused.2.1

/-- Two clauses have the same members as far as the kind uses them. -/
structure Parts.AgreeOn (members : List (String × Json)) (p p' : Parts) : Prop where
  left : Uses members "left" → p'.left = p.left
  comparison : Uses members "comparison" → p'.comparison = p.comparison
  table : Uses members "table" → p'.table = p.table
  conditions : Uses members "conditions" → p'.conditions = p.conditions
  expr : Uses members "expr" → p'.expr = p.expr

private theorem Parts.ReadFrom.lookup_type {r : Nat}
    {readConditions : Draft → Except ReadError (List Clause)} {members : List (String × Json)}
    {p : Parts} {kind : String} (hp : p.ReadFrom r readConditions members)
    (hkind : p.kind = some kind) : members.lookup "type" = some (.string kind) := by
  have htext := hp.kind
  rw [hkind] at htext
  obtain ⟨j, hj, htext⟩ := exists_of_readMember htext
  rw [hj, readString_eq_ok.1 htext]

/-- The parts of a clause can be read again after a rewrite, and agree if the clause is clear. -/
theorem Parts.ReadFrom.follows {r : Nat} {members members' : List (String × Json)} {p : Parts}
    {kind : String} (hp : p.ReadFrom r (readList (inside r read)) members)
    (hkind : p.kind = some kind)
    (hchanged : ∀ name ∈ memberNames, Part.clause.Changed (r + 1) members name
      (members.lookup name) (members'.lookup name))
    (hitem : ∀ r' j j', r = r' + 1 → Rewrite r' .clause j j' → Follows Clear (read r') j j') :
    ∃ p' : Parts, p'.ReadFrom r (readList (inside r read)) members' ∧ p'.kind = some kind ∧
      (ClearMembers members → p.AgreeOn members p' ∧ ClearMembers members') := by
  have htype := hp.lookup_type hkind
  have htype' := lookup_type_of_changed (hchanged "type" (by decide)) htype
  have huses : ∀ {name}, Uses members' name → Uses members name := by
    rintro name ⟨kind', required, hkind', hrest⟩
    exact ⟨kind', required, htype.trans (htype'.symm.trans hkind'), hrest⟩
  obtain ⟨left, hleft, hsameLeft⟩ :=
    (readsMember_name r (.inl rfl)).follows_changed (hchanged "left" (by decide)) hp.left
  obtain ⟨comparison, hcomparison, hsameComparison⟩ :=
    (readsMember_comparison r).follows_changed (hchanged "comparison" (by decide)) hp.comparison
  obtain ⟨table, htable, hsameTable⟩ :=
    (readsMember_name r (.inr rfl)).follows_changed (hchanged "table" (by decide)) hp.table
  obtain ⟨conditions, hconditions, hsameConditions⟩ :=
    (readsMember_conditions hitem).follows_changed (hchanged "conditions" (by decide)) hp.conditions
  obtain ⟨expr, hexpr, hsameExpr⟩ :=
    (readsMember_expr r).follows_changed (hchanged "expr" (by decide)) hp.expr
  refine ⟨⟨some kind, left, comparison, table, conditions, expr⟩,
    ⟨?_, hleft, hcomparison, htable, hconditions, hexpr⟩, rfl, fun hclear => ⟨?_, ?_⟩⟩
  · rw [readMember_present htype']
    rfl
  · exact {
      left := fun h => (hsameLeft h fun _ _ => trivial).1
      comparison := fun h => (hsameComparison h fun _ _ => trivial).1
      table := fun h => (hsameTable h fun _ _ => trivial).1
      conditions := fun h => (hsameConditions h (hclear.conditions h)).1
      expr := fun h => (hsameExpr h (hclear.expr h)).1 }
  · exact {
      expr := fun h => (hsameExpr (huses h) (hclear.expr (huses h))).2
      conditions := fun h => (hsameConditions (huses h) (hclear.conditions (huses h))).2 }

/-- What a loose clause means depends on its kind and on the members that the kind uses. -/
theorem ofLoose_congr {l l' : Loose} {required : List String} (hkind : l'.kind = l.kind)
    (hrequired : requiredMembers l.kind = some required)
    (hleft : "left" ∈ required → l'.left = l.left)
    (hcomparison : "comparison" ∈ required → l'.comparison = l.comparison)
    (htable : "table" ∈ required → l'.table = l.table)
    (hconditions : "conditions" ∈ required → l'.conditions = l.conditions)
    (hexpr : "expr" ∈ required → l'.expr = l.expr) : ofLoose l' = ofLoose l := by
  unfold ofLoose
  rw [hkind]
  split
  next hkind =>
    rw [hkind] at hrequired
    cases hrequired
    rw [hleft (by decide), hcomparison (by decide)]
  next hkind =>
    rw [hkind] at hrequired
    cases hrequired
    rw [hconditions (by decide)]
  next hkind =>
    rw [hkind] at hrequired
    cases hrequired
    rw [hconditions (by decide)]
  next hkind =>
    rw [hkind] at hrequired
    cases hrequired
    rw [htable (by decide), hconditions (by decide)]
  next hkind =>
    rw [hkind] at hrequired
    cases hrequired
    rw [hexpr (by decide)]
  next => rfl

private theorem Parts.AgreeOn.ofLoose_eq {members : List (String × Json)} {p p' : Parts}
    {l l' : Loose} {required : List String} (h : p.AgreeOn members p') (hl : p.finish = .ok l)
    (hl' : p'.finish = .ok l') (hkind : l'.kind = l.kind)
    (hrequired : requiredMembers l.kind = some required)
    (huses : ∀ name ∈ required, Uses members name) : ofLoose l' = ofLoose l := by
  obtain ⟨kind, _, hl⟩ := bind_eq_ok.1 hl
  obtain ⟨kind', _, hl'⟩ := bind_eq_ok.1 hl'
  cases hl
  cases hl'
  apply ofLoose_congr hkind hrequired
  · exact fun hname => congrArg Option.join (h.left (huses _ hname))
  · exact fun hname => congrArg Option.join (h.comparison (huses _ hname))
  · exact fun hname => congrArg Option.join (h.table (huses _ hname))
  · exact fun hname => congrArg Option.join (h.conditions (huses _ hname))
  · exact fun hname => congrArg Option.join (h.expr (huses _ hname))

private theorem mem_memberNames {kind name : String} {required : List String}
    (h : requiredMembers kind = some required) (hname : name ∈ required) : name ∈ memberNames := by
  unfold requiredMembers at h
  split at h <;> cases h <;> revert name <;> decide

private theorem required_of_ofLoose {l : Loose} {given : String → Bool} (h : l.Gives given)
    {c : Clause} (hc : ofLoose l = .ok c) :
    ∃ required, requiredMembers l.kind = some required ∧ ∀ name ∈ required, given name = true := by
  obtain ⟨_, herror⟩ | ⟨required, hrequired, ⟨_, _, herror⟩ | ⟨hgiven, _⟩⟩ := ofLoose_outcome h
  · cases hc.symm.trans herror
  · cases hc.symm.trans herror
  · exact ⟨required, hrequired, hgiven⟩

private theorem exists_ofLoose {l : Loose} {given : String → Bool} (h : l.Gives given)
    {required : List String} (hrequired : requiredMembers l.kind = some required)
    (hgiven : ∀ name ∈ required, given name = true) : ∃ c, ofLoose l = .ok c := by
  obtain ⟨hnone, _⟩ | ⟨_, hrequired', ⟨name, hfind, _⟩ | ⟨_, hc⟩⟩ := ofLoose_outcome h
  · cases hrequired.symm.trans hnone
  · cases hrequired.symm.trans hrequired'
    have hmissing := List.find?_some hfind
    rw [hgiven name (List.mem_of_find?_eq_some hfind)] at hmissing
    cases hmissing
  · exact hc

/-- A rewritten clause can be read, and is the same clause if it is clear. -/
theorem follows_read {room : Nat} {v v' : Json} (h : Rewrite room .clause v v') :
    Follows Clear (read room) v v' := by
  -- Conditions have two containers less to open than the clause, so the room is what decreases.
  induction room using Nat.strongRecOn generalizing v v' with
  | ind room ih =>
    intro c hread
    rw [read_eq_readLoose] at hread
    obtain ⟨l, hl, hc⟩ := bind_eq_ok.1 hread
    obtain ⟨r, members, p, rfl, hrecord, hp, hfinish⟩ := readLoose_eq_ok.1 hl
    obtain rfl := hrecord.eq_membersOf
    have hkind := Parts.kind_of_finish hfinish
    have hchanged : ∀ name ∈ memberNames, _ := fun name hname =>
      h.changed hrecord.givesOnce hname
    obtain ⟨p', hp', hkind', hsame⟩ := hp.follows hkind hchanged fun r' j j' hr hj =>
      ih r' (by omega) hj
    obtain ⟨l', hfinish', hkinds⟩ : ∃ l', p'.finish = .ok l' ∧ l'.kind = l.kind := by
      rw [Parts.finish, hkind']
      exact ⟨_, rfl, rfl⟩
    have hl' : readLoose (r + 1) (.ofJson v') = .ok l' := readLoose_eq_ok.2
      ⟨r, _, p', rfl, hrecord.of_sameForm (h.sameForm hrecord.givesOnce), hp', hfinish'⟩
    -- The kind finds what it uses among the new members as well.
    obtain ⟨required, hrequired, hgiven⟩ :=
      required_of_ofLoose (hp.gives hfinish) (ofLoose_of_check hc)
    have huses : ∀ name ∈ required, Uses (v.membersOf memberNames) name := fun name hname =>
      ⟨l.kind, required, hp.lookup_type hkind, hrequired, hname⟩
    obtain ⟨c', hc'⟩ := exists_ofLoose (hp'.gives hfinish') (hkinds ▸ hrequired) fun name hname =>
      (given_of_changed (hchanged name (mem_memberNames hrequired hname)) (huses name hname)).trans
        (hgiven name hname)
    refine ⟨c', ?_, fun hclear => ?_⟩
    · rw [read_of_readLoose hl', Loose.check, hc']
    · obtain ⟨hagree, hclear'⟩ := hsame (clear_iff.1 hclear)
      have hofLoose := hagree.ofLoose_eq hfinish hfinish' hkinds hrequired huses
      rw [hc', ofLoose_of_check hc] at hofLoose
      exact ⟨Except.ok.inj hofLoose, clear_iff.2 hclear'⟩

end Clause

/-! ## Descriptions and queries -/

/-- The clauses of a description are clear. -/
def Description.Clear (v : Json) : Prop :=
  ∀ x, (v.membersOf Part.description.names).lookup "where" = some x → ClearItems Clause.Clear x

theorem Description.carries_read {room : Nat} {v v' : Json} (h : Rewrite room .description v v')
    (hclear : Description.Clear v) : Carries (Description.read room) v v' := by
  refine h.carries_record nofun Description.slots_fields (fun _ => rfl) ?_
  intro r _ p hp j j' hlookup hj
  simp only [Description.slots, List.mem_cons, List.not_mem_nil, or_false] at hp
  rcases hp with rfl | rfl | rfl | rfl | rfl
  · have hfollows := Rewrite.follows_readList hj fun _ _ _ _ => Clause.follows_read
    exact hfollows.carries (hclear j hlookup)
  · exact Rewrite.carries_of_rigid hj (rigid_of_readList fun _ _ => rigid_of_readString)
  · exact Rewrite.carries_readList hj fun _ _ _ => SortKey.carries_read
  · exact Rewrite.carries_of_rigid hj (rigid_of_readOption rigid_of_readCount)
  · exact Rewrite.carries_of_rigid hj (rigid_of_readOption rigid_of_readCount)

theorem Description.clear_of_rewrite {room : Nat} {v v' : Json} (h : Rewrite room .description v v')
    (htakes : Takes (Description.read room) v) (hclear : Description.Clear v) :
    Description.Clear v' := by
  intro x' hx'
  obtain ⟨d, hread⟩ := htakes
  obtain ⟨p, hp, _⟩ := bind_eq_ok.1 hread
  obtain ⟨r, rfl, honce, htakes⟩ :=
    takes_of_readRecord .description Description.slots_fields (fun _ => rfl) hp
  obtain ⟨x, hx, rfl | hrewrite⟩ := h.exists_lookup nofun honce (by decide) hx'
  · exact hclear x' hx
  · obtain ⟨cs, hcs⟩ := htakes _ List.mem_cons_self x hx
    obtain ⟨_, _, hsame⟩ :=
      Rewrite.follows_readList hrewrite (fun _ _ _ _ => Clause.follows_read) cs hcs
    exact (hsame (hclear x hx)).2

namespace Query

/-- The clauses of a query are clear. -/
def Clear (v : Json) : Prop :=
  ∀ x, (v.membersOf Part.query.names).lookup "description" = some x → Description.Clear x

theorem carries_read {room : Nat} {v v' : Json} (h : Rewrite room .query v v')
    (hclear : Clear v) : Carries (read room) v v' := by
  refine h.carries_record nofun slots_fields (fun _ => rfl) ?_
  intro r _ p hp j j' hlookup hj
  simp only [slots, List.mem_cons, List.not_mem_nil, or_false] at hp
  rcases hp with rfl | rfl | rfl
  · exact Rewrite.carries_of_rigid hj rigid_of_readString
  · exact Description.carries_read hj (hclear j hlookup)
  · exact Rewrite.carries_readList hj fun _ _ _ => Association.carries_read

theorem clear_of_rewrite {room : Nat} {v v' : Json} (h : Rewrite room .query v v')
    (htakes : Takes (read room) v) (hclear : Clear v) : Clear v' := by
  intro x' hx'
  obtain ⟨q, hread⟩ := htakes
  obtain ⟨p, hp, _⟩ := bind_eq_ok.1 hread
  obtain ⟨r, rfl, honce, htakes⟩ :=
    takes_of_readRecord .query slots_fields (fun _ => rfl) hp
  obtain ⟨x, hx, rfl | hrewrite⟩ := h.exists_lookup nofun honce (by decide) hx'
  · exact hclear x' hx
  · have hdescription := htakes _ (List.mem_cons_of_mem _ List.mem_cons_self) x hx
    exact Description.clear_of_rewrite hrewrite hdescription (hclear x hx)

end Query

/-! ## Documents without repeated keys -/

private theorem Json.KeysDistinct.of_lookup {v j : Json} {names : List String} {name : String}
    (h : v.KeysDistinct) (hj : (v.membersOf names).lookup name = some j) : j.KeysDistinct := by
  obtain ⟨before, after, hmembers, _⟩ := List.lookup_eq_some_iff.1 hj
  have hmem : (name, j) ∈ v.membersOf names :=
    hmembers ▸ List.mem_append_right before List.mem_cons_self
  cases v with
  | object members => exact Json.keysDistinctMembers_iff.1 h.2 _ hmem
  | array items => exact Json.keysDistinctItems_iff.1 h j (List.of_mem_zip hmem).2
  | null | bool | number | string => exact absurd hmem List.not_mem_nil

private theorem Clause.clear_of_keysDistinct {v : Json} (h : v.KeysDistinct) : Clause.Clear v := by
  intro e he
  induction he with
  | expr _ he => exact h.of_lookup he
  | condition _ hitems hj _ ih => exact ih (Json.keysDistinctItems_iff.1 (h.of_lookup hitems) _ hj)

private theorem Query.clear_of_keysDistinct {v : Json} (h : v.KeysDistinct) : Query.Clear v := by
  rintro x hx _ hy items rfl j hj
  apply Clause.clear_of_keysDistinct
  exact Json.keysDistinctItems_iff.1 ((h.of_lookup hx).of_lookup hy) j hj

/-- The query that a document without repeated keys is read as stays the same under any rewrites:
    the members of any object in another order, members that nobody reads, and members of clauses
    that their kind does not use. So does the query of every text that holds the new document.

    The documents are trees. A number beyond the floating-point range and half a surrogate pair are
    in no tree, so texts with such values are left out: in a member that nobody reads, a record
    steps over them and a relation refuses them. -/
theorem Query.read_eq_of_rewrites {room : Nat} {v v' : Json} {q : Query} (hkeys : v.KeysDistinct)
    (hread : Query.read room (.ofJson v) = .ok q)
    (hrewrites : Relation.ReflTransGen (Rewrite room .query) v v') :
    Query.read room (.ofJson v') = .ok q ∧
      (room = maxRoom → ∀ text, Json.Document.ofText text = ⟨.ofJson v', false⟩ →
        decode Query.read text = .ok q) := by
  have hread' : Query.read room (.ofJson v') = .ok q ∧ Query.Clear v' := by
    induction hrewrites with
    | refl => exact ⟨hread, Query.clear_of_keysDistinct hkeys⟩
    | tail _ hrewrite ih =>
      obtain ⟨hread, hclear⟩ := ih
      exact ⟨Query.carries_read hrewrite hclear q hread,
        Query.clear_of_rewrite hrewrite ⟨q, hread⟩ hclear⟩
  refine ⟨hread'.1, ?_⟩
  rintro rfl text htext
  simp only [decode, htext, hread'.1]
  rfl

example : ∀ value ∈ ["1e999", "\"\\ud800\""],
    (decode SortKey.read ("\x7b\"sortColumn\": \"c\", \"sortOrder\": \"asc\", \"other\": " ++
      value ++ "\x7d")).isOk = true ∧
    (decode Relation.read ("\x7b\"type\": \"belongs_to\", \"key\": \"k\", \"other\": " ++
      value ++ "\x7d")).isOk = false := by
  decide +kernel

/-- A query with one clause and one association. -/
def Sample.document (clause relation : Json) : Json :=
  .object [("table", .string "tasks"),
    ("description", .object [("where", .array [clause])]),
    ("associations", .array [.object [("to", .string "projects"), ("info", relation)]])]

private theorem Sample.rewrite_clause {clause clause' relation : Json}
    (h : Rewrite (maxRoom - 3) .clause clause clause') :
    Rewrite maxRoom .query (document clause relation) (document clause' relation) := by
  have hitem : Rewrite (maxRoom - 2) (.list .clause) (.array [clause]) (.array [clause']) :=
    @Rewrite.item _ _ [] [] _ _ h
  have hwhere : Rewrite (maxRoom - 1) .description (.object [("where", .array [clause])])
      (.object [("where", .array [clause'])]) := @Rewrite.member _ _ [] [] _ _ _ hitem
  exact @Rewrite.member _ _ [_] [_] _ _ _ hwhere

private theorem Sample.rewrite_relation {clause relation relation' : Json}
    (h : Rewrite (maxRoom - 3) .relation relation relation') :
    Rewrite maxRoom .query (document clause relation) (document clause relation') := by
  have hinfo : Rewrite (maxRoom - 2) .association
      (.object [("to", .string "projects"), ("info", relation)])
      (.object [("to", .string "projects"), ("info", relation')]) :=
    @Rewrite.member _ _ [_] [] _ _ _ h
  exact @Rewrite.member _ _ [_, _] [] _ _ _ (@Rewrite.item _ _ [] [] _ _ hinfo)

/-- A passthrough whose members, and those of its expression, come in some order. -/
def Sample.passthrough : Json :=
  .object [("type", .string "loki"), ("expr", .object [("b", .bool true), ("a", .null)])]

/-- The same passthrough in the opposite order, with a member that it does not use. -/
def Sample.passthroughReversed : Json :=
  .object [("expr", .object [("a", .null), ("b", .bool true)]), ("left", .null),
    ("type", .string "loki")]

def Sample.relation : Json :=
  .object [("type", .string "belongs_to"), ("key", .string "project_id")]

/-- The same relation with its tag at the end, and with the member that another one would need. -/
def Sample.relationReversed : Json :=
  .object [("key", .string "project_id"), ("foreignKey", .array []), ("type", .string "belongs_to")]

private theorem Sample.rewrites_passthrough (room : Nat) :
    Relation.ReflTransGen (Rewrite (room + 1) .clause) passthrough passthroughReversed := by
  have hinsert : Rewrite (room + 1) .clause passthrough (.object [("type", .string "loki"),
      ("left", .null), ("expr", .object [("b", .bool true), ("a", .null)])]) := by
    refine @Rewrite.unusedInserted _ [_] [_] _ _ ?_ rfl (.inl rfl) (Nat.succ_pos room)
    exact ⟨by decide, by decide, "loki", ["expr"], rfl, rfl, by decide⟩
  have hexpr : Rewrite room .other (.object [("b", .bool true), ("a", .null)])
      (.object [("a", .null), ("b", .bool true)]) := .permuted (.swap _ _ _)
  refine .tail (.tail (.single hinsert) (.permuted (List.reverse_perm _).symm)) ?_
  exact @Rewrite.member _ _ [] [_, _] _ _ _ hexpr

private theorem Sample.rewrites_relation (room : Nat) :
    Relation.ReflTransGen (Rewrite (room + 2) .relation) relation relationReversed := by
  have hinsert : Rewrite (room + 2) .relation relation (.object [("type", .string "belongs_to"),
      ("foreignKey", .array []), ("key", .string "project_id")]) := by
    have hroom : 1 < room + 2 := Nat.succ_lt_succ (Nat.succ_pos room)
    refine @Rewrite.inserted _ _ [_] [_] _ _ ⟨by decide, ?_⟩ fun _ => hroom
    rintro tag form ⟨⟩ hform
    cases form with
    | belongsTo => decide
    | hasMany => simp [Relation.Form.choices] at hform
  exact .tail (.single hinsert) (.permuted (List.reverse_perm _).symm)

theorem Query.read_eq_of_rewrites_reversed :
    (Sample.document Sample.passthrough Sample.relation).KeysDistinct ∧
    Relation.ReflTransGen (Rewrite maxRoom .query)
      (Sample.document Sample.passthrough Sample.relation)
      (Sample.document Sample.passthroughReversed Sample.relationReversed) ∧
    ∃ q : Query,
      Query.read maxRoom (.ofJson (Sample.document Sample.passthrough Sample.relation)) = .ok q ∧
      Query.read maxRoom (.ofJson
        (Sample.document Sample.passthroughReversed Sample.relationReversed)) = .ok q := by
  have hkeys : (Sample.document Sample.passthrough Sample.relation).KeysDistinct := by
    simp [Sample.document, Sample.passthrough, Sample.relation, Json.KeysDistinct,
      Json.KeysDistinctItems, Json.KeysDistinctMembers]
  have hrewrites : Relation.ReflTransGen (Rewrite maxRoom .query)
      (Sample.document Sample.passthrough Sample.relation)
      (Sample.document Sample.passthroughReversed Sample.relationReversed) :=
    .trans ((Sample.rewrites_passthrough _).lift (fun clause => Sample.document clause _)
        fun _ _ => Sample.rewrite_clause)
      ((Sample.rewrites_relation _).lift (Sample.document _) fun _ _ => Sample.rewrite_relation)
  have hread : ∃ q, Query.read maxRoom
      (.ofJson (Sample.document Sample.passthrough Sample.relation)) = .ok q := ⟨_, rfl⟩
  obtain ⟨q, hq⟩ := hread
  exact ⟨hkeys, hrewrites, q, hq, (Query.read_eq_of_rewrites hkeys hq hrewrites).1⟩

end DocQuery
