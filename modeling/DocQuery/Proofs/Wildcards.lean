-- SUMMARY: LIKE patterns on an engine that sees UTF-16 code units, and which of them count characters there.
import DocQuery.Proofs.Like
import DocQuery.Proofs.RegexUnits

/-!
# Wildcards and code units

The expression for a pattern is given to an engine that sees UTF-16 code units. There `_` matches
one unit and not one character. `LikePattern.agrees_iff_steady` names the patterns that match the
same texts nevertheless. Ordinary characters are found where they are, since units can be cut only
between characters there. In the gaps between them it must not matter how many units there are,
beyond whether there are any.
-/

namespace DocQuery

open Utf16 (encode units)
open Json.StringLiteral (isLeading isTrailing)

namespace LikePattern

open Regex (Item Dialect Matches matches_append matches_cons)

/-! ## Gaps

A gap of a pattern is a run of wildcards that is as long as possible. -/

def isWildcard (c : Char) : Bool :=
  c == '%' || c == '_'

/-- The wildcards between the ordinary characters of a pattern. -/
def gaps (p : List Char) : List (List Char) :=
  p.splitOnP fun c => !isWildcard c

/-- A gap that leaves open how many characters it matches, up to whether there are any. -/
def SteadyGap (w : List Char) : Prop :=
  '_' ∈ w → '%' ∈ w ∧ w.count '_' = 1

/-- In each gap of the pattern stands no `_`, or a single one and a `%`. -/
def Steady (p : List Char) : Prop :=
  ∀ w ∈ gaps p, SteadyGap w

instance : DecidablePred SteadyGap := fun w =>
  inferInstanceAs (Decidable ('_' ∈ w → '%' ∈ w ∧ w.count '_' = 1))

instance : DecidablePred Steady := fun p =>
  inferInstanceAs (Decidable (∀ w ∈ gaps p, SteadyGap w))

/-- The item for a wildcard, over any alphabet. -/
def wildcard {α : Type} (c : Char) : Item α :=
  if c = '%' then .anyRun else .any

private theorem gaps_of_wildcards {w : List Char} (hw : ∀ c ∈ w, isWildcard c = true) :
    gaps w = [w] :=
  List.splitOnP_eq_singleton fun c hc => by simp [hw c hc]

private theorem gaps_append_cons {w p : List Char} {c : Char} (hw : ∀ c ∈ w, isWildcard c = true)
    (hc : isWildcard c = false) : gaps (w ++ c :: p) = w :: gaps p :=
  List.splitOnP_append_cons_of_forall_mem (fun d hd => by simp [hw d hd]) c (by simp [hc]) p

/-- A pattern is a gap, or a gap before an ordinary character and a pattern. -/
theorem gap_induction {motive : List Char → Prop}
    (wildcards : ∀ w, (∀ c ∈ w, isWildcard c = true) → motive w)
    (ordinary : ∀ w c p, (∀ c ∈ w, isWildcard c = true) → isWildcard c = false → motive p →
      motive (w ++ c :: p)) (p : List Char) : motive p := by
  -- The wildcards seen so far are collected until the gap ends.
  have hcollect : ∀ w, (∀ c ∈ w, isWildcard c = true) → motive (w ++ p) := by
    induction p with
    | nil =>
      intro w hw
      rw [List.append_nil]
      exact wildcards w hw
    | cons c p ih =>
      intro w hw
      cases hc : isWildcard c with
      | true =>
        rw [List.append_cons]
        apply ih
        intro d hd
        rcases List.mem_append.1 hd with hd | hd
        · exact hw d hd
        · rw [List.mem_singleton.1 hd, hc]
      | false => exact ordinary w c p hw hc (ih [] (by simp))
  exact hcollect [] (by simp)

/-- How a gap lies in its pattern. -/
structure GapIn (p w a b : List Char) : Prop where
  split : p = a ++ (w ++ b)
  wildcards : ∀ c ∈ w, isWildcard c = true
  before : a = [] ∨ ∃ a' c, a = a' ++ [c] ∧ isWildcard c = false
  after : b = [] ∨ ∃ c b', b = c :: b' ∧ isWildcard c = false

private theorem exists_gapIn {p w : List Char} (h : w ∈ gaps p) : ∃ a b, GapIn p w a b := by
  induction p using gap_induction with
  | wildcards p hp =>
    rw [gaps_of_wildcards hp, List.mem_singleton] at h
    subst h
    exact ⟨[], [], by simp, hp, .inl rfl, .inl rfl⟩
  | ordinary v c p hv hc ih =>
    rw [gaps_append_cons hv hc, List.mem_cons] at h
    rcases h with rfl | h
    · exact ⟨[], c :: p, rfl, hv, .inl rfl, .inr ⟨c, p, rfl, hc⟩⟩
    · obtain ⟨a, b, hsplit, hw, hbefore, hafter⟩ := ih h
      refine ⟨v ++ c :: a, b, ?_, hw, .inr ?_, hafter⟩
      · rw [hsplit, List.append_assoc, List.cons_append]
      · rcases hbefore with rfl | ⟨a', d, rfl, hd⟩
        · exact ⟨v, c, rfl, hc⟩
        · exact ⟨v ++ c :: a', d, by rw [List.append_assoc, List.cons_append], hd⟩

/-! ## Runs of wildcards -/

/-- The numbers of characters that a run of wildcards matches. -/
def Fits (w : List Char) (n : Nat) : Prop :=
  if '%' ∈ w then w.count '_' ≤ n else n = w.count '_'

private theorem Fits.le {w : List Char} {n : Nat} (h : Fits w n) : w.count '_' ≤ n := by
  unfold Fits at h
  split at h
  · exact h
  · exact Nat.le_of_eq h.symm

private theorem fits_count (w : List Char) : Fits w (w.count '_') := by
  unfold Fits
  split
  · exact Nat.le_refl _
  · rfl

private theorem fits_run {w : List Char} {n : Nat} : Fits ('%' :: w) n ↔ w.count '_' ≤ n := by
  simp [Fits]

private theorem fits_one {w : List Char} {n : Nat} :
    Fits ('_' :: w) n ↔ ∃ m, n = m + 1 ∧ Fits w m := by
  cases n with
  | zero => simp [Fits]
  | succ n => simp [Fits]

/-- A run of wildcards asks for nothing but a number of characters. -/
theorem matches_wildcards {α : Type} {w : List Char} (hw : ∀ c ∈ w, isWildcard c = true)
    {s : List α} : Matches .literal (w.map wildcard) s ↔ Fits w s.length := by
  induction w generalizing s with
  | nil => simp [Matches, Fits]
  | cons c w ih =>
    have hrest := fun d hd => hw d (List.mem_cons_of_mem c hd)
    have hc : c = '%' ∨ c = '_' := by simpa [isWildcard] using hw c List.mem_cons_self
    rcases hc with rfl | rfl
    · rw [fits_run]
      constructor
      · rintro ⟨run, rest, rfl, _, hrest'⟩
        have hle := ((ih hrest).1 hrest').le
        rw [List.length_append]
        omega
      · intro hle
        refine ⟨s.take (s.length - w.count '_'), s.drop (s.length - w.count '_'), by simp,
          fun _ _ => trivial, (ih hrest).2 ?_⟩
        rw [List.length_drop, Nat.sub_sub_self hle]
        exact fits_count w
    · rw [fits_one]
      constructor
      · rintro ⟨d, rest, rfl, _, hrest'⟩
        exact ⟨rest.length, rfl, (ih hrest).1 hrest'⟩
      · rintro ⟨m, hlength, hm⟩
        obtain ⟨d, rest, rfl⟩ := List.exists_cons_of_length_eq_add_one hlength
        rw [← Nat.succ.inj hlength] at hm
        exact ⟨d, rest, rfl, trivial, (ih hrest).2 hm⟩

/-! ## Patterns on code units -/

/-- The items of a pattern for code units. -/
def unitItems (p : List Char) : List (Item UInt16) :=
  (p.map item).flatMap Item.units

private theorem unitItems_append (p q : List Char) :
    unitItems (p ++ q) = unitItems p ++ unitItems q := by
  simp [unitItems]

private theorem item_of_wildcard {c : Char} (h : isWildcard c = true) : item c = wildcard c := by
  have hc : c = '%' ∨ c = '_' := by simpa [isWildcard] using h
  rcases hc with rfl | rfl
  · rfl
  · rfl

private theorem item_of_ordinary {c : Char} (h : isWildcard c = false) : item c = .char c := by
  have hc : c ≠ '%' ∧ c ≠ '_' := by simpa [isWildcard] using h
  simp [item, hc]

private theorem map_item_wildcards {w : List Char} (hw : ∀ c ∈ w, isWildcard c = true) :
    w.map item = w.map wildcard :=
  List.map_congr_left fun c hc => item_of_wildcard (hw c hc)

private theorem unitItems_wildcards {w : List Char} (hw : ∀ c ∈ w, isWildcard c = true) :
    unitItems w = w.map wildcard := by
  induction w with
  | nil => rfl
  | cons c w ih =>
    have hrest := fun d hd => hw d (List.mem_cons_of_mem c hd)
    have hunits : (wildcard c : Item Char).units = [wildcard c] := by
      unfold wildcard
      split
      · rfl
      · rfl
    rw [unitItems] at ih ⊢
    rw [List.map_cons, List.flatMap_cons, item_of_wildcard (hw c List.mem_cons_self), hunits,
      ih hrest]
    rfl

private theorem unitItems_ordinary {c : Char} (h : isWildcard c = false) :
    unitItems [c] = (units c).map .char := by
  simp [unitItems, item_of_ordinary h, Item.units]

/-- On code units the pattern matches the text that it matches on characters. -/
def Agrees (p s : List Char) : Prop :=
  Matches .literal (unitItems p) (encode s) ↔ Matches .literal (p.map item) s

private theorem matches_unitItems_ordinary {c : Char} {p : List Char} {b : List UInt16}
    (hc : isWildcard c = false) :
    Matches .literal (unitItems (c :: p)) b ↔
      ∃ rest, b = units c ++ rest ∧ Matches .literal (unitItems p) rest := by
  rw [← List.singleton_append, unitItems_append, unitItems_ordinary hc, matches_append]
  constructor
  · rintro ⟨a, rest, rfl, ha, hrest⟩
    exact ⟨rest, by rw [Regex.matches_chars.1 ha], hrest⟩
  · rintro ⟨rest, rfl, hrest⟩
    exact ⟨units c, rest, rfl, Regex.matches_chars.2 rfl, hrest⟩

/-- Before an ordinary character there is a place between characters. -/
private theorem isTrailing_head {c : Char} {p : List Char} {b : List UInt16} {u : UInt16}
    (hc : isWildcard c = false) (h : Matches .literal (unitItems (c :: p)) b)
    (hu : b.head? = some u) : isTrailing u.toNat = false := by
  obtain ⟨rest, rfl, _⟩ := (matches_unitItems_ordinary hc).1 h
  obtain ⟨v, vs, hv, hnot⟩ := Utf16.head_units c
  rw [hv] at hu
  cases hu
  exact hnot

/-- So there is behind one. -/
private theorem isLeading_last {c : Char} {p : List Char} {x : List UInt16} {u : UInt16}
    (hc : isWildcard c = false) (h : Matches .literal (unitItems (p ++ [c])) (x ++ [u])) :
    isLeading u.toNat = false := by
  rw [unitItems_append, unitItems_ordinary hc, matches_append] at h
  obtain ⟨a, b, hsplit, _, hb⟩ := h
  obtain ⟨vs, v, hv, hnot⟩ := Utf16.last_units c
  rw [Regex.matches_chars.1 hb, hv, ← List.append_assoc] at hsplit
  rw [(List.append_inj' hsplit rfl).2 |> List.singleton_inj.1, hnot]

/-- An ordinary character matches itself, whatever it is made of. -/
theorem agrees_ordinary {c : Char} {p s : List Char} (hc : isWildcard c = false)
    (hp : ∀ t, s = c :: t → Agrees p t) : Agrees (c :: p) s := by
  rw [Agrees, matches_unitItems_ordinary hc, List.map_cons, item_of_ordinary hc]
  constructor
  · rintro ⟨rest, hs, hrest⟩
    obtain ⟨t, rfl, rfl⟩ := Utf16.encode_eq_units_append.1 hs
    exact ⟨c, t, rfl, rfl, (hp t rfl).1 hrest⟩
  · rintro ⟨d, t, rfl, rfl, ht⟩
    exact ⟨encode t, rfl, (hp t rfl).2 ht⟩

/-- A gap matches the same characters if it ends between two of them and asks for no particular
    number. -/
theorem agrees_gap {w p s : List Char} (hw : ∀ c ∈ w, isWildcard c = true)
    (hcut : ∀ a b, encode s = a ++ b → Matches .literal (unitItems p) b →
      ∀ u, b.head? = some u → isTrailing u.toNat = false)
    (hfits : ∀ r t, s = r ++ t → (Fits w (encode r).length ↔ Fits w r.length))
    (hp : ∀ r t, s = r ++ t → Agrees p t) : Agrees (w ++ p) s := by
  rw [Agrees, unitItems_append, unitItems_wildcards hw, List.map_append, map_item_wildcards hw,
    matches_append, matches_append]
  constructor
  · rintro ⟨a, b, hs, ha, hb⟩
    obtain ⟨r, t, rfl, rfl, rfl⟩ := Utf16.exists_cut hs (hcut a b hs hb)
    rw [matches_wildcards hw, hfits r t rfl] at ha
    exact ⟨r, t, rfl, (matches_wildcards hw).2 ha, (hp r t rfl).1 hb⟩
  · rintro ⟨r, t, rfl, hr, ht⟩
    rw [matches_wildcards hw, ← hfits r t rfl] at hr
    exact ⟨encode r, encode t, Utf16.encode_append r t, (matches_wildcards hw).2 hr,
      (hp r t rfl).2 ht⟩

/-! ## Patterns that count characters -/

private theorem fits_encode {w : List Char} (hw : SteadyGap w) (r : List Char) :
    Fits w (encode r).length ↔ Fits w r.length := by
  have hempty : (encode r).length = 0 ↔ r.length = 0 := by
    rw [List.length_eq_zero_iff, List.length_eq_zero_iff, Utf16.encode_eq_nil]
  by_cases hone : '_' ∈ w
  · obtain ⟨hrun, hcount⟩ := hw hone
    simp only [Fits, hrun, hcount, if_true]
    omega
  · simp only [Fits, List.count_eq_zero_of_not_mem hone, hempty, Nat.zero_le]

private theorem agrees_of_steady {p : List Char} (h : Steady p) (s : List Char) : Agrees p s := by
  induction p using gap_induction generalizing s with
  | wildcards w hw =>
    rw [Steady, gaps_of_wildcards hw] at h
    rw [← List.append_nil w]
    refine agrees_gap hw ?_ (fun r t _ => fits_encode (h w List.mem_cons_self) r) ?_
    · rintro a b _ rfl u hu
      cases hu
    · intro r t _
      simp [Agrees, unitItems, Matches, Utf16.encode_eq_nil]
  | ordinary w c p hw hc ih =>
    rw [Steady, gaps_append_cons hw hc] at h
    have hrest : ∀ t, Agrees (c :: p) t :=
      fun t => agrees_ordinary hc fun t _ => ih (fun v hv => h v (List.mem_cons_of_mem w hv)) t
    exact agrees_gap hw (fun a b _ hb u hu => isTrailing_head hc hb hu)
      (fun r t _ => fits_encode (h w List.mem_cons_self) r) (fun r t _ => hrest t)

/-- Among characters of the basic plane units are characters. -/
private theorem agrees_of_basic {p s : List Char} (h : ∀ c ∈ s, Utf16.Basic c) : Agrees p s := by
  induction p generalizing s with
  | nil => simp [Agrees, unitItems, Matches, Utf16.encode_eq_nil]
  | cons c p ih =>
    cases hc : isWildcard c with
    | false =>
      refine agrees_ordinary hc ?_
      rintro t rfl
      exact ih fun d hd => h d (List.mem_cons_of_mem c hd)
    | true =>
      rw [← List.singleton_append]
      refine agrees_gap (by simpa using hc) ?_ ?_ ?_
      · intro a b hs _ u hu
        apply Utf16.isTrailing_of_basic h
        rw [hs]
        exact List.mem_append_right a (List.mem_of_head? hu)
      · rintro r t rfl
        rw [Utf16.length_encode_of_basic fun d hd => h d (List.mem_append_left t hd)]
      · rintro r t rfl
        exact ih fun d hd => h d (List.mem_append_right r hd)

/-! ## Patterns that do not -/

/-- The shortest text that a pattern matches, with an `a` for each `_`. -/
def shortest (p : List Char) : List Char :=
  p.flatMap fun c => if c = '%' then [] else if c = '_' then ['a'] else [c]

private theorem tight_shortest (p : List Char) : Regex.Tight (p.map item) (shortest p) := by
  induction p with
  | nil => exact ⟨rfl, rfl⟩
  | cons c p ih =>
    rw [List.map_cons, ← List.singleton_append]
    refine Regex.Tight.append ?_ ih
    by_cases hrun : c = '%'
    · subst hrun
      exact ⟨⟨[], [], rfl, nofun, rfl⟩, rfl⟩
    · by_cases hone : c = '_'
      · subst hone
        exact ⟨⟨'a', [], rfl, trivial, rfl⟩, rfl⟩
      · simpa [item, hrun, hone] using Regex.tight_chars [c]

private theorem tight_unitItems_shortest (p : List Char) :
    Regex.Tight (unitItems p) (encode (shortest p)) := by
  induction p with
  | nil => exact ⟨rfl, rfl⟩
  | cons c p ih =>
    have hsplit : encode (shortest (c :: p)) = encode (shortest [c]) ++ encode (shortest p) := by
      rw [← Utf16.encode_append, shortest, shortest, shortest, ← List.flatMap_append,
        List.singleton_append]
    rw [hsplit, ← List.singleton_append, unitItems_append]
    refine Regex.Tight.append ?_ ih
    by_cases hrun : c = '%'
    · subst hrun
      exact ⟨⟨[], [], rfl, nofun, rfl⟩, rfl⟩
    · by_cases hone : c = '_'
      · subst hone
        exact ⟨⟨Regex.unit 'a', [], rfl, trivial, rfl⟩, rfl⟩
      · simpa [unitItems, shortest, Item.units, item, hrun, hone] using Regex.tight_chars (units c)

private theorem width_wildcards {α : Type} {w : List Char} (hw : ∀ c ∈ w, isWildcard c = true) :
    Regex.width (w.map (wildcard (α := α))) = w.count '_' := by
  rw [Regex.width, List.countP_map, List.count]
  refine List.countP_congr fun c hc => ?_
  have hcase : c = '%' ∨ c = '_' := by simpa [isWildcard] using hw c hc
  rcases hcase with rfl | rfl
  · simp [wildcard]
  · simp [wildcard]

/-- A character beyond the basic plane. -/
def beyond : Char :=
  Char.ofNat 0x1f600

/-- Two wildcards for one character each match the two halves of a character. -/
private theorem not_agrees_of_two {p w a b : List Char} (h : GapIn p w a b)
    (htwo : 2 ≤ w.count '_') :
    ∃ s, ¬ Agrees p s := by
  obtain ⟨n, hn⟩ : ∃ n, w.count '_' = n + 2 := ⟨w.count '_' - 2, by omega⟩
  refine ⟨shortest a ++ (beyond :: List.replicate n 'a' ++ shortest b), fun hagrees => ?_⟩
  have hrun : Matches .literal (w.map wildcard) (encode (beyond :: List.replicate n 'a')) := by
    have hbasic : ∀ c ∈ List.replicate n 'a', Utf16.Basic c := by
      intro c hc
      rw [List.eq_of_mem_replicate hc]
      decide
    have hlength : (encode (beyond :: List.replicate n 'a')).length = w.count '_' := by
      rw [Utf16.encode_cons, List.length_append, Utf16.length_encode_of_basic hbasic,
        List.length_replicate, hn, Nat.add_comm]
      rfl
    exact (matches_wildcards h.wildcards).2 (hlength ▸ fits_count w)
  have hunits : Matches .literal (unitItems p)
      (encode (shortest a ++ (beyond :: List.replicate n 'a' ++ shortest b))) := by
    rw [h.split, unitItems_append, unitItems_append, unitItems_wildcards h.wildcards,
      Utf16.encode_append, Utf16.encode_append]
    exact matches_append.2 ⟨_, _, rfl, (tight_unitItems_shortest a).matched,
      matches_append.2 ⟨_, _, rfl, hrun, (tight_unitItems_shortest b).matched⟩⟩
  -- Counted in characters the text is too short by one.
  have hwidth := Regex.width_le_of_matches (hagrees.1 hunits)
  rw [h.split, List.map_append, List.map_append, map_item_wildcards h.wildcards,
    Regex.width_append, Regex.width_append, width_wildcards h.wildcards,
    ← (tight_shortest a).length, ← (tight_shortest b).length] at hwidth
  simp only [List.length_append, List.length_cons, List.length_replicate] at hwidth
  omega

/-- If a pair is cut around one symbol and nothing else is missing on either side, then one half of
    the pair is left over. -/
private theorem split_pair {α : Type} {a b x y : List α} {l t u : α}
    (h : a ++ ([l, t] ++ b) = x ++ u :: y) (hx : a.length ≤ x.length) (hy : b.length ≤ y.length) :
    y = t :: b ∨ x = a ++ [l] := by
  rcases List.append_eq_append_iff.1 h with ⟨x', rfl, hx'⟩ | ⟨y', rfl, hy'⟩
  · rcases x' with _ | ⟨v, _ | ⟨v', x'⟩⟩
    · cases hx'
      exact .inl rfl
    · cases hx'
      exact .inr rfl
    · have hlength := congrArg List.length hx'
      simp at hlength
      omega
  · have hnil : y' = [] := by
      rw [List.length_append] at hx
      exact List.length_eq_zero_iff.1 (by omega)
    subst hnil
    cases hy'
    exact .inl rfl

/-- A wildcard for one character between ordinary ones does not match a character of two units. -/
private theorem not_agrees_of_alone {p a b : List Char} (h : GapIn p ['_'] a b) :
    ∃ s, ¬ Agrees p s := by
  refine ⟨shortest a ++ beyond :: shortest b, fun hagrees => ?_⟩
  have hmatched : Matches .literal (p.map item) (shortest a ++ beyond :: shortest b) := by
    rw [h.split, List.map_append]
    exact matches_append.2 ⟨_, _, rfl, (tight_shortest a).matched,
      beyond, _, rfl, trivial, (tight_shortest b).matched⟩
  have hunits := hagrees.2 hmatched
  obtain ⟨l, t, hpair, hleading, htrailing, _⟩ :=
    Utf16.units_of_not_basic (c := beyond) (by decide)
  have hone : unitItems (['_'] ++ b) = .any :: unitItems b := rfl
  rw [h.split, unitItems_append, hone, Utf16.encode_append, Utf16.encode_cons, hpair,
    matches_append] at hunits
  obtain ⟨x, _, hs, hx, u, y, rfl, _, hy⟩ := hunits
  have hxlength := Regex.width_le_of_matches hx
  have hylength := Regex.width_le_of_matches hy
  rw [← (tight_unitItems_shortest a).length] at hxlength
  rw [← (tight_unitItems_shortest b).length] at hylength
  -- The wildcard matches one half of the character, and the other half is left to a neighbour.
  rcases split_pair hs hxlength hylength with rfl | rfl
  · rcases h.after with rfl | ⟨c, b', rfl, hc⟩
    · cases hy
    · rw [isTrailing_head hc hy rfl] at htrailing
      cases htrailing
  · rcases h.before with rfl | ⟨a', c, rfl, hc⟩
    · cases hx
    · rw [isLeading_last hc hx] at hleading
      cases hleading

/-- The patterns that count characters are the steady ones. -/
theorem agrees_iff_steady {p : List Char} : (∀ s, Agrees p s) ↔ Steady p := by
  constructor
  · intro h w hw hone
    obtain ⟨a, b, hgap⟩ := exists_gapIn hw
    have hfew : w.count '_' < 2 := by
      refine Nat.lt_of_not_le fun htwo => ?_
      obtain ⟨s, hs⟩ := not_agrees_of_two hgap htwo
      exact hs (h s)
    have hcount : w.count '_' = 1 := by
      have hpos := List.count_pos_iff.2 hone
      omega
    refine ⟨Decidable.byContradiction fun hrun => ?_, hcount⟩
    have hall : ∀ c ∈ w, c = '_' := by
      intro c hc
      have hcase : c = '%' ∨ c = '_' := by simpa [isWildcard] using hgap.wildcards c hc
      exact hcase.resolve_left fun hpercent => hrun (hpercent ▸ hc)
    have hsingle : w = ['_'] := by
      have hreplicate := List.eq_replicate_of_mem hall
      rw [hreplicate, List.count_replicate_self] at hcount
      rwa [hcount] at hreplicate
    obtain ⟨s, hs⟩ := not_agrees_of_alone (hsingle ▸ hgap)
    exact hs (h s)
  · exact agrees_of_steady

/-! ## Patterns on an engine -/

/-- Under the given flags the engine accepts a text for a pattern exactly if the pattern matches
    it, character by character. -/
def Faithful (E : Regex.Engine) (flags pattern s : String) : Prop :=
  E.Accepts (ofPattern pattern false).source flags s ↔ Like (· = ·) pattern.toList s.toList

variable {E : Regex.Engine} {pattern s : String}

private theorem faithful_iff_agrees :
    Faithful E (ofPattern pattern false).flags pattern s ↔ Agrees pattern.toList s.toList := by
  have hread : Regex.readUnits (encode (ofPattern pattern false).source.toList) =
      some (unitItems pattern.toList) := by
    rw [Regex.readUnits_encode, ofPattern, String.toList_ofList, read_regex]
    rfl
  have hdialect : Dialect.ofFlags E.units.lineBreak E.units.sameCase "s" = .literal := by
    simp [Dialect.ofFlags, Dialect.literal]
  have haccepts : E.Accepts (ofPattern pattern false).source (ofPattern pattern false).flags s ↔
      Matches .literal (unitItems pattern.toList) (encode s.toList) := by
    change E.Accepts (ofPattern pattern false).source "s" s ↔ _
    rw [Regex.Engine.Accepts, if_neg (by decide), hread, hdialect]
    simp
  rw [Faithful, Agrees, haccepts, matches_items fun _ => trivial]
  rfl

/-- With the flag `u` nothing has to be asked of the pattern. -/
private theorem faithful_of_u : Faithful E ((ofPattern pattern false).flags ++ "u") pattern s := by
  have hread : Regex.read (ofPattern pattern false).source.toList =
      some (pattern.toList.map item) := by
    rw [ofPattern, String.toList_ofList, read_regex]
  have hdialect : Dialect.ofFlags E.characters.lineBreak E.characters.sameCase "su" = .literal := by
    simp [Dialect.ofFlags, Dialect.literal]
  change E.Accepts (ofPattern pattern false).source "su" s ↔ _
  rw [Regex.Engine.Accepts, if_pos (by decide), hread, hdialect]
  simp only [Option.some.injEq, exists_eq_left']
  exact matches_items fun _ => trivial

private theorem faithful_iff_steady :
    (∀ s, Faithful E (ofPattern pattern false).flags pattern s) ↔ Steady pattern.toList := by
  rw [← agrees_iff_steady]
  constructor
  · intro h s
    have hs := faithful_iff_agrees.1 (h (String.ofList s))
    rwa [String.toList_ofList] at hs
  · intro h s
    exact faithful_iff_agrees.2 (h s.toList)

/-- An engine that takes line feeds for line breaks and tells cases apart. -/
def Sample.engine : Regex.Engine where
  units := { lineBreak := (· = 10), sameCase := (· = ·) }
  characters := { lineBreak := (· = '\n'), sameCase := (· = ·) }

/-- A single character is not always accepted for `_`. -/
theorem exists_character_miscounted :
    ¬ ∀ (E : Regex.Engine) (pattern s : String),
      Faithful E (ofPattern pattern false).flags pattern s := by
  intro h
  have hfaithful := faithful_iff_agrees.1 (h Sample.engine "_" (String.ofList [beyond]))
  rw [String.toList_ofList] at hfaithful
  have hmatched : Matches .literal ("_".toList.map item) [beyond] := ⟨beyond, [], rfl, trivial, rfl⟩
  obtain ⟨u, _, htwo, _, rfl⟩ := hfaithful.2 hmatched
  have hlength : (encode [beyond]).length = 1 := congrArg List.length htwo
  exact absurd hlength (by decide)

/-- Under the flags that come with a pattern, its wildcards count characters in all texts if and
    only if the pattern is steady. In texts of the basic plane they always do, and with the flag `u`
    they would do so in all texts. -/
theorem wildcards_count_characters (E : Regex.Engine) (pattern : String) :
    ((∀ s, Faithful E (ofPattern pattern false).flags pattern s) ↔ Steady pattern.toList) ∧
    (∀ s : String, (∀ c ∈ s.toList, Utf16.Basic c) →
      Faithful E (ofPattern pattern false).flags pattern s) ∧
    ∀ s, Faithful E ((ofPattern pattern false).flags ++ "u") pattern s :=
  ⟨faithful_iff_steady, fun _ h => faithful_iff_agrees.2 (agrees_of_basic h),
    fun _ => faithful_of_u⟩

/-- Behind an ordinary character `_` and `%` together are steady, `_` alone is not, and neither are
    two of them with a `%` between. -/
theorem wildcards_count_characters_samples :
    (∀ s, Faithful Sample.engine (ofPattern "a%_b" false).flags "a%_b" s) ∧
    (¬ ∀ s, Faithful Sample.engine (ofPattern "a_" false).flags "a_" s) ∧
    (¬ ∀ s, Faithful Sample.engine (ofPattern "_%_" false).flags "_%_" s) ∧
    Faithful Sample.engine (ofPattern "a_" false).flags "a_" "ab" := by
  have hbasic : "ab".toList.all (Utf16.Basic ·) = true := by decide
  refine ⟨(wildcards_count_characters _ "a%_b").1.2 (by decide), fun h => ?_, fun h => ?_, ?_⟩
  · exact absurd ((wildcards_count_characters _ "a_").1.1 h) (by decide)
  · exact absurd ((wildcards_count_characters _ "_%_").1.1 h) (by decide)
  · exact (wildcards_count_characters _ "a_").2.1 "ab" fun c hc =>
      of_decide_eq_true (List.all_eq_true.1 hbasic c hc)

end LikePattern

end DocQuery
