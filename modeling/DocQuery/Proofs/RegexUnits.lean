-- SUMMARY: Regular expressions on an engine that sees UTF-16 code units.
import DocQuery.Proofs.Regex
import DocQuery.Proofs.Utf16

/-!
# Regular expressions on code units

Without the flag `u` an engine takes a regular expression and its subject as sequences of UTF-16
code units. Reading such an expression gives the items that its characters give, with two items for
each character beyond the basic plane (`readUnits_encode`). What these items match is defined over
any alphabet, but a dot now stands for one unit, which may be half of a character.
-/

namespace DocQuery

open Utf16 (encode units)
open Json.StringLiteral (isLeading isTrailing)

namespace Regex

/-! ## Reading code units -/

/-- The code unit of a character of the basic plane. -/
def unit (c : Char) : UInt16 :=
  UInt16.ofNat c.toNat

/-- The code units that stand for something else unless they are escaped. -/
def syntaxUnits : List UInt16 :=
  syntaxCharacters.map unit

/-- Reads the code units behind the first anchor. -/
def readUnitItems : List UInt16 → Option (List (Item UInt16))
  | [] => none
  | [u] => if u = unit '$' then some [] else none
  | u :: v :: rest =>
    if u = unit '.' then
      if v = unit '*' then (readUnitItems rest).map (.anyRun :: ·)
      else (readUnitItems (v :: rest)).map (.any :: ·)
    else if u = unit '\\' then
      if v ∈ syntaxUnits then (readUnitItems rest).map (.char v :: ·) else none
    else if u ∈ syntaxUnits then none
    else (readUnitItems (v :: rest)).map (.char u :: ·)

/-- Reads the code units of a regular expression. -/
def readUnits : List UInt16 → Option (List (Item UInt16))
  | [] => none
  | u :: rest => if u = unit '^' then readUnitItems rest else none

/-- The items for code units that an item for characters comes to. -/
def Item.units : Item Char → List (Item UInt16)
  | .any => [.any]
  | .anyRun => [.anyRun]
  | .char c => (Utf16.units c).map .char

private theorem units_syntaxChar {c : Char} (h : c ∈ syntaxCharacters) :
    Utf16.units c = [unit c] := by
  have hbasic : syntaxCharacters.all (Utf16.Basic ·) = true := by decide
  exact if_pos (of_decide_eq_true (List.all_eq_true.1 hbasic c h))

private theorem encode_syntaxChar {c : Char} (h : c ∈ syntaxCharacters) (rest : List Char) :
    encode (c :: rest) = unit c :: encode rest := by
  rw [Utf16.encode_cons, units_syntaxChar h, List.singleton_append]

private theorem unit_mem_syntaxUnits {c : Char} (h : c ∈ syntaxCharacters) : unit c ∈ syntaxUnits :=
  List.mem_map_of_mem h

/-- A syntax character is known from its first unit. -/
theorem eq_of_units {c d : Char} {us : List UInt16} (hd : d ∈ syntaxCharacters)
    (h : units c = unit d :: us) : c = d := by
  have hsame : units c ++ [] = units d ++ us := by
    rw [h, units_syntaxChar hd, List.append_nil, List.singleton_append]
  exact (Utf16.units_append_inj hsame).1

private theorem unit_inj {c d : Char} (hc : c ∈ syntaxCharacters) (hd : d ∈ syntaxCharacters)
    (h : unit c = unit d) : c = d :=
  eq_of_units hd (h ▸ units_syntaxChar hc)

/-- The units of an ordinary character are no syntax. -/
private theorem not_mem_syntaxUnits {c : Char} (h : c ∉ syntaxCharacters) {u : UInt16}
    (hu : u ∈ units c) : u ∉ syntaxUnits := by
  intro hmem
  by_cases hbasic : Utf16.Basic c
  · obtain ⟨d, hd, rfl⟩ := List.mem_map.1 hmem
    obtain ⟨v, hv, _⟩ := Utf16.units_of_basic hbasic
    rw [hv, List.mem_singleton] at hu
    exact h (eq_of_units hd (hu ▸ hv) ▸ hd)
  · have hplain : syntaxUnits.all (fun v => !isLeading v.toNat && !isTrailing v.toNat) = true := by
      decide
    obtain ⟨hnotLeading, hnotTrailing⟩ := Bool.and_eq_true_iff.1 (List.all_eq_true.1 hplain u hmem)
    obtain ⟨l, t, hv, hleading, htrailing, _⟩ := Utf16.units_of_not_basic hbasic
    rw [hv, List.mem_cons, List.mem_singleton] at hu
    rcases hu with rfl | rfl
    · simp [hleading] at hnotLeading
    · simp [htrailing] at hnotTrailing

private theorem readUnitItems_char {u : UInt16} {us : List UInt16} (h : u ∉ syntaxUnits) :
    readUnitItems (u :: us) = (readUnitItems us).map (.char u :: ·) := by
  have hne : ∀ c ∈ syntaxCharacters, u ≠ unit c :=
    fun c hc hu => h (List.mem_map.2 ⟨c, hc, hu.symm⟩)
  cases us with
  | nil => simp [readUnitItems, hne '$' (by decide)]
  | cons v rest =>
    rw [readUnitItems, if_neg (hne '.' (by decide)), if_neg (hne '\\' (by decide)), if_neg h]

private theorem readUnitItems_chars {us rest : List UInt16} (h : ∀ u ∈ us, u ∉ syntaxUnits) :
    readUnitItems (us ++ rest) = (readUnitItems rest).map (us.map .char ++ ·) := by
  induction us with
  | nil => simp
  | cons u us ih =>
    rw [List.cons_append, readUnitItems_char (h u List.mem_cons_self),
      ih fun v hv => h v (List.mem_cons_of_mem u hv), Option.map_map]
    rfl

/-- Reading code units is reading characters, with two items for each character beyond the basic
    plane. -/
theorem readUnitItems_encode (cs : List Char) :
    readUnitItems (encode cs) = (readItems cs).map (·.flatMap Item.units) := by
  -- The cases of the reader of characters, in the order of its definition.
  fun_induction readItems cs with
  | case1 => rfl
  | case2 => rfl
  | case3 rest ih =>
    rw [encode_syntaxChar (by decide), encode_syntaxChar (by decide), readUnitItems, if_pos rfl,
      if_pos rfl, ih, Option.map_map, Option.map_map]
    rfl
  | case4 rest hstar ih =>
    rw [encode_syntaxChar (by decide)]
    cases rest with
    | nil => rfl
    | cons d rest =>
      obtain ⟨u, us, hu, _⟩ := Utf16.head_units d
      have hne : u ≠ unit '*' := by
        rintro rfl
        exact hstar rest (eq_of_units (by decide) hu ▸ rfl)
      rw [Utf16.encode_cons, hu, List.cons_append] at ih ⊢
      rw [readUnitItems, if_pos rfl, if_neg hne, ih, Option.map_map, Option.map_map]
      rfl
  | case5 c rest hc ih =>
    rw [encode_syntaxChar (by decide), encode_syntaxChar hc, readUnitItems, if_neg (by decide),
      if_pos rfl, if_pos (unit_mem_syntaxUnits hc), ih, Option.map_map, Option.map_map]
    simp [Function.comp_def, Item.units, units_syntaxChar hc]
  | case6 c rest hc =>
    obtain ⟨u, us, hu, _⟩ := Utf16.head_units c
    have hordinary : u ∉ syntaxUnits := not_mem_syntaxUnits hc (hu ▸ List.mem_cons_self)
    rw [encode_syntaxChar (by decide), Utf16.encode_cons, hu, List.cons_append, readUnitItems,
      if_neg (by decide), if_pos rfl, if_neg hordinary, Option.map_none]
  | case7 c rest hend hrun hdot hescape hc =>
    rw [encode_syntaxChar hc, Option.map_none]
    cases rest with
    | nil =>
      rw [Utf16.encode_nil, readUnitItems, if_neg]
      exact fun hu => hend (unit_inj hc (by decide) hu) rfl
    | cons d rest =>
      obtain ⟨u, us, hu, _⟩ := Utf16.head_units d
      rw [Utf16.encode_cons, hu, List.cons_append, readUnitItems, if_neg, if_neg,
        if_pos (unit_mem_syntaxUnits hc)]
      · exact fun hu => hescape d rest (unit_inj hc (by decide) hu) rfl
      · exact fun hu => hdot (unit_inj hc (by decide) hu)
  | case8 c rest _ _ _ _ hc ih =>
    rw [Utf16.encode_cons, readUnitItems_chars fun u hu => not_mem_syntaxUnits hc hu, ih,
      Option.map_map, Option.map_map]
    rfl

theorem readUnits_encode (cs : List Char) :
    readUnits (encode cs) = (read cs).map (·.flatMap Item.units) := by
  cases cs with
  | nil => rfl
  | cons c rest =>
    by_cases hc : c = '^'
    · subst hc
      rw [encode_syntaxChar (by decide), readUnits, if_pos rfl, read]
      exact readUnitItems_encode rest
    · have hread : read (c :: rest) = none := by
        rw [read]
        exact fun tail htail => hc (List.cons.inj htail).1
      obtain ⟨u, us, hu, _⟩ := Utf16.head_units c
      rw [hread, Utf16.encode_cons, hu, List.cons_append, readUnits, if_neg, Option.map_none]
      rintro rfl
      exact hc (eq_of_units (by decide) hu)

/-! ## Engines -/

/-- What an engine knows of the symbols that texts are made of. -/
structure Symbols (α : Type) where
  lineBreak : α → Prop
  sameCase : α → α → Prop

/-- An engine for regular expressions. -/
structure Engine where
  units : Symbols UInt16
  characters : Symbols Char

/-- The engine accepts a text. The flag `u` makes it see characters in place of code units. -/
def Engine.Accepts (E : Engine) (source flags s : String) : Prop :=
  if 'u' ∈ flags.toList then
    ∃ items, read source.toList = some items ∧
      Matches (.ofFlags E.characters.lineBreak E.characters.sameCase flags) items s.toList
  else
    ∃ items, readUnits (encode source.toList) = some items ∧
      Matches (.ofFlags E.units.lineBreak E.units.sameCase flags) items (encode s.toList)

/-! ## Matching -/

section Matching

variable {α : Type} {items rest : List (Item α)} {s : List α}

/-- The dialect in which a dot matches everything and a character only itself. -/
def Dialect.literal : Dialect α where
  dot _ := True
  char c d := c = d

theorem matches_cons {D : Dialect α} {item : Item α} :
    Matches D (item :: items) s ↔ ∃ a b, s = a ++ b ∧ Matches D [item] a ∧ Matches D items b := by
  cases item with
  | any =>
    constructor
    · rintro ⟨c, b, rfl, hc, hb⟩
      exact ⟨[c], b, rfl, ⟨c, [], rfl, hc, rfl⟩, hb⟩
    · rintro ⟨_, b, rfl, ⟨c, _, rfl, hc, rfl⟩, hb⟩
      exact ⟨c, b, rfl, hc, hb⟩
  | anyRun =>
    constructor
    · rintro ⟨run, b, rfl, hrun, hb⟩
      exact ⟨run, b, rfl, ⟨run, [], (List.append_nil run).symm, hrun, rfl⟩, hb⟩
    · rintro ⟨_, b, rfl, ⟨run, _, rfl, hrun, rfl⟩, hb⟩
      exact ⟨run, b, by rw [List.append_nil], hrun, hb⟩
  | char d =>
    constructor
    · rintro ⟨c, b, rfl, hc, hb⟩
      exact ⟨[c], b, rfl, ⟨c, [], rfl, hc, rfl⟩, hb⟩
    · rintro ⟨_, b, rfl, ⟨c, _, rfl, hc, rfl⟩, hb⟩
      exact ⟨c, b, rfl, hc, hb⟩

theorem matches_append {D : Dialect α} :
    Matches D (items ++ rest) s ↔ ∃ a b, s = a ++ b ∧ Matches D items a ∧ Matches D rest b := by
  induction items generalizing s with
  | nil =>
    constructor
    · intro h
      exact ⟨[], s, rfl, rfl, h⟩
    · rintro ⟨_, b, rfl, rfl, h⟩
      exact h
  | cons item items ih =>
    rw [List.cons_append, matches_cons]
    constructor
    · rintro ⟨a, _, rfl, ha, hrest⟩
      obtain ⟨b, c, rfl, hb, hc⟩ := ih.1 hrest
      exact ⟨a ++ b, c, (List.append_assoc ..).symm, matches_cons.2 ⟨a, b, rfl, ha, hb⟩, hc⟩
    · rintro ⟨_, c, rfl, hitems, hc⟩
      obtain ⟨a, b, rfl, ha, hb⟩ := matches_cons.1 hitems
      exact ⟨a, b ++ c, List.append_assoc .., ha, ih.2 ⟨b, c, rfl, hb, hc⟩⟩

/-- Characters match themselves one after the other. -/
theorem matches_chars {us : List α} : Matches .literal (us.map .char) s ↔ s = us := by
  induction us generalizing s with
  | nil => simp [Matches]
  | cons u us ih =>
    rw [List.map_cons, Matches]
    constructor
    · rintro ⟨d, rest, rfl, rfl, hrest⟩
      rw [ih.1 hrest]
    · rintro rfl
      exact ⟨u, us, rfl, rfl, ih.2 rfl⟩

/-- The least number of characters that the items match. -/
def width (items : List (Item α)) : Nat :=
  items.countP fun
    | .anyRun => false
    | _ => true

theorem width_le_of_matches {D : Dialect α} (h : Matches D items s) : width items ≤ s.length := by
  induction items generalizing s with
  | nil => exact Nat.zero_le _
  | cons item items ih =>
    cases item with
    | any =>
      obtain ⟨c, rest, rfl, _, hrest⟩ := h
      simpa [width] using ih hrest
    | anyRun =>
      obtain ⟨run, rest, rfl, _, hrest⟩ := h
      have hle := ih hrest
      simp [width] at hle ⊢
      omega
    | char d =>
      obtain ⟨c, rest, rfl, _, hrest⟩ := h
      simpa [width] using ih hrest

theorem width_append (items rest : List (Item α)) :
    width (items ++ rest) = width items + width rest :=
  List.countP_append

/-- The items match the text and no shorter one. -/
structure Tight (items : List (Item α)) (s : List α) : Prop where
  matched : Matches .literal items s
  length : s.length = width items

theorem Tight.append {t : List α} (hs : Tight items s) (ht : Tight rest t) :
    Tight (items ++ rest) (s ++ t) where
  matched := matches_append.2 ⟨s, t, rfl, hs.matched, ht.matched⟩
  length := by rw [List.length_append, hs.length, ht.length, width_append]

theorem tight_chars (us : List α) : Tight (us.map .char) us where
  matched := matches_chars.2 rfl
  length := by simp [width, List.countP_map, Function.comp_def]

end Matching

end Regex

end DocQuery
