-- SUMMARY: LIKE patterns and the texts that they match, and that the regular expression of a pattern matches the same texts.
import DocQuery.Proofs.Regex

/-!
# Matching LIKE patterns

`LikePattern.Like` is the meaning of a pattern, character by character. The regular expression of
a pattern is read back as one item for each character of the pattern. So it matches what the
pattern matches.
-/

namespace DocQuery.LikePattern

open Regex (Item Dialect)

/-- A pattern matches a text. `same` says which characters count as equal. -/
inductive Like (same : Char → Char → Prop) : List Char → List Char → Prop where
  | nil : Like same [] []
  | runEnd {p s} : Like same p s → Like same ('%' :: p) s
  | runStep {p s} (c : Char) : Like same ('%' :: p) s → Like same ('%' :: p) (c :: s)
  | one {p s} (c : Char) : Like same p s → Like same ('_' :: p) (c :: s)
  | char {p s c d} : c ≠ '%' → c ≠ '_' → same c d → Like same p s →
    Like same (c :: p) (d :: s)

/-! ## Reading the regular expression back -/

/-- The part of the regular expression that a character of a pattern stands for. -/
def item (c : Char) : Item Char :=
  if c = '%' then .anyRun else if c = '_' then .any else .char c

/-- The characters that are escaped are those that have to be. -/
theorem mem_metacharacters {c : Char} : c ∈ metacharacters ↔ c ∈ Regex.syntaxCharacters := by
  have hperm : metacharacters.Perm Regex.syntaxCharacters := by decide
  exact hperm.mem_iff

/-- The pieces of a regular expression: two wildcards, escaped characters and ordinary ones. -/
theorem piece_cases (c : Char) :
    (c = '%' ∧ piece c = ['.', '*']) ∨ (c = '_' ∧ piece c = ['.']) ∨
    (c ≠ '%' ∧ c ≠ '_' ∧ c ∈ Regex.syntaxCharacters ∧ piece c = ['\\', c]) ∨
    (c ≠ '%' ∧ c ≠ '_' ∧ c ∉ Regex.syntaxCharacters ∧ piece c = [c]) := by
  by_cases hrun : c = '%'
  · exact .inl ⟨hrun, by simp [piece, hrun]⟩
  by_cases hone : c = '_'
  · exact .inr (.inl ⟨hone, by simp [piece, hone]⟩)
  by_cases hmeta : c ∈ metacharacters
  · refine .inr (.inr (.inl ⟨hrun, hone, mem_metacharacters.1 hmeta, ?_⟩))
    simp [piece, hrun, hone, hmeta]
  · refine .inr (.inr (.inr ⟨hrun, hone, fun h => hmeta (mem_metacharacters.2 h), ?_⟩))
    simp [piece, hrun, hone, hmeta]

/-- No piece starts with a star, so none changes the meaning of a dot before it. -/
private theorem head?_pieces (pattern : List Char) :
    (pattern.flatMap piece ++ ['$']).head? ≠ some '*' := by
  cases pattern with
  | nil => simp
  | cons c pattern =>
    rcases piece_cases c with ⟨_, h⟩ | ⟨_, h⟩ | ⟨_, _, _, h⟩ | ⟨_, _, hordinary, h⟩
    · simp [h]
    · simp [h]
    · simp [h]
    · simp only [List.flatMap_cons, h, List.cons_append, List.head?_cons, ne_eq, Option.some.injEq]
      rintro rfl
      exact hordinary (by decide)

private theorem readItems_pieces (pattern : List Char) :
    Regex.readItems (pattern.flatMap piece ++ ['$']) = some (pattern.map item) := by
  induction pattern with
  | nil => rfl
  | cons c pattern ih =>
    rw [List.flatMap_cons, List.append_assoc, List.map_cons]
    rcases piece_cases c with
      ⟨rfl, h⟩ | ⟨rfl, h⟩ | ⟨hrun, hone, hescaped, h⟩ | ⟨hrun, hone, hordinary, h⟩
    · rw [h, List.cons_append, List.cons_append, Regex.readItems_anyRun, List.nil_append, ih]
      rfl
    · rw [h, List.cons_append, List.nil_append, Regex.readItems_any (head?_pieces pattern), ih]
      rfl
    · rw [h, List.cons_append, List.cons_append, Regex.readItems_escaped hescaped, List.nil_append,
        ih]
      simp [item, hrun, hone]
    · rw [h, List.cons_append, List.nil_append, Regex.readItems_char hordinary, ih]
      simp [item, hrun, hone]

theorem read_regex (pattern : List Char) :
    Regex.read (regex pattern) = some (pattern.map item) :=
  readItems_pieces pattern

/-! ## Matching -/

section Matching

variable {D : Dialect Char} {p s : List Char}

/-- Behind `%` any suffix of the text may be left to the rest of the pattern. -/
theorem like_run {same : Char → Char → Prop} :
    Like same ('%' :: p) s ↔ ∃ run rest, s = run ++ rest ∧ Like same p rest := by
  constructor
  · intro h
    generalize hpattern : '%' :: p = pattern at h
    induction h with
    | nil => cases hpattern
    | runEnd h _ =>
      cases hpattern
      exact ⟨[], _, rfl, h⟩
    | runStep c _ ih =>
      cases hpattern
      obtain ⟨run, rest, rfl, hrest⟩ := ih rfl
      exact ⟨c :: run, rest, rfl, hrest⟩
    | one c _ _ => cases hpattern
    | char hrun _ _ _ _ =>
      cases hpattern
      exact absurd rfl hrun
  · rintro ⟨run, rest, rfl, hrest⟩
    induction run with
    | nil => exact .runEnd hrest
    | cons c run ih => exact .runStep c ih

theorem like_one {same : Char → Char → Prop} :
    Like same ('_' :: p) s ↔ ∃ c rest, s = c :: rest ∧ Like same p rest := by
  constructor
  · intro h
    cases h with
    | one c h => exact ⟨c, _, rfl, h⟩
    | char _ hone _ _ => exact absurd rfl hone
  · rintro ⟨c, rest, rfl, h⟩
    exact .one c h

theorem like_char {same : Char → Char → Prop} {c : Char} (hrun : c ≠ '%') (hone : c ≠ '_') :
    Like same (c :: p) s ↔ ∃ d rest, s = d :: rest ∧ same c d ∧ Like same p rest := by
  constructor
  · intro h
    cases h with
    | runEnd _ => exact absurd rfl hrun
    | runStep _ _ => exact absurd rfl hrun
    | one _ _ => exact absurd rfl hone
    | char _ _ hsame h => exact ⟨_, _, rfl, hsame, h⟩
  · rintro ⟨d, rest, rfl, hsame, h⟩
    exact .char hrun hone hsame h

theorem like_nil {same : Char → Char → Prop} : Like same [] s ↔ s = [] := by
  constructor
  · intro h
    cases h
    rfl
  · rintro rfl
    exact .nil

/-- If a dot matches everything, the items match what the pattern matches. -/
theorem matches_items (hdot : ∀ c, D.dot c) :
    Regex.Matches D (p.map item) s ↔ Like D.char p s := by
  induction p generalizing s with
  | nil => simp [Regex.Matches, like_nil]
  | cons c p ih =>
    rw [List.map_cons]
    by_cases hrun : c = '%'
    · subst hrun
      simp [item, Regex.Matches, like_run, hdot, ih]
    · by_cases hone : c = '_'
      · subst hone
        simp [item, Regex.Matches, like_one, hdot, ih]
      · simp [item, hrun, hone, Regex.Matches, like_char hrun hone, ih]

end Matching

/-- The flags let a dot match everything, and let characters match those of the other case only
    on demand. -/
private theorem ofFlags_flags {lineBreak : Char → Prop} {sameCase : Char → Char → Prop}
    {p : LikePattern} :
    Dialect.ofFlags lineBreak sameCase p.flags =
      ⟨fun _ => True, if p.caseInsensitive then sameCase else (· = ·)⟩ := by
  obtain ⟨source, caseInsensitive⟩ := p
  cases caseInsensitive with
  | false => simp [Dialect.ofFlags, flags]
  | true => simp [Dialect.ofFlags, flags]

/-- The translation is exact: the text that a pattern is translated to is a regular expression, and
    under its flags it matches exactly the texts that the pattern matches. -/
theorem source_matches_iff_like (lineBreak : Char → Prop) (sameCase : Char → Char → Prop)
    (pattern s : String) (caseInsensitive : Bool) :
    ∃ items, Regex.read (ofPattern pattern caseInsensitive).source.toList = some items ∧
      (Regex.Matches
          (.ofFlags lineBreak sameCase (ofPattern pattern caseInsensitive).flags) items s.toList ↔
        Like (if caseInsensitive then sameCase else (· = ·)) pattern.toList s.toList) := by
  refine ⟨pattern.toList.map item, ?_, ?_⟩
  · rw [ofPattern, String.toList_ofList]
    exact read_regex pattern.toList
  · rw [ofFlags_flags]
    exact matches_items fun _ => trivial

end DocQuery.LikePattern
