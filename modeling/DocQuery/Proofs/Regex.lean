-- SUMMARY: A fragment of regular expressions: how their text is read, and what they match.
import DocQuery.LikePattern

/-!
# Regular expressions

The fragment has anchors at both ends and between them dots, dots under a star, characters that
stand for themselves, and escaped syntax characters. Everything else is refused, so a text of the
fragment can be read in one way only.

What a dot and a character match depends on the flags: a dot leaves out line breaks unless there
is an `s`, and a character matches only itself unless there is an `i`.
-/

namespace DocQuery.Regex

/-- A part of a regular expression between its anchors. -/
inductive Item (α : Type) where
  /-- A dot. -/
  | any
  /-- A dot under a star. -/
  | anyRun
  | char (c : α)
deriving DecidableEq, Repr

/-! ## Reading -/

/-- The characters that stand for something else unless they are escaped. -/
def syntaxCharacters : List Char :=
  ['^', '$', '\\', '.', '*', '+', '?', '(', ')', '[', ']', '\x7b', '\x7d', '|']

/-- Reads the text behind the first anchor. -/
def readItems : List Char → Option (List (Item Char))
  | [] => none
  | ['$'] => some []
  | '.' :: '*' :: rest => (readItems rest).map (.anyRun :: ·)
  | '.' :: rest => (readItems rest).map (.any :: ·)
  | '\\' :: c :: rest =>
    if c ∈ syntaxCharacters then (readItems rest).map (.char c :: ·) else none
  | c :: rest =>
    if c ∈ syntaxCharacters then none else (readItems rest).map (.char c :: ·)

/-- Reads the text of a regular expression. -/
def read : List Char → Option (List (Item Char))
  | '^' :: rest => readItems rest
  | _ => none

theorem readItems_anyRun {rest : List Char} :
    readItems ('.' :: '*' :: rest) = (readItems rest).map (.anyRun :: ·) := by
  rw [readItems]

/-- A dot is under a star only if the star comes next. -/
theorem readItems_any {rest : List Char} (h : rest.head? ≠ some '*') :
    readItems ('.' :: rest) = (readItems rest).map (.any :: ·) := by
  rw [readItems]
  intro tail htail
  simp [htail] at h

theorem readItems_escaped {c : Char} {rest : List Char} (h : c ∈ syntaxCharacters) :
    readItems ('\\' :: c :: rest) = (readItems rest).map (.char c :: ·) := by
  rw [readItems, if_pos h]

theorem readItems_char {c : Char} {rest : List Char} (h : c ∉ syntaxCharacters) :
    readItems (c :: rest) = (readItems rest).map (.char c :: ·) := by
  have hne : ∀ d ∈ syntaxCharacters, c ≠ d := fun d hd hcd => h (hcd ▸ hd)
  rw [readItems, if_neg h]
  · exact fun hc => absurd hc (hne '$' (by decide))
  · exact fun _ hc => absurd hc (hne '.' (by decide))
  · exact fun hc => absurd hc (hne '.' (by decide))
  · exact fun _ _ hc => absurd hc (hne '\\' (by decide))

/-! ## Matching -/

/-- What a dot and a character match. -/
structure Dialect (α : Type) where
  dot : α → Prop
  char : α → α → Prop

/-- The dialect that flags choose, for given line breaks and a given equivalence of cases. -/
def Dialect.ofFlags {α : Type} (lineBreak : α → Prop) (sameCase : α → α → Prop)
    (flags : String) : Dialect α where
  dot c := 's' ∈ flags.toList ∨ ¬ lineBreak c
  char c d := if 'i' ∈ flags.toList then sameCase c d else c = d

/-- The items match a text from its first to its last character. -/
def Matches {α : Type} (D : Dialect α) : List (Item α) → List α → Prop
  | [], s => s = []
  | .any :: items, s => ∃ c rest, s = c :: rest ∧ D.dot c ∧ Matches D items rest
  | .anyRun :: items, s =>
    ∃ run rest, s = run ++ rest ∧ (∀ c ∈ run, D.dot c) ∧ Matches D items rest
  | .char c :: items, s => ∃ d rest, s = d :: rest ∧ D.char c d ∧ Matches D items rest

end DocQuery.Regex
