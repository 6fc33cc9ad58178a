-- SUMMARY: The grammar of numbers in JSON texts; the scanner takes exactly its numbers.
import DocQuery.Json.Reader
import Mathlib

/-!
# Numbers as texts spell them

`Numeral.Spelled` is the grammar of numbers. The scanner is complete for it, whatever follows the
number as long as it does not continue it (`scan_append`), and sound (`exists_spelled_of_scan`).
-/

namespace DocQuery.Json

/-! ## Grammar -/

/-- One digit or more. -/
def Digits (cs : List Char) : Prop :=
  cs ≠ [] ∧ ∀ c ∈ cs, c.isDigit = true

/-- The sign of an exponent, and whether it is a minus. -/
inductive ExponentSign : Bool → List Char → Prop where
  | bare : ExponentSign false []
  | plus : ExponentSign false ['+']
  | minus : ExponentSign true ['-']

inductive Fraction : List Char → List Char → Prop where
  | absent : Fraction [] []
  | present {digits : List Char} : Digits digits → Fraction digits ('.' :: digits)

inductive Exponent : Option (Bool × List Char) → List Char → Prop where
  | absent : Exponent none []
  | present {e : Char} {down : Bool} {sign digits : List Char} : e = 'e' ∨ e = 'E' →
    ExponentSign down sign → Digits digits → Exponent (some (down, digits)) (e :: (sign ++ digits))

/-- The spellings of a number. Its whole part starts with a zero only if that is all of it. -/
inductive Numeral.Spelled : Numeral → List Char → Prop where
  | intro {negative : Bool} {whole fraction fractionText exponentText : List Char}
      {exponent : Option (Bool × List Char)} : Digits whole →
    (whole.head? = some '0' → whole = ['0']) → Fraction fraction fractionText →
    Exponent exponent exponentText →
    Spelled { negative, whole, fraction, exponent }
      ((if negative then ['-'] else []) ++ (whole ++ (fractionText ++ exponentText)))

/-- Whether a number may go on with this character. -/
def continuesNumber (c : Char) : Bool :=
  c.isDigit || c == '.' || c == 'e' || c == 'E'

/-- A text that does not continue the number before it. -/
def Ends (rest : List Char) : Prop :=
  ∀ c ∈ rest.head?, continuesNumber c = false

/-! ## Completeness -/

namespace Numeral

private theorem digitRun_append {digits rest : List Char} (hdigits : Digits digits)
    (hrest : ∀ c ∈ rest.head?, c.isDigit = false) : digitRun (digits ++ rest) = (digits, rest) := by
  rw [digitRun, List.takeWhile_append_of_pos hdigits.2, List.dropWhile_append_of_pos hdigits.2]
  cases rest with
  | nil => simp
  | cons c rest =>
    have hc : c.isDigit = false := hrest c rfl
    simp [hc]

private theorem isDigit_of_ends {rest : List Char} (h : Ends rest) :
    ∀ c ∈ rest.head?, c.isDigit = false := by
  intro c hc
  have := h c hc
  simp_all [continuesNumber]

private theorem scanExponent_append {x : Numeral} {exponent : Option (Bool × List Char)}
    {text rest : List Char} (hx : x.exponent = none) (h : Exponent exponent text)
    (hrest : Ends rest) :
    scanExponent x (text ++ rest) = (.value { x with exponent }, rest) := by
  cases h with
  | absent =>
    cases rest with
    | nil => simp [scanExponent, ← hx]
    | cons c rest =>
      have hc := hrest c rfl
      simp only [continuesNumber, Bool.or_eq_false_iff] at hc
      simp [scanExponent, hc, ← hx]
  | @present e down sign digits he hsign hdigits =>
    have hletter : (e == 'e' || e == 'E') = true := by simpa using he
    have hrun := digitRun_append hdigits (isDigit_of_ends hrest)
    obtain ⟨d, ds, rfl⟩ := List.exists_cons_of_ne_nil hdigits.1
    rw [List.cons_append] at hrun
    have hd : d.isDigit = true := hdigits.2 d List.mem_cons_self
    have hplus : d ≠ '+' := by rintro rfl; cases hd
    have hminus : d ≠ '-' := by rintro rfl; cases hd
    cases hsign with
    | bare => simp [scanExponent, hletter, hplus, hminus, hrun]
    | plus => simp [scanExponent, hletter, hrun]
    | minus => simp [scanExponent, hletter, hrun]

/-- An exponent starts with a letter. -/
theorem head_exponent {exponent : Option (Bool × List Char)} {text rest : List Char}
    (h : Exponent exponent text) (hrest : Ends rest) :
    ∀ c ∈ (text ++ rest).head?, c.isDigit = false ∧ c ≠ '.' := by
  intro c hc
  cases h with
  | absent =>
    have hends := hrest c hc
    simp_all [continuesNumber]
  | present he =>
    cases hc
    rcases he with rfl | rfl
    · decide
    · decide

private theorem scanFraction_append {x : Numeral}
    {fraction fractionText exponentText rest : List Char} {exponent : Option (Bool × List Char)}
    (hx : x.fraction = []) (hnone : x.exponent = none) (hfraction : Fraction fraction fractionText)
    (hexponent : Exponent exponent exponentText) (hrest : Ends rest) :
    scanFraction x (fractionText ++ (exponentText ++ rest)) =
      (.value { x with fraction, exponent }, rest) := by
  have hnext := head_exponent hexponent hrest
  cases hfraction with
  | absent =>
    have hexp := scanExponent_append hnone hexponent hrest
    rw [List.nil_append, ← hx, ← hexp]
    unfold scanFraction
    split
    next more heq =>
      rw [heq] at hnext
      exact absurd rfl (hnext '.' rfl).2
    next => rfl
  | @present digits hdigits =>
    have hrun := digitRun_append hdigits fun c hc => (hnext c hc).1
    have hexp := scanExponent_append (x := { x with fraction }) hnone hexponent hrest
    obtain ⟨d, ds, rfl⟩ := List.exists_cons_of_ne_nil hdigits.1
    rw [List.cons_append] at hrun
    simp [scanFraction, hrun, hexp]

private theorem scanWhole_append {negative : Bool}
    {whole fraction fractionText exponentText rest : List Char}
    {exponent : Option (Bool × List Char)} (hwhole : Digits whole)
    (hzero : whole.head? = some '0' → whole = ['0']) (hfraction : Fraction fraction fractionText)
    (hexponent : Exponent exponent exponentText) (hrest : Ends rest) :
    scanWhole negative (whole ++ (fractionText ++ (exponentText ++ rest))) =
      (.value { negative, whole, fraction, exponent }, rest) := by
  have hnext : ∀ c ∈ (fractionText ++ (exponentText ++ rest)).head?, c.isDigit = false := by
    intro c hc
    cases hfraction with
    | absent => exact (head_exponent hexponent hrest c hc).1
    | present =>
      cases hc
      rfl
  have hrun := digitRun_append hwhole hnext
  have hscan := scanFraction_append (x := { negative, whole }) rfl rfl hfraction hexponent hrest
  unfold scanWhole
  rw [hrun]
  split
  next heq => exact absurd (congrArg Prod.fst heq) hwhole.1
  next heq =>
    cases heq
    exact absurd (hzero rfl) (by simp)
  next heq =>
    cases heq
    exact hscan

theorem Spelled.scan_append {x : Numeral} {text rest : List Char} (h : x.Spelled text)
    (hrest : Ends rest) : scan (text ++ rest) = (.value x, rest) := by
  obtain @⟨negative, whole, fraction, fractionText, exponentText, exponent, hwhole, hzero,
    hfraction, hexponent⟩ := h
  have hscan : scanWhole negative _ = _ :=
    scanWhole_append hwhole hzero hfraction hexponent hrest
  rw [List.append_assoc, List.append_assoc, List.append_assoc]
  cases negative with
  | true => exact hscan
  | false =>
    obtain ⟨d, ds, rfl⟩ := List.exists_cons_of_ne_nil hwhole.1
    have hd : d.isDigit = true := hwhole.2 d List.mem_cons_self
    have hminus : d ≠ '-' := by rintro rfl; cases hd
    simpa [scan, hminus] using hscan

/-! ## Soundness -/

private theorem eq_append_of_digitRun {cs digits rest : List Char}
    (h : digitRun cs = (digits, rest)) :
    cs = digits ++ rest ∧ ∀ c ∈ digits, c.isDigit = true := by
  cases h
  refine ⟨List.takeWhile_append_dropWhile.symm, ?_⟩
  intro c hc
  exact List.mem_takeWhile_imp hc

private theorem noDigit_read_ne {cs rest : List Char} {lexeme : Lexeme Numeral} {x : Numeral}
    (h : noDigit cs = (lexeme, rest)) : lexeme.read ≠ .ok x := by
  cases cs with
  | nil =>
    cases h
    exact nofun
  | cons =>
    cases h
    exact nofun

/-- The sign that an exponent starts with, and what follows it. -/
def takeSign : List Char → Bool × List Char
  | '+' :: rest => (false, rest)
  | '-' :: rest => (true, rest)
  | rest => (false, rest)

private theorem exists_sign (cs : List Char) :
    ∃ sign, ExponentSign (takeSign cs).1 sign ∧ cs = sign ++ (takeSign cs).2 := by
  unfold takeSign
  split
  · exact ⟨_, .plus, rfl⟩
  · exact ⟨_, .minus, rfl⟩
  · exact ⟨_, .bare, rfl⟩

/-- The exponent that a run of digits completes. -/
def exponentOf (x : Numeral) (down : Bool) (run : List Char × List Char) :
    Lexeme Numeral × List Char :=
  if run.1 = [] then noDigit run.2
  else (.value { x with exponent := some (down, run.1) }, run.2)

private theorem scanExponent_letter {x : Numeral} {c : Char} {cs : List Char}
    (h : (c == 'e' || c == 'E') = true) :
    scanExponent x (c :: cs) = exponentOf x (takeSign cs).1 (digitRun (takeSign cs).2) := by
  unfold scanExponent
  dsimp only
  rw [if_pos h]
  split
  next rest heq =>
    have hrun : digitRun (takeSign cs).2 = ([], rest) := heq
    rw [exponentOf, hrun, if_pos rfl]
  next digits rest hne heq =>
    have hrun : digitRun (takeSign cs).2 = (digits, rest) := heq
    rw [exponentOf, hrun, if_neg hne]
    rfl

private theorem exists_exponent_of_scan {x y : Numeral} {cs rest : List Char}
    {lexeme : Lexeme Numeral} (hx : x.exponent = none) (h : scanExponent x cs = (lexeme, rest))
    (hread : lexeme.read = .ok y) :
    ∃ exponent text, Exponent exponent text ∧ cs = text ++ rest ∧ y = { x with exponent } := by
  have habsent : (Lexeme.value x, cs) = (lexeme, rest) → ∃ exponent text, Exponent exponent text ∧
      cs = text ++ rest ∧ y = { x with exponent } := by
    intro h
    cases h
    cases hread
    exact ⟨none, [], .absent, rfl, by rw [← hx]⟩
  cases cs with
  | nil => exact habsent h
  | cons c cs =>
    by_cases hletter : (c == 'e' || c == 'E') = true
    · obtain ⟨sign, hsign, hcs⟩ := exists_sign cs
      rcases hrun : digitRun (takeSign cs).2 with ⟨digits, more⟩
      obtain ⟨hmore, hdigits⟩ := eq_append_of_digitRun hrun
      rw [scanExponent_letter hletter, hrun, exponentOf] at h
      split at h
      next => exact absurd hread (noDigit_read_ne h)
      next hne =>
        cases h
        cases hread
        refine ⟨_, _, .present (by simpa using hletter) hsign ⟨hne, hdigits⟩, ?_, rfl⟩
        rw [List.cons_append, List.append_assoc, ← hmore, ← hcs]
    · unfold scanExponent at h
      dsimp only at h
      rw [if_neg hletter] at h
      exact habsent h

private theorem exists_fraction_of_scan {x y : Numeral} {cs rest : List Char}
    {lexeme : Lexeme Numeral} (hx : x.fraction = []) (hnone : x.exponent = none)
    (h : scanFraction x cs = (lexeme, rest)) (hread : lexeme.read = .ok y) :
    ∃ fraction fractionText exponent exponentText, Fraction fraction fractionText ∧
      Exponent exponent exponentText ∧ cs = fractionText ++ (exponentText ++ rest) ∧
      y = { x with fraction, exponent } := by
  unfold scanFraction at h
  split at h
  next =>
    split at h
    next => exact absurd hread (noDigit_read_ne h)
    next digits more hne hrun =>
      obtain ⟨rfl, hdigits⟩ := eq_append_of_digitRun hrun
      obtain ⟨exponent, text, hexponent, rfl, rfl⟩ :=
        exists_exponent_of_scan (x := { x with fraction := digits }) hnone h hread
      exact ⟨digits, _, exponent, text, .present ⟨hne, hdigits⟩, hexponent, rfl, rfl⟩
  next =>
    obtain ⟨exponent, text, hexponent, hcs, rfl⟩ := exists_exponent_of_scan hnone h hread
    exact ⟨[], [], exponent, text, .absent, hexponent, hcs, by rw [← hx]⟩

private theorem exists_spelled_of_scanWhole {negative : Bool} {y : Numeral} {cs rest : List Char}
    {lexeme : Lexeme Numeral} (h : scanWhole negative cs = (lexeme, rest))
    (hread : lexeme.read = .ok y) :
    ∃ text, cs = text ++ rest ∧ y.Spelled ((if negative then ['-'] else []) ++ text) := by
  unfold scanWhole at h
  split at h
  next => exact absurd hread (noDigit_read_ne h)
  next =>
    cases h
    cases hread
  next digits more hne hzero hrun =>
    obtain ⟨rfl, hdigits⟩ := eq_append_of_digitRun hrun
    have hlone : digits.head? = some '0' → digits = ['0'] := by
      intro hhead
      cases digits with
      | nil => cases hhead
      | cons d ds =>
        cases hhead
        cases ds with
        | nil => rfl
        | cons d' ds => exact (hzero _ _ rfl).elim
    obtain ⟨fraction, fractionText, exponent, exponentText, hfraction, hexponent, rfl, rfl⟩ :=
      exists_fraction_of_scan rfl rfl h hread
    refine ⟨digits ++ (fractionText ++ exponentText), by simp, ?_⟩
    exact .intro ⟨hne, hdigits⟩ hlone hfraction hexponent

theorem exists_spelled_of_scan {x : Numeral} {cs rest : List Char} {lexeme : Lexeme Numeral}
    (h : scan cs = (lexeme, rest)) (hread : lexeme.read = .ok x) :
    ∃ text, cs = text ++ rest ∧ x.Spelled text := by
  unfold scan at h
  split at h
  next =>
    obtain ⟨text, rfl, hspelled⟩ := exists_spelled_of_scanWhole h hread
    exact ⟨_, rfl, hspelled⟩
  next =>
    obtain ⟨text, rfl, hspelled⟩ := exists_spelled_of_scanWhole h hread
    exact ⟨_, rfl, hspelled⟩

end Numeral

end DocQuery.Json
