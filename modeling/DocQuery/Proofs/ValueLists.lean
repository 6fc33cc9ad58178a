-- SUMMARY: Lists of values in texts are read element by element, each as if it stood alone.
import DocQuery.Proofs.Normalisation
import DocQuery.Proofs.Spelling

/-!
# Lists of values

A text that scans as a value does so wherever it stands, as long as what follows does not continue
it (`Scans`). Numbers do, in range or not, and so does every text that alone is read as a literal.
So the elements of a list are read one by one, each as it would be read alone
(`decode_valuesText`).
-/

namespace DocQuery

namespace Json

/-! ## Blanks -/

private theorem skipBlanks_append_of_cons {cs core : List Char} {c : Char}
    (h : skipBlanks cs = c :: core) (rest : List Char) :
    skipBlanks (cs ++ rest) = c :: (core ++ rest) := by
  rw [skipBlanks] at h
  simp [skipBlanks, List.dropWhile_append, h]

private theorem skipBlanks_append_of_nil {cs : List Char} (h : skipBlanks cs = [])
    (rest : List Char) :
    skipBlanks (cs ++ rest) = skipBlanks rest := by
  rw [skipBlanks] at h
  simp [skipBlanks, List.dropWhile_append, h]

private theorem skipBlanks_eq_nil {cs : List Char} :
    skipBlanks cs = [] ↔ ∀ c ∈ cs, isBlank c = true := by
  simp [skipBlanks, List.dropWhile_eq_nil_iff]

private theorem continuesNumber_of_isBlank {c : Char} (h : isBlank c = true) :
    continuesNumber c = false := by
  simp only [isBlank, Bool.or_eq_true, beq_iff_eq] at h
  rcases h with ((rfl | rfl) | rfl) | rfl
  all_goals rfl

private theorem Ends.append_of_blanks {cs rest : List Char} (h : skipBlanks cs = [])
    (hrest : Ends rest) :
    Ends (cs ++ rest) := by
  cases cs with
  | nil => exact hrest
  | cons c cs =>
    intro c' hc
    cases hc
    exact continuesNumber_of_isBlank (skipBlanks_eq_nil.1 h c List.mem_cons_self)

private theorem ends_of_blanks {cs : List Char} (h : skipBlanks cs = []) : Ends cs := by
  rw [← List.append_nil cs]
  exact Ends.append_of_blanks h nofun

private theorem scanValue_skipBlanks (fuel : ℕ) (cs : List Char) :
    scanValue fuel (skipBlanks cs) = scanValue fuel cs := by
  cases fuel with
  | zero => rfl
  | succ fuel => simp only [scanValue, skipBlanks, List.dropWhile_idempotent]

/-! ## Texts that scan as a value wherever they stand -/

/-- The text scans as the draft, whatever follows it without continuing it. -/
structure Scans (cs : List Char) (d : Draft) : Prop where
  opens : ∃ c core, skipBlanks cs = c :: core ∧ c ≠ ']'
  value : ∀ (fuel : ℕ) {rest : List Char}, Ends rest → ∃ after,
    scanValue (fuel + 1) (cs ++ rest) = (d, after) ∧ skipBlanks after = skipBlanks rest

/-- What a number is to a reader and to one who steps over it. -/
def Numeral.lexeme (x : Numeral) : Lexeme Number where
  read := match x.value? with
    | some n => .ok n
    | none => .error .malformed
  skip := .ok ()

/-- The text holds the number and nothing but blanks around it. -/
def Numeral.Fills (x : Numeral) (cs : List Char) : Prop :=
  ∃ before text after, (∀ c ∈ before, isBlank c = true) ∧ (∀ c ∈ after, isBlank c = true) ∧
    x.Spelled text ∧ cs = before ++ (text ++ after)

private theorem scanNumber_append {x : Numeral} {text rest : List Char} (h : x.Spelled text)
    (hrest : Ends rest) : scanNumber (text ++ rest) = (x.lexeme, rest) := by
  rw [scanNumber, h.scan_append hrest]
  rfl

private theorem exists_spelled_of_scanNumber {cs : List Char} {n : Number}
    (h : (scanNumber cs).1.read = .ok n) :
    ∃ x text, Numeral.Spelled x text ∧ cs = text ++ (scanNumber cs).2 := by
  rw [scanNumber] at h ⊢
  dsimp only at h ⊢
  split at h
  next x hx =>
    obtain ⟨text, hcs, hspelled⟩ := Numeral.exists_spelled_of_scan rfl hx
    exact ⟨x, text, hspelled, hcs⟩
  next => cases h

/-- Nothing but a number starts with a minus or a digit. -/
private theorem scanValue_of_number {cs core : List Char} {c : Char} (fuel : ℕ)
    (hcs : skipBlanks cs = c :: core) (hc : (c == '-' || c.isDigit) = true) :
    scanValue (fuel + 1) cs =
      (.number (scanNumber (c :: core)).1, (scanNumber (c :: core)).2) := by
  unfold scanValue
  rw [hcs]
  split
  case h_1 heq => cases heq
  case h_8 heq =>
    cases heq
    rw [if_pos hc]
  all_goals next heq =>
    cases heq
    cases hc

private theorem Numeral.Spelled.exists_cons {x : Numeral} {text : List Char} (h : x.Spelled text) :
    ∃ c core, text = c :: core ∧ (c == '-' || c.isDigit) = true ∧ isBlank c = false := by
  obtain @⟨negative, whole, fraction, fractionText, exponentText, exponent, hwhole, -, -, -⟩ := h
  obtain ⟨d, ds, rfl⟩ := List.exists_cons_of_ne_nil hwhole.1
  cases negative with
  | true => exact ⟨_, _, rfl, by decide, by decide⟩
  | false =>
    have hd : d.isDigit = true := hwhole.2 d List.mem_cons_self
    refine ⟨_, _, rfl, by rw [hd, Bool.or_true], ?_⟩
    rw [Bool.eq_false_iff]
    intro hblank
    have hends := continuesNumber_of_isBlank hblank
    rw [continuesNumber, hd] at hends
    cases hends

private theorem Numeral.Spelled.scans {x : Numeral} {text cs after : List Char} (h : x.Spelled text)
    (hcs : skipBlanks cs = text ++ after) (hafter : skipBlanks after = []) :
    Scans cs (.number x.lexeme) := by
  obtain ⟨c, core, rfl, hc, -⟩ := h.exists_cons
  refine ⟨⟨c, _, hcs, ?_⟩, ?_⟩
  · rintro rfl
    cases hc
  · intro fuel rest hrest
    refine ⟨after ++ rest, ?_, skipBlanks_append_of_nil hafter rest⟩
    have hscan := scanNumber_append h (hrest.append_of_blanks hafter)
    rw [List.cons_append] at hcs hscan
    rw [scanValue_of_number fuel (skipBlanks_append_of_cons hcs rest) hc, List.append_assoc, hscan]

theorem Numeral.Fills.scans {x : Numeral} {cs : List Char} (h : x.Fills cs) :
    Scans cs (.number x.lexeme) := by
  obtain ⟨before, text, after, hbefore, hafter, hspelled, rfl⟩ := h
  refine hspelled.scans ?_ (skipBlanks_eq_nil.2 hafter)
  obtain ⟨c, core, rfl, -, hc⟩ := hspelled.exists_cons
  rw [skipBlanks_append_of_nil (skipBlanks_eq_nil.2 hbefore), skipBlanks, List.cons_append,
    List.dropWhile_cons_of_neg (by simp [hc])]

/-! ## Words and strings -/

private theorem expectWord_append {word cs rest : List Char} (h : expectWord word cs = .ok rest)
    (more : List Char) : expectWord word (cs ++ more) = .ok (rest ++ more) := by
  fun_induction expectWord word cs with
  | case1 cs =>
    cases h
    rfl
  | case2 => cases h
  | case3 w ws c cs heq ih =>
    rw [List.cons_append, expectWord, if_pos heq]
    exact ih h
  | case4 => cases h

private theorem units_append {cs rest : List Char} {us : List StringUnit}
    (h : StringLiteral.units cs = (us, .ok rest)) (more : List Char) :
    StringLiteral.units (cs ++ more) = (us, .ok (rest ++ more)) := by
  fun_induction StringLiteral.units cs generalizing us with
  | case1 => cases h
  | case2 rest =>
    cases h
    rfl
  | case3 => cases h
  | case4 a b c d cs n hn us' stop heq ih =>
    cases h
    simp [StringLiteral.units, hn, ih heq]
  | case5 => cases h
  | case6 => cases h
  | case7 c cs _ hu e he us' stop heq ih =>
    cases h
    rw [List.cons_append, List.cons_append, StringLiteral.units, he, ih heq]
    · exact fun _ _ _ _ _ hc => absurd hc hu
    · exact hu
  | case8 => cases h
  | case9 => cases h
  | case10 c cs hquote hlast _ _ hescape hprintable us' stop heq ih =>
    cases h
    have hbackslash : c ≠ '\\' := by
      intro hc
      cases cs with
      | nil => exact hlast hc rfl
      | cons c' cs => exact hescape c' cs hc rfl
    simp [StringLiteral.units, hbackslash, hprintable, ih heq]

/-- A literal that breaks off spells nothing. -/
private theorem stop_of_spell {stop : Except Fault Unit} {us : List StringUnit} {cs : List Char}
    (h : StringLiteral.spell stop us = .ok cs) : stop = .ok () := by
  fun_induction StringLiteral.spell stop us generalizing cs with
  | case1 =>
    obtain ⟨_, hstop, -⟩ := exists_of_map_eq_ok h
    exact hstop
  | case2 c rest ih =>
    obtain ⟨_, hrest, -⟩ := exists_of_map_eq_ok h
    exact ih hrest
  | case3 => cases h
  | case4 =>
    obtain ⟨_, hstop, -⟩ := bind_eq_ok.1 h
    exact hstop
  | case5 =>
    obtain ⟨_, hstop, -⟩ := exists_of_map_eq_ok h
    exact hstop
  | case6 => cases h
  | case7 n m rest _ _ _ ih =>
    obtain ⟨_, hrest, -⟩ := exists_of_map_eq_ok h
    exact ih hrest
  | case8 => cases h
  | case9 n m rest _ _ ih =>
    obtain ⟨_, hrest, -⟩ := exists_of_map_eq_ok h
    exact ih hrest
  | case10 => cases h
  | case11 n c rest _ ih =>
    obtain ⟨_, hrest, -⟩ := exists_of_map_eq_ok h
    exact ih hrest

private theorem scanString_append {cs rest : List Char} {lexeme : Lexeme String} {s : String}
    (h : scanString cs = (lexeme, rest)) (hread : lexeme.read = .ok s) (more : List Char) :
    scanString (cs ++ more) = (lexeme, rest ++ more) := by
  unfold scanString at h ⊢
  rcases hunits : StringLiteral.units cs with ⟨us, stop⟩
  rw [hunits] at h
  cases h
  obtain ⟨_, hspell, -⟩ := exists_of_map_eq_ok hread
  cases stop with
  | error fault => cases stop_of_spell hspell
  | ok rest =>
    rw [units_append hunits more]
    rfl

private theorem scanWord_append {value d : Draft} {word cs rest : List Char} {j : Json}
    (h : scanWord value word cs = (d, rest)) (hread : d.toJson 0 = .ok j) (more : List Char) :
    scanWord value word (cs ++ more) = (d, rest ++ more) := by
  unfold scanWord at h ⊢
  split at h
  next hword =>
    cases h
    rw [expectWord_append hword]
  next =>
    cases h
    cases hread

/-! ## Texts that alone are literals -/

private theorem Scans.of_append {cs core rest : List Char} {c : Char} {d : Draft}
    (hcs : skipBlanks cs = c :: core) (hc : c ≠ ']') (hrest : skipBlanks rest = [])
    (h : ∀ fuel more, scanValue (fuel + 1) (cs ++ more) = (d, rest ++ more)) : Scans cs d where
  opens := ⟨c, core, hcs, hc⟩
  value fuel more _ := ⟨rest ++ more, h fuel more, skipBlanks_append_of_nil hrest more⟩

theorem Scans.of_scanValue {fuel : ℕ} {cs rest : List Char} {d : Draft} {j : Json}
    (h : scanValue fuel cs = (d, rest)) (hrest : skipBlanks rest = [])
    (hread : d.toJson 0 = .ok j) : Scans cs d := by
  cases fuel with
  | zero =>
    cases h
    cases hread
  | succ fuel =>
    simp only [scanValue] at h
    -- By the first character: the end of the text, a string, the two containers and a number; the
    -- three words are left over and alike.
    split at h
    case h_1 =>
      cases h
      cases hread
    case h_5 core hcs =>
      cases h
      obtain ⟨s, hs, -⟩ := exists_of_map_eq_ok hread
      refine .of_append hcs (by decide) hrest fun fuel more => ?_
      have hscan : scanString (core ++ more) = ((scanString core).1, (scanString core).2 ++ more) :=
        scanString_append rfl hs more
      simp only [scanValue, skipBlanks_append_of_cons hcs more, hscan]
    case h_6 =>
      cases h
      cases hread
    case h_7 =>
      cases h
      cases hread
    case h_8 c core _ _ _ _ _ _ hcs =>
      split at h
      next hc =>
        cases h
        obtain ⟨n, hn, -⟩ := exists_of_map_eq_ok hread
        obtain ⟨x, text, hspelled, htext⟩ := exists_spelled_of_scanNumber hn
        have hscan := scanNumber_append hspelled (ends_of_blanks hrest)
        rw [← htext] at hscan
        rw [hscan] at htext hrest ⊢
        exact hspelled.scans (hcs.trans htext) hrest
      next =>
        cases h
        cases hread
    all_goals next core hcs =>
      refine .of_append hcs (by decide) hrest fun fuel more => ?_
      simp only [scanValue, skipBlanks_append_of_cons hcs more, scanWord_append h hread more]

/-! ## Elements in a row -/

def Items.ofDrafts : List Draft → Items
  | [] => .close
  | d :: rest => .item d (Items.ofDrafts rest)

private theorem Scans.scanItem_last {cs : List Char} {d : Draft} (h : Scans cs d) (fuel : ℕ)
    (rest : List Char) : scanItem (fuel + 2) (cs ++ ']' :: rest) = (.item d .close, rest) := by
  have hends : Ends (']' :: rest) := fun c hc => by
    cases hc
    rfl
  obtain ⟨after, hscan, hafter⟩ := h.value fuel hends
  have hclose : skipBlanks (']' :: rest) = ']' :: rest := rfl
  simp only [scanItem, hscan, hafter, hclose]

private theorem Scans.scanItem_comma {cs : List Char} {d : Draft} (h : Scans cs d) (fuel : ℕ)
    (rest : List Char) :
    scanItem (fuel + 2) (cs ++ ',' :: rest) =
      (.item d (scanItem (fuel + 1) rest).1, (scanItem (fuel + 1) rest).2) := by
  have hends : Ends (',' :: rest) := fun c hc => by
    cases hc
    rfl
  obtain ⟨after, hscan, hafter⟩ := h.value fuel hends
  have hcomma : skipBlanks (',' :: rest) = ',' :: rest := rfl
  rw [scanItem]
  simp only [hscan, hafter, hcomma]

private theorem length_le_intercalate (css : List (List Char)) :
    css.length ≤ ([','].intercalate css).length + 1 := by
  induction css with
  | nil => exact Nat.zero_le _
  | cons cs css ih =>
    cases css with
    | nil => exact Nat.le_add_left 1 _
    | cons cs' css =>
      rw [List.intercalate_cons_cons, List.length_append, List.length_append, List.length_singleton,
        List.length_cons]
      omega

/-- Each element takes a step, and its value one more. -/
private theorem scanItem_intercalate {css : List (List Char)} {ds : List Draft} {cs : List Char}
    {d : Draft} (hd : Scans cs d) (hds : List.Forall₂ Scans css ds) {fuel : ℕ}
    (hfuel : css.length + 2 ≤ fuel) (rest : List Char) :
    scanItem fuel ([','].intercalate (cs :: css) ++ ']' :: rest) =
      (.item d (.ofDrafts ds), rest) := by
  induction hds generalizing cs d fuel with
  | nil =>
    obtain ⟨fuel, rfl⟩ := Nat.exists_eq_add_of_le' hfuel
    rw [List.intercalate_singleton]
    exact hd.scanItem_last fuel rest
  | @cons cs' d' css ds hd' hds ih =>
    obtain ⟨fuel, rfl⟩ := Nat.exists_eq_add_of_le' ((Nat.le_add_left 2 _).trans hfuel)
    have hlength : css.length + 2 ≤ fuel + 1 := by
      rw [List.length_cons] at hfuel
      omega
    have hrest := ih hd' hlength
    rw [List.intercalate_cons_cons, List.append_assoc, List.append_assoc, List.singleton_append,
      hd.scanItem_comma, hrest]
    rfl

private theorem scanFirstItem_intercalate {css : List (List Char)} {ds : List Draft}
    (h : List.Forall₂ Scans css ds) {fuel : ℕ} (hfuel : css.length + 2 ≤ fuel)
    (rest : List Char) :
    scanFirstItem fuel ([','].intercalate css ++ ']' :: rest) = (.ofDrafts ds, rest) := by
  obtain ⟨fuel, rfl⟩ := Nat.exists_eq_add_of_le' ((Nat.le_add_left 2 _).trans hfuel)
  cases h with
  | nil => rfl
  | @cons cs d css ds hd hds =>
    have hlength : css.length + 2 ≤ fuel + 1 := by
      rw [List.length_cons] at hfuel
      omega
    have hscan := scanItem_intercalate hd hds hlength rest
    obtain ⟨c, core, hcs, hc⟩ := hd.opens
    obtain ⟨tail, htail⟩ : ∃ tail, [','].intercalate (cs :: css) ++ ']' :: rest = cs ++ tail := by
      cases css with
      | nil => exact ⟨_, by rw [List.intercalate_singleton]⟩
      | cons => exact ⟨_, by rw [List.intercalate_cons_cons, List.append_assoc, List.append_assoc]⟩
    rw [htail] at hscan ⊢
    have hskip := skipBlanks_append_of_cons hcs tail
    rw [scanItem, ← scanValue_skipBlanks, hskip] at hscan
    rw [scanFirstItem, hskip]
    split
    next heq => cases heq
    next heq =>
      cases heq
      exact absurd rfl hc
    next => rwa [scanItem]

end Json

open Json (Numeral Draft Scans)

/-! ## Reading -/

variable {α : Type}

private theorem decode_of_scanValue {read : ℕ → Draft → Except ReadError α} {text : String}
    {d : Draft} {rest : List Char}
    (h : Json.scanValue (3 * text.toList.length + 3) text.toList = (d, rest))
    (hrest : Json.skipBlanks rest = []) : decode read text = read maxRoom d := by
  simp only [decode, Json.Document.ofText, h, hrest, List.isEmpty_nil, Bool.not_true]
  cases read maxRoom d with
  | ok a => rfl
  | error e => rfl

theorem decode_of_scans {read : ℕ → Draft → Except ReadError α} {text : String} {d : Draft}
    (h : Scans text.toList d) : decode read text = read maxRoom d := by
  have hends : Json.Ends [] := nofun
  obtain ⟨after, hscan, hafter⟩ := h.value (3 * text.toList.length + 2) hends
  rw [List.append_nil] at hscan
  exact decode_of_scanValue hscan hafter

/-- A literal is no container, so the room does not matter. -/
theorem Literal.read_eq_of_read {room : ℕ} {d : Draft} {v : Literal}
    (h : Literal.read room d = .ok v) :
    (∃ j, d.toJson 0 = .ok j) ∧ ∀ room', Literal.read room' d = Literal.read room d := by
  obtain ⟨j, hj, hv⟩ := bind_eq_ok.1 h
  have hread := eq_ok_of_ofText hj
  cases d with
  | array items =>
    cases room with
    | zero => cases hread
    | succ room =>
      obtain ⟨js, _, rfl⟩ := exists_of_map_eq_ok hread
      cases hv
  | object members =>
    cases room with
    | zero => cases hread
    | succ room =>
      obtain ⟨ms, _, rfl⟩ := exists_of_map_eq_ok hread
      cases hv
  | absent | broken | null | bool | number | string => exact ⟨⟨j, hread⟩, fun _ => rfl⟩

/-- A number, in range or not, or a text that alone is read as a literal. -/
def Literal.IsElement (text : String) : Prop :=
  (∃ x : Numeral, x.Fills text.toList) ∨ ∃ v, decode Literal.read text = .ok v

private theorem Literal.IsElement.exists_scans {text : String} (h : Literal.IsElement text) :
    ∃ d, Scans text.toList d ∧ ∀ room, Literal.read room d = decode Literal.read text := by
  rcases h with ⟨x, hx⟩ | ⟨v, hv⟩
  · refine ⟨_, hx.scans, fun room => ?_⟩
    rw [decode_of_scans hx.scans]
    rfl
  · have hread := read_of_decode hv
    obtain ⟨⟨j, hj⟩, hroom⟩ := Literal.read_eq_of_read hread
    obtain ⟨_, -, htrailing⟩ := bind_eq_ok.1 hv
    split at htrailing
    next => cases htrailing
    next hrest =>
      rw [Json.Document.ofText, Bool.not_eq_true, Bool.not_eq_false', List.isEmpty_iff] at hrest
      have hscan : Json.scanValue (3 * text.toList.length + 3) text.toList =
        ((Json.Document.ofText text).root, _) := rfl
      exact ⟨_, Scans.of_scanValue hscan hrest hj, fun room => by rw [hroom, hread, hv]⟩

private theorem readItems_ofDrafts {texts : List String} {ds : List Draft} {room : ℕ}
    (h : List.Forall₂ (fun text d => Literal.read room d = decode Literal.read text) texts ds) :
    readItems (Literal.read room) (.ofDrafts ds) = texts.mapM (decode Literal.read) := by
  induction h with
  | nil => rfl
  | cons hd hds ih => rw [Json.Items.ofDrafts, readItems, hd, ih, List.mapM_cons]

/-- The text of an operand that lists the elements. -/
def Operand.valuesText (elements : List String) : String :=
  "\x7b\"values\":[" ++ String.intercalate "," elements ++ "]\x7d"

private theorem toList_valuesText (elements : List String) :
    (Operand.valuesText elements).toList =
      '\x7b' :: '"' :: 'v' :: 'a' :: 'l' :: 'u' :: 'e' :: 's' :: '"' :: ':' :: '[' ::
        ([','].intercalate (elements.map String.toList) ++ [']', '\x7d']) := by
  simp [Operand.valuesText]

private theorem scanValue_valuesText {elements : List String} {ds : List Draft}
    (h : List.Forall₂ Scans (elements.map String.toList) ds) {fuel : ℕ}
    (hfuel : elements.length + 6 ≤ fuel) :
    Json.scanValue fuel (Operand.valuesText elements).toList =
      (.object (.member (.value "values") (.array (.ofDrafts ds)) .close), []) := by
  obtain ⟨fuel, rfl⟩ := Nat.exists_eq_add_of_le' ((Nat.le_add_left 6 _).trans hfuel)
  have hlength : (elements.map String.toList).length + 2 ≤ fuel + 2 := by
    rw [List.length_map]
    omega
  have hitems := Json.scanFirstItem_intercalate h hlength ['\x7d']
  rw [toList_valuesText]
  generalize [','].intercalate (elements.map String.toList) ++ [']', '\x7d'] = tail at hitems ⊢
  have hblank : ∀ c cs, Json.isBlank c = false → Json.skipBlanks (c :: cs) = c :: cs := by
    intro c cs hc
    rw [Json.skipBlanks, List.dropWhile_cons_of_neg (by simp [hc])]
  have hkey :
      Json.scanString ('v' :: 'a' :: 'l' :: 'u' :: 'e' :: 's' :: '"' :: ':' :: '[' :: tail) =
        (.value "values", ':' :: '[' :: tail) := rfl
  have harray : Json.scanValue (fuel + 3) ('[' :: tail) = (.array (.ofDrafts ds), ['\x7d']) := by
    simp only [Json.scanValue, hblank '[' _ rfl, hitems]
  have hmember : Json.scanMember (fuel + 4)
      ('"' :: 'v' :: 'a' :: 'l' :: 'u' :: 'e' :: 's' :: '"' :: ':' :: '[' :: tail) =
        (.member (.value "values") (.array (.ofDrafts ds)) .close, []) := by
    simp only [Json.scanMember, hblank '"' _ rfl, hkey, hblank ':' _ rfl, harray,
      hblank '\x7d' _ rfl]
  have hmembers : Json.scanFirstMember (fuel + 5)
      ('"' :: 'v' :: 'a' :: 'l' :: 'u' :: 'e' :: 's' :: '"' :: ':' :: '[' :: tail) =
        (.member (.value "values") (.array (.ofDrafts ds)) .close, []) := by
    rw [Json.scanFirstMember, hblank '"' _ rfl]
    exact hmember
  simp only [Json.scanValue, hblank '\x7b' _ rfl, hmembers]

/-- Reading an operand that lists values. -/
theorem Operand.read_values {items : Json.Items} :
    Operand.read maxRoom (.object (.member (.value "values") (.array items) .close)) =
      (readItems (Literal.read 125) items).map .values := by
  have hcontent : Operand.read maxRoom (.object (.member (.value "values") (.array items) .close)) =
    ((readItems (Literal.read 125) items).map .values >>= fun o => .ok o) := rfl
  rw [hcontent]
  cases (readItems (Literal.read 125) items).map Operand.values with
  | ok o => rfl
  | error e => rfl

/-- The elements of a list are read in their order, each as if it stood alone. -/
theorem decode_valuesText {elements : List String} (h : ∀ text ∈ elements, Literal.IsElement text) :
    decode Operand.read (Operand.valuesText elements) =
      (elements.mapM (decode Literal.read)).map .values := by
  obtain ⟨ds, hds⟩ : ∃ ds, List.Forall₂ (fun text d => Scans text.toList d ∧
      ∀ room, Literal.read room d = decode Literal.read text) elements ds := by
    induction elements with
    | nil => exact ⟨[], .nil⟩
    | cons text elements ih =>
      obtain ⟨hhead, htail⟩ := List.forall_mem_cons.1 h
      obtain ⟨d, hd⟩ := hhead.exists_scans
      obtain ⟨ds, hds⟩ := ih htail
      exact ⟨d :: ds, .cons hd hds⟩
  have hscans : List.Forall₂ Scans (elements.map String.toList) ds :=
    List.forall₂_map_left_iff.2 (hds.imp fun _ _ hd => hd.1)
  have hfuel : elements.length + 6 ≤ 3 * (Operand.valuesText elements).toList.length + 3 := by
    have hlength := Json.length_le_intercalate (elements.map String.toList)
    rw [List.length_map] at hlength
    simp only [toList_valuesText, List.length_cons, List.length_append]
    omega
  have hread : readItems (Literal.read 125) (.ofDrafts ds) = _ :=
    readItems_ofDrafts (hds.imp fun _ _ hd => hd.2 125)
  rw [decode_of_scanValue (scanValue_valuesText hscans hfuel) rfl, Operand.read_values, hread]

end DocQuery
