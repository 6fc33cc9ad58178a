-- SUMMARY: Whole numbers as literals are kept in the range of 64-bit integers and never wrapped.
import DocQuery.Proofs.RangeLimit
import DocQuery.Proofs.ValueLists

/-!
# Whole numbers as literals

A whole number is read as an integer literal exactly if 64 bits and a sign hold it. Beyond that it
is a floating-point literal up to `rangeLimit` and no literal from there on; a number with a
fraction or an exponent is never an integer literal. What is written for an integer literal is
read as that literal again. Elements of lists are no exception to any of this.
-/

namespace DocQuery

open Json (Numeral Number rangeLimit)

/-! ## Values of numbers -/

namespace Json.Numeral

/-- The whole number that the numeral spells, as far as its whole part goes. -/
def toInt (x : Numeral) : ℤ :=
  if x.negative then -(Nat.ofDigitChars 10 x.whole 0) else Nat.ofDigitChars 10 x.whole 0

theorem natAbs_toInt (x : Numeral) : x.toInt.natAbs = digitsValue x.whole := by
  rw [toInt]
  split
  · exact Int.natAbs_neg _
  · rfl

theorem int?_eq {x : Numeral} (hwhole : x.isWhole = true)
    (hzero : ¬(x.negative = true ∧ x.toInt = 0)) :
    x.int? = if -2 ^ 63 ≤ x.toInt ∧ x.toInt < 2 ^ 64 then some x.toInt else none := by
  have hlimit : wordLimit = 2 ^ 64 := rfl
  have hvalue : x.toInt = if x.negative then -(digitsValue x.whole : ℤ) else digitsValue x.whole :=
    rfl
  rw [hvalue] at hzero ⊢
  simp only [int?, hwhole, hlimit]
  generalize digitsValue x.whole = n at hzero ⊢
  cases hneg : x.negative with
  | true =>
    simp only [hneg, if_true, true_and] at hzero ⊢
    have hrange : (0 < n && decide (2 * n ≤ 2 ^ 64)) = true ↔
        -2 ^ 63 ≤ -(n : ℤ) ∧ -(n : ℤ) < 2 ^ 64 := by
      rw [Bool.and_eq_true, decide_eq_true_iff, decide_eq_true_iff]
      omega
    simp only [Bool.not_true, Bool.false_eq_true, if_false, hrange]
  | false =>
    have hrange : n < 2 ^ 64 ↔ -2 ^ 63 ≤ (n : ℤ) ∧ (n : ℤ) < 2 ^ 64 := by omega
    simp only [Bool.not_true, Bool.false_eq_true, if_false, hrange]

theorem value?_of_int? {x : Numeral} (h : x.int? = none) :
    x.value? = x.magnitude?.map fun y => .float (if x.negative then -y else y) := by
  rw [value?, h]

private theorem Fills.isDigit {x : Numeral} {cs : List Char} (h : x.Fills cs) :
    ∀ c ∈ x.whole, c.isDigit = true := by
  obtain ⟨_, _, _, -, -, @⟨_, _, _, _, _, _, hwhole, -, -, -⟩, -⟩ := h
  exact hwhole.2

end Json.Numeral

/-! ## Numbers as literals -/

section Literals

variable {x : Numeral} {text : String}

private theorem Literal.decode_number (h : x.Fills text.toList) :
    decode Literal.read text = Literal.read 0 (.number x.lexeme) :=
  decode_of_scans h.scans

private theorem Literal.decode_of_int (h : x.Fills text.toList) {n : ℤ}
    (hn : x.value? = some (.int n)) :
    decode Literal.read text = .ok (Literal.ofInt n) := by
  rw [Literal.decode_number h, Numeral.lexeme, hn]
  rfl

private theorem Literal.decode_of_float (h : x.Fills text.toList) {y : Float}
    (hy : x.value? = some (.float y)) : decode Literal.read text = .ok (.float y) := by
  rw [Literal.decode_number h, Numeral.lexeme, hy]
  rfl

private theorem Literal.decode_of_none (h : x.Fills text.toList) (hnone : x.value? = none) :
    decode Literal.read text = .error (.text .malformed) := by
  rw [Literal.decode_number h, Numeral.lexeme, hnone]
  rfl

private theorem Literal.ofInt_of_range {n : ℤ} (hlow : -2 ^ 63 ≤ n) (hhigh : n ≤ 2 ^ 63 - 1) :
    ∃ m : Int64, m.toInt = n ∧ Literal.ofInt n = .int m := by
  have hmin : Int64.minValue.toInt = -2 ^ 63 := rfl
  have hmax : Int64.maxValue.toInt = 2 ^ 63 - 1 := rfl
  refine ⟨Int64.ofInt n, Int64.toInt_ofInt_of_le hlow (by omega), ?_⟩
  simp only [Literal.ofInt, hmin, hmax, hlow, hhigh, decide_true, Bool.and_self, if_true]

private theorem Literal.ofInt_of_not_range {n : ℤ} (h : ¬(-2 ^ 63 ≤ n ∧ n ≤ 2 ^ 63 - 1)) :
    Literal.ofInt n = .float (Float.ofInt n) := by
  have hmin : Int64.minValue.toInt = -2 ^ 63 := rfl
  have hmax : Int64.maxValue.toInt = 2 ^ 63 - 1 := rfl
  rw [Literal.ofInt, hmin, hmax, if_neg]
  simpa using h

private theorem decode_int (h : x.Fills text.toList) (hwhole : x.isWhole = true)
    (hzero : ¬(x.negative = true ∧ x.toInt = 0)) (hlow : -2 ^ 63 ≤ x.toInt)
    (hhigh : x.toInt ≤ 2 ^ 63 - 1) :
    ∃ m : Int64, m.toInt = x.toInt ∧ decode Literal.read text = .ok (.int m) := by
  obtain ⟨m, hm, hint⟩ := Literal.ofInt_of_range hlow hhigh
  have hvalue : x.value? = some (.int x.toInt) := by
    rw [Numeral.value?, Numeral.int?_eq hwhole hzero, if_pos ⟨hlow, by omega⟩]
  exact ⟨m, hm, by rw [Literal.decode_of_int h hvalue, hint]⟩

private theorem decode_float (h : x.Fills text.toList) (hwhole : x.isWhole = true)
    (hzero : ¬(x.negative = true ∧ x.toInt = 0))
    (hrange : ¬(-2 ^ 63 ≤ x.toInt ∧ x.toInt ≤ 2 ^ 63 - 1)) (hlimit : x.toInt.natAbs < rangeLimit) :
    ∃ y : Float, y.isFinite = true ∧ decode Literal.read text = .ok (.float y) := by
  have hint := Numeral.int?_eq hwhole hzero
  split at hint
  next hword =>
    have hvalue : x.value? = some (.int x.toInt) := by rw [Numeral.value?, hint]
    refine ⟨Float.ofInt x.toInt, isFinite_ofInt (by omega) hword.2, ?_⟩
    rw [Literal.decode_of_int h hvalue, Literal.ofInt_of_not_range hrange]
  next =>
    rw [Numeral.natAbs_toInt, ← not_le, ← Numeral.magnitude?_eq_none_iff hwhole h.isDigit] at hlimit
    obtain ⟨y, hy⟩ := Option.ne_none_iff_exists'.1 hlimit
    have hvalue := Numeral.value?_of_int? hint
    rw [hy] at hvalue
    exact ⟨_, Numeral.proper_value? hvalue, Literal.decode_of_float h hvalue⟩

private theorem decode_error (h : x.Fills text.toList) (hwhole : x.isWhole = true)
    (hlimit : rangeLimit ≤ x.toInt.natAbs) :
    decode Literal.read text = .error (.text .malformed) := by
  have hword : 2 ^ 64 ≤ rangeLimit := by decide +kernel
  have hzero : ¬(x.negative = true ∧ x.toInt = 0) := by omega
  have hmagnitude := (Numeral.magnitude?_eq_none_iff hwhole h.isDigit).2
    (Numeral.natAbs_toInt x ▸ hlimit)
  have hint : x.int? = none := by rw [Numeral.int?_eq hwhole hzero, if_neg (by omega)]
  refine Literal.decode_of_none h ?_
  rw [Numeral.value?_of_int? hint, hmagnitude]
  rfl

private theorem exists_toInt_eq_iff {n : ℤ} :
    (∃ m : Int64, m.toInt = n) ↔ -2 ^ 63 ≤ n ∧ n ≤ 2 ^ 63 - 1 := by
  constructor
  · rintro ⟨m, rfl⟩
    exact ⟨Int64.le_toInt m, Int.le_sub_one_of_lt (Int64.toInt_lt m)⟩
  · rintro ⟨hlow, hhigh⟩
    exact ⟨Int64.ofInt n, Int64.toInt_ofInt_of_le hlow (by omega)⟩

/-- No whole number is wrapped or truncated. -/
theorem decode_eq_int_iff (h : x.Fills text.toList) (hwhole : x.isWhole = true)
    (hzero : ¬(x.negative = true ∧ x.toInt = 0)) (m : Int64) :
    decode Literal.read text = .ok (.int m) ↔ m.toInt = x.toInt := by
  by_cases hrange : -2 ^ 63 ≤ x.toInt ∧ x.toInt ≤ 2 ^ 63 - 1
  · obtain ⟨m', hm', hdecode⟩ := decode_int h hwhole hzero hrange.1 hrange.2
    rw [hdecode, ← hm', Int64.toInt_inj]
    constructor
    · intro heq
      cases heq
      rfl
    · rintro rfl
      rfl
  · refine iff_of_false ?_ fun hm => hrange (exists_toInt_eq_iff.1 ⟨m, hm⟩)
    rcases lt_or_ge x.toInt.natAbs rangeLimit with hlimit | hlimit
    · obtain ⟨y, -, hdecode⟩ := decode_float h hwhole hzero hrange hlimit
      rw [hdecode]
      exact nofun
    · rw [decode_error h hwhole hlimit]
      exact nofun

/-- The whole part of a number with a fraction or an exponent is not its value. -/
theorem decode_ne_int (h : x.Fills text.toList) (hwhole : x.isWhole = false) (m : Int64) :
    decode Literal.read text ≠ .ok (.int m) := by
  have hint : x.int? = none := by simp [Numeral.int?, hwhole]
  have hvalue := Numeral.value?_of_int? hint
  cases hmagnitude : x.magnitude? with
  | none =>
    rw [hmagnitude] at hvalue
    rw [Literal.decode_of_none h hvalue]
    exact nofun
  | some y =>
    rw [hmagnitude] at hvalue
    rw [Literal.decode_of_float h hvalue]
    exact nofun

end Literals

/-! ## Writing -/

namespace Json.Numeral

private theorem eq_zero_of_head?_toDigits {n : ℕ} (h : (Nat.toDigits 10 n).head? = some '0') :
    n = 0 := by
  induction n using Nat.strongRecOn with
  | ind n ih =>
    rcases Nat.lt_or_ge n 10 with hlt | hge
    · rw [Nat.toDigits_of_lt_base hlt] at h
      simpa using h
    · rw [Nat.toDigits_of_base_le (by decide) hge, List.head?_append_of_ne_nil _ (by simp)] at h
      have hquotient := ih (n / 10) (by omega) h
      omega

/-- The numeral that is written for a whole number. -/
def ofInt (n : ℤ) : Numeral where
  negative := decide (n < 0)
  whole := Nat.toDigits 10 n.natAbs

theorem toInt_ofInt (n : ℤ) : (ofInt n).toInt = n := by
  simp only [toInt, ofInt, Nat.ofDigitChars_ten_toDigits, decide_eq_true_eq]
  split
  · omega
  · omega

private theorem spelled_ofInt (n : ℤ) : (ofInt n).Spelled (toString n).toList := by
  have hdigits : Digits (Nat.toDigits 10 n.natAbs) :=
    ⟨Nat.toDigits_ne_nil, fun c hc => Nat.isDigit_of_mem_toDigits (by decide) (by decide) hc⟩
  have hzero : (Nat.toDigits 10 n.natAbs).head? = some '0' → Nat.toDigits 10 n.natAbs = ['0'] := by
    intro h
    rw [eq_zero_of_head?_toDigits h]
    rfl
  have hspelled : (ofInt n).Spelled _ := .intro hdigits hzero .absent .absent
  rw [List.append_nil, List.append_nil] at hspelled
  have htext : (toString n).toList =
      (if decide (n < 0) then ['-'] else []) ++ Nat.toDigits 10 n.natAbs := by
    rw [Int.toString_eq_repr, Int.repr_eq_if]
    rcases lt_or_ge n 0 with hn | hn
    · have habs : (-n).toNat = n.natAbs := by omega
      simp [hn, not_le.2 hn, habs]
    · have habs : n.toNat = n.natAbs := by omega
      simp [hn, not_lt.2 hn, habs]
  rwa [htext]

theorem fills_ofInt (n : ℤ) : (ofInt n).Fills (toString n).toList :=
  ⟨[], _, [], nofun, nofun, spelled_ofInt n, (List.append_nil _).symm⟩

end Json.Numeral

private theorem decode_compact_int (n : Int64) :
    decode Literal.read (Literal.int n).toJson.compact = .ok (.int n) := by
  have hlow : -2 ^ 63 ≤ n.toInt := Int64.le_toInt n
  have hhigh : n.toInt < 2 ^ 63 := Int64.toInt_lt n
  have hvalue := Numeral.toInt_ofInt n.toInt
  have hzero : ¬((Numeral.ofInt n.toInt).negative = true ∧ (Numeral.ofInt n.toInt).toInt = 0) := by
    rw [hvalue, Numeral.ofInt, decide_eq_true_eq]
    omega
  obtain ⟨m, hm, hdecode⟩ :=
    decode_int (Numeral.fills_ofInt n.toInt) rfl hzero (by omega) (by omega)
  rw [hvalue, Int64.toInt_inj] at hm
  rw [hm] at hdecode
  exact hdecode

/-- A literal is written on one line wherever it stands. -/
theorem writeAt_toJson (v : Literal) (level : ℕ) :
    v.toJson.writeAt .compact level = v.toJson.compact := by
  cases v with
  | float x =>
    rw [Literal.toJson]
    split
    · rfl
    · rfl
  | null | bool | int | text => rfl

private theorem append_writeItems (v : Literal) (vs : List Literal) (level : ℕ) :
    v.toJson.compact ++ Json.writeItems .compact level (vs.map Literal.toJson) =
      String.intercalate "," ((v :: vs).map fun v => v.toJson.compact) := by
  induction vs generalizing v with
  | nil => simp [Json.writeItems]
  | cons v' vs ih =>
    rw [List.map_cons, List.map_cons, String.intercalate_cons_of_ne_nil (by simp), ← ih v',
      Json.writeItems, writeAt_toJson]
    simp [Json.Layout.gap, String.append_assoc]

private theorem compact_values (vs : List Literal) :
    (Operand.values vs).toJson.compact = Operand.valuesText (vs.map fun v => v.toJson.compact) := by
  have hobject : (Operand.values vs).toJson.compact =
      "\x7b\"values\":" ++ Json.writeAt .compact 1 (.array (vs.map Literal.toJson)) ++ "\x7d" := by
    have hkey : Json.quote "values" = "\"values\"" := rfl
    simp only [Operand.toJson, Json.compact, Json.write, Json.writeAt, Json.writeMembers, hkey,
      Json.Layout.gap, Json.Layout.colon, String.append_empty]
    rfl
  have hopen : "\x7b\"values\":[" = "\x7b\"values\":" ++ "[" := rfl
  have hclose : "]\x7d" = "]" ++ "\x7d" := rfl
  rw [hobject, Operand.valuesText, hopen, hclose]
  cases vs with
  | nil => rfl
  | cons v vs =>
    rw [List.map_cons, Json.writeAt, writeAt_toJson, ← append_writeItems v vs 2]
    simp only [Json.Layout.gap, String.append_empty, String.append_assoc]

/-- A list is read back element by element if each of them is read back alone. -/
theorem decode_compact_values {vs ws : List Literal}
    (h : List.Forall₂ (fun v w => decode Literal.read v.toJson.compact = .ok w) vs ws) :
    decode Operand.read (Operand.values vs).toJson.compact = .ok (.values ws) := by
  have hmap : (vs.map fun v => v.toJson.compact).mapM (decode Literal.read) = .ok ws := by
    induction h with
    | nil => rfl
    | cons hv _ ih =>
      rw [List.map_cons, List.mapM_cons, hv, ih]
      rfl
  have helements : ∀ text ∈ vs.map fun v => v.toJson.compact, Literal.IsElement text := by
    intro text htext
    obtain ⟨v, hv, rfl⟩ := List.mem_map.1 htext
    obtain ⟨w, -, hw⟩ := exists_of_forall₂ h.flip hv
    exact .inr ⟨w, hw⟩
  rw [compact_values, decode_valuesText helements, hmap]
  rfl

/-! ## Main results -/

/-- A whole number that is itself a floating-point number, the largest of all, and no literal. -/
theorem Literal.exists_float_refused :
    ∃ (x : Numeral) (text : String) (y : Float), x.Fills text.toList ∧ x.isWhole = true ∧
      HasSize y x.toInt ∧ decode Literal.read text = .error (.text .malformed) := by
  obtain ⟨n, hn⟩ : ∃ n : ℕ, n = (2 ^ 53 - 1) * 2 ^ 971 := ⟨_, rfl⟩
  have hfills := Numeral.fills_ofInt n
  have hvalue := Numeral.toInt_ofInt n
  refine ⟨_, _, Float.ofBits 0x7fefffffffffffff, hfills, rfl, ?_, decode_error hfills rfl ?_⟩
  · refine ⟨.positive, 2 ^ 53 - 1, 971, by decide, rfl, by decide +kernel, by decide, ?_⟩
    rw [hvalue, hn, Int.cast_natCast, Nat.cast_mul, Nat.cast_pow, Nat.cast_ofNat]
    exact congrArg _ (zpow_natCast 2 971).symm
  · rw [hvalue, Int.natAbs_natCast, hn]
    decide +kernel

/-- Whole numbers in the range of 64-bit integers are kept, those outside never become integers,
    and neither do numbers with a fraction or an exponent. Zero with a minus is left out, since no
    integer keeps its sign. -/
theorem Literal.integers_kept :
    (∀ (x : Numeral) (text : String), x.Fills text.toList →
      (x.isWhole = true → ¬(x.negative = true ∧ x.toInt = 0) →
        (∀ m : Int64, decode Literal.read text = .ok (.int m) ↔ m.toInt = x.toInt) ∧
        ((∃ m : Int64, decode Literal.read text = .ok (.int m)) ↔
          -2 ^ 63 ≤ x.toInt ∧ x.toInt ≤ 2 ^ 63 - 1) ∧
        (¬(-2 ^ 63 ≤ x.toInt ∧ x.toInt ≤ 2 ^ 63 - 1) → x.toInt.natAbs < rangeLimit →
          ∃ y : Float, y.isFinite = true ∧ decode Literal.read text = .ok (.float y)) ∧
        (rangeLimit ≤ x.toInt.natAbs → decode Literal.read text = .error (.text .malformed))) ∧
      (x.isWhole = false → ∀ m : Int64, decode Literal.read text ≠ .ok (.int m))) ∧
    (∀ n : Int64, decode Literal.read (Literal.int n).toJson.compact = .ok (.int n)) ∧
    (∀ elements : List String, (∀ text ∈ elements, Literal.IsElement text) →
      decode Operand.read (Operand.valuesText elements) =
        (elements.mapM (decode Literal.read)).map .values) ∧
    ∀ vs ws : List Literal,
      List.Forall₂ (fun v w => decode Literal.read v.toJson.compact = .ok w) vs ws →
      decode Operand.read (Operand.values vs).toJson.compact = .ok (.values ws) := by
  refine ⟨fun x text h => ⟨fun hwhole hzero => ?_, decode_ne_int h⟩, decode_compact_int,
    fun _ => decode_valuesText, fun _ _ => decode_compact_values⟩
  have hint := decode_eq_int_iff h hwhole hzero
  refine ⟨hint, ?_, decode_float h hwhole hzero, decode_error h hwhole⟩
  simp only [hint, exists_toInt_eq_iff]

/-- The two ends of the integers, the end of the range, a number with an exponent, and lists. -/
theorem Literal.integers_kept_bounds :
    decode Literal.read (toString (-2 ^ 63 : ℤ)) = .ok (.int Int64.minValue) ∧
    (∃ y : Float, y.isFinite = true ∧
      decode Literal.read (toString (2 ^ 63 : ℤ)) = .ok (.float y)) ∧
    decode Literal.read (toString (rangeLimit : ℤ)) = .error (.text .malformed) ∧
    (∀ m : Int64, decode Literal.read "1e0" ≠ .ok (.int m)) ∧
    (decode Operand.read (Operand.valuesText [toString (2 ^ 63 : ℤ), " null"]) =
      ([toString (2 ^ 63 : ℤ), " null"].mapM (decode Literal.read)).map .values) ∧
    decode Operand.read (Operand.values [.null, .int Int64.maxValue]).toJson.compact =
      .ok (.values [.null, .int Int64.maxValue]) := by
  obtain ⟨hnumber, hwritten, hlist, hback⟩ := Literal.integers_kept
  have hwhole := fun n : ℤ => (hnumber (.ofInt n) (toString n) (Numeral.fills_ofInt n)).1 rfl
  have hexponent : Numeral.Fills ⟨false, ['1'], [], some (false, ['0'])⟩ "1e0".toList := by
    have hdigit : ∀ c : Char, c.isDigit = true → Json.Digits [c] := fun c hc =>
      ⟨nofun, List.forall_mem_singleton.2 hc⟩
    exact ⟨[], "1e0".toList, [], nofun, nofun,
      .intro (hdigit '1' rfl) nofun .absent (.present (.inl rfl) .bare (hdigit '0' rfl)), rfl⟩
  refine ⟨?_, ?_, ?_, (hnumber _ _ hexponent).2 rfl, hlist _ ?_, hback _ _ ?_⟩
  · refine ((hwhole (-2 ^ 63) ?_).1 Int64.minValue).2 ?_
    · rw [Numeral.toInt_ofInt]
      decide
    · rw [Numeral.toInt_ofInt]
      rfl
  · refine (hwhole (2 ^ 63) ?_).2.2.1 ?_ ?_
    · exact fun h => Bool.noConfusion h.1
    · rw [Numeral.toInt_ofInt]
      decide
    · rw [Numeral.toInt_ofInt]
      decide +kernel
  · refine (hwhole rangeLimit ?_).2.2.2 ?_
    · rw [Numeral.toInt_ofInt]
      decide +kernel
    · rw [Numeral.toInt_ofInt, Int.natAbs_natCast]
  · refine List.forall_mem_cons.2 ⟨.inl ⟨_, Numeral.fills_ofInt _⟩, List.forall_mem_singleton.2 ?_⟩
    exact .inr ⟨.null, rfl⟩
  · exact .cons rfl (.cons (hwritten Int64.maxValue) .nil)

end DocQuery
