-- SUMMARY: Which whole numbers that no word holds still have a floating-point value for the reader.
import DocQuery.Proofs.Numbers
import DocQuery.Proofs.Rounding

/-!
# The end of the range for whole numbers

The digits of a long whole number are cut where they no longer fit a word, and the floating-point
number nearest to the first part is multiplied by the one nearest to a power of ten. Three
roundings take part in this, so that the end of the range is not where the format has it:
`magnitude?_eq_none_iff` finds it at `rangeLimit`, a little below the largest number of the format.

All three roundings are monotone. It is therefore enough to carry out the products next to the
limit.
-/

namespace DocQuery

/-! ## Sizes of whole numbers and of powers of ten -/

instance (k : ℤ) : (u : Float.Model.UnpackedFloat) → Decidable (UpTo k u)
  | .zero _ => isTrue .zero
  | .finite _ _ e _ => decidable_of_iff (e ≤ k) ⟨.finite, fun | .finite h => h⟩
  | .infinity _ => isFalse nofun
  | .notANumber => isFalse nofun

private theorem isInf_of_upTo {x : Float} {k : ℤ} (h : UpTo k x.toModel.unpack) :
    x.isInf = false := by
  rw [Float.isInf, Float.Model.isInf]
  generalize x.toModel.unpack = u at h
  cases h with
  | zero => rfl
  | finite => rfl

private theorem HasSize.beq_zero {x : Float} {v : ℚ} (h : HasSize x v) : (x == 0) = false := by
  obtain ⟨sign, m, e, hm, hunpack, _⟩ := h
  change Float.Model.UnpackedFloat.beq x.toModel.unpack (.zero .positive) = false
  rw [hunpack]
  cases sign with
  | positive => rfl
  | negative => rfl

private theorem shiftLeft_value (n : ℕ) : ((n <<< 53 : ℕ) : ℚ) * 2 ^ (-53 : ℤ) = n := by
  rw [Nat.shiftLeft_eq, Nat.cast_mul, Nat.cast_pow, Nat.cast_ofNat, mul_assoc, ← zpow_natCast,
    ← zpow_add₀ (by norm_num)]
  norm_num

private theorem le_log2_shiftLeft {n k : ℕ} (h : 2 ^ k ≤ n) : k + 53 ≤ (n <<< 53).log2 := by
  have hpos : 0 < n := (Nat.two_pow_pos k).trans_le h
  rw [Nat.shiftLeft_eq, Nat.le_log2 (Nat.mul_pos hpos (by decide)).ne', Nat.pow_add]
  exact Nat.mul_le_mul_right _ h

private theorem exists_hasSize_ofNat {n : ℕ} (hlow : 2 ^ 53 ≤ n) (hhigh : n < 2 ^ 64) :
    ∃ v, Rounds n v ∧ HasSize (Float.ofNat n) v := by
  have hmodel := toModel_ofScientific (n := n) (k := 0) (by omega) (by decide) (by omega)
  rw [Nat.pow_zero, Nat.mul_one] at hmodel
  have hlog := le_log2_shiftLeft hlow
  have hsize := exists_hasSize (x := Float.ofNat n) (e := -53) (by omega) (by omega) hmodel
    (isInf_of_upTo (upTo_ofNat hhigh))
  rwa [shiftLeft_value] at hsize

private theorem exists_hasSize_powerOfTen {d : ℕ} (hlow : 23 ≤ d) (hhigh : d ≤ Json.maxExponent) :
    ∃ v, Rounds (10 ^ d : ℕ) v ∧ HasSize (Json.powerOfTen d) v := by
  have hd : d ≤ 308 := hhigh
  have hmodel := toModel_ofScientific (n := 1) (k := d) (by decide) (by omega) (by omega)
  have hshift : 1 <<< 53 * 10 ^ d = (10 ^ d) <<< 53 := by
    rw [Nat.shiftLeft_eq, Nat.shiftLeft_eq, Nat.one_mul, Nat.mul_comm]
  rw [hshift] at hmodel
  have hten : 2 ^ 52 ≤ 10 ^ d :=
    (by decide : 2 ^ 52 ≤ 10 ^ 23).trans (pow_le_pow_right₀ (by decide) hlow)
  have hlog := le_log2_shiftLeft hten
  have hfinite : (Json.powerOfTen d).isInf = false := by
    obtain ⟨k, hk⟩ := (atLeast_powerOfTen hhigh).exists_upTo
    exact isInf_of_upTo hk
  have hsize := exists_hasSize (x := Json.powerOfTen d) (e := -53) (by omega) (by omega) hmodel
    hfinite
  rwa [shiftLeft_value] at hsize

private theorem upTo_powerOfTen_short : ∀ d ≤ 22, UpTo 21 (Json.powerOfTen d).toModel.unpack := by
  decide +kernel

namespace Json

/-! ## Products next to the limit -/

/-- The first whole number that is out of range for the reader. -/
def rangeLimit : ℕ :=
  17976931348623156225 * 10 ^ 289

/-- The smallest significand behind which not every further digit fits. -/
def fullWord : ℕ :=
  1844674407370955161

/-- The value of the digits in a word and `d` digits after them. -/
def product (n d : ℕ) : Float :=
  Float.ofNat n * powerOfTen d

private theorem isInf_product_short {n d : ℕ} (hn : n < wordLimit) (hd : d ≤ 22) :
    (product n d).isInf = false :=
  isInf_of_upTo (upTo_mul (upTo_ofNat hn) (upTo_powerOfTen_short d hd) (k := 89) (by decide)
    (by decide) (by decide))

private theorem isInf_product_mono {n n' d d' : ℕ} (hn : fullWord ≤ n) (hn' : n' < wordLimit)
    (hd : 23 ≤ d) (hd' : d' ≤ maxExponent) (hnn : n ≤ n') (hdd : d ≤ d')
    (h : (product n d).isInf = true) : (product n' d').isInf = true := by
  have hword : 2 ^ 53 ≤ fullWord := by decide
  obtain ⟨v, hv, hx⟩ := exists_hasSize_ofNat (hword.trans hn) (hnn.trans_lt hn')
  obtain ⟨v', hv', hx'⟩ := exists_hasSize_ofNat (hword.trans (hn.trans hnn)) hn'
  obtain ⟨w, hw, hy⟩ := exists_hasSize_powerOfTen hd (hdd.trans hd')
  obtain ⟨w', hw', hy'⟩ := exists_hasSize_powerOfTen (hd.trans hdd) hd'
  have hten : 10 ^ d ≤ 10 ^ d' := pow_le_pow_right₀ (by decide) hdd
  exact isInf_mul_mono hx hy hx' hy' (hv.mono hv' (by exact_mod_cast hnn))
    (hw.mono hw' (by exact_mod_cast hten)) h

/-- The products on both sides of the limit, for each number of digits with which it can be
    reached. -/
private theorem isInf_product_corners :
    (product (wordLimit - 1) 288).isInf = false ∧ (product 17976931348623156224 289).isInf = false ∧
      (product 17976931348623156225 289).isInf = true ∧ (product fullWord 290).isInf = true := by
  decide +kernel

/-- Digits that fill a word and 290 more are beyond the limit, whatever they are. -/
theorem rangeLimit_le_mul {n d : ℕ} (hn : fullWord ≤ n) (hd : 290 ≤ d) :
    rangeLimit ≤ n * 10 ^ d :=
  calc rangeLimit
    _ ≤ fullWord * 10 ^ 290 := by decide +kernel
    _ ≤ n * 10 ^ d := Nat.mul_le_mul hn (pow_le_pow_right₀ (by decide) hd)

private theorem isInf_product_iff {n d : ℕ} (hn : fullWord ≤ n) (hn' : n < wordLimit) (hd : 23 ≤ d)
    (hd' : d ≤ maxExponent) : (product n d).isInf = true ↔ rangeLimit ≤ n * 10 ^ d := by
  obtain ⟨hshorter, hbelow, hat, hlonger⟩ := isInf_product_corners
  rcases lt_trichotomy d 289 with h | rfl | h
  · refine iff_of_false ?_ ?_
    · intro hinf
      have hlarger := isInf_product_mono hn (by decide) hd (by decide) (Nat.le_sub_one_of_lt hn')
        (Nat.le_of_lt_succ h) hinf
      rw [hshorter] at hlarger
      cases hlarger
    · have hten : 10 ^ d ≤ 10 ^ 288 := pow_le_pow_right₀ (by decide) (Nat.le_of_lt_succ h)
      exact not_le.2 ((Nat.mul_le_mul hn'.le hten).trans_lt (by decide +kernel))
  · rw [rangeLimit, Nat.mul_le_mul_right_iff (Nat.pow_pos (by decide))]
    constructor
    · intro hinf
      by_contra hlt
      have hle : n ≤ 17976931348623156224 := by omega
      have hlarger := isInf_product_mono hn (by decide) hd hd' hle le_rfl hinf
      rw [hbelow] at hlarger
      cases hlarger
    · intro hle
      exact isInf_product_mono (by decide) hn' hd hd' hle le_rfl hat
  · exact iff_of_true (isInf_product_mono le_rfl hn' (by decide) hd' hn h hlonger)
      (rangeLimit_le_mul hn h)

/-! ## Digits -/

private theorem digitValue_lt {c : Char} (h : c.isDigit = true) : digitValue c < 10 := by
  have hbounds := Char.isDigit_iff_toNat.1 h
  simp only [digitValue, Char.reduceToNat] at hbounds ⊢
  omega

private theorem digitsValue_cons (c : Char) (cs : List Char) :
    digitsValue (c :: cs) = digitValue c * 10 ^ cs.length + digitsValue cs := by
  have h : Nat.ofDigitChars 10 cs (digitValue c) = _ := Nat.ofDigitChars_eq_ofDigitChars_zero
  rw [Nat.mul_comm] at h
  simpa [digitsValue, Nat.ofDigitChars_eq_foldl, digitValue] using h

private theorem digitsValue_lt {cs : List Char} (h : ∀ c ∈ cs, c.isDigit = true) :
    digitsValue cs < 10 ^ cs.length := by
  induction cs with
  | nil => decide
  | cons c cs ih =>
    have hc := digitValue_lt (h c List.mem_cons_self)
    have hcs := ih fun d hd => h d (List.mem_cons_of_mem c hd)
    rw [digitsValue_cons, List.length_cons, Nat.pow_succ, Nat.mul_comm _ 10]
    have hle := Nat.mul_le_mul_right (10 ^ cs.length) (Nat.le_of_lt_succ hc)
    omega

/-- Cutting the digits leaves their value as it is, and they are cut only where the word is full. -/
theorem takeDigits_spec {n : ℕ} {cs : List Char} (h : ∀ c ∈ cs, c.isDigit = true) :
    (takeDigits n cs).1 * 10 ^ (takeDigits n cs).2.length + digitsValue (takeDigits n cs).2 =
        n * 10 ^ cs.length + digitsValue cs ∧
      (∀ c ∈ (takeDigits n cs).2, c.isDigit = true) ∧
      ((takeDigits n cs).2 = [] ∨ fullWord ≤ (takeDigits n cs).1) := by
  fun_induction takeDigits n cs with
  | case1 n => exact ⟨rfl, h, .inl rfl⟩
  | case2 n c cs next hnext ih =>
    obtain ⟨hvalue, hrest⟩ := ih fun d hd => h d (List.mem_cons_of_mem c hd)
    refine ⟨?_, hrest⟩
    rw [hvalue, digitsValue_cons, List.length_cons, Nat.pow_succ]
    simp only [next]
    ring
  | case3 n c cs next hnext =>
    refine ⟨rfl, h, .inr ?_⟩
    have hc := digitValue_lt (h c List.mem_cons_self)
    have hlimit : wordLimit = 18446744073709551616 := rfl
    simp only [next, hlimit, fullWord] at hnext ⊢
    omega

/-! ## Whole numerals -/

private theorem stretch?_eq_none_iff {n d : ℕ} (hn : n < wordLimit) (hfull : d = 0 ∨ fullWord ≤ n) :
    stretch? (Float.ofNat n) d = none ↔ rangeLimit ≤ n * 10 ^ d := by
  rcases Nat.lt_or_ge 22 d with hlong | hshort
  · have hfull : fullWord ≤ n := hfull.resolve_left (by omega)
    rw [stretch?]
    split
    next hd => simpa [product] using isInf_product_iff hfull hn hlong hd
    next hd =>
      obtain ⟨v, -, hsize⟩ := exists_hasSize_ofNat ((by decide : 2 ^ 53 ≤ fullWord).trans hfull) hn
      have hlong : 290 ≤ d := Nat.le_trans (by decide) (Nat.le_of_not_le hd)
      simpa [hsize.beq_zero] using rangeLimit_le_mul hfull hlong
  · have hfinite : (Float.ofNat n * powerOfTen d).isInf = false := isInf_product_short hn hshort
    have hd : d ≤ maxExponent := hshort.trans (by decide)
    have hten : 10 ^ d ≤ 10 ^ 22 := pow_le_pow_right₀ (by decide) hshort
    have hlt : n * 10 ^ d < rangeLimit := (Nat.mul_le_mul hn.le hten).trans_lt (by decide +kernel)
    simpa [stretch?, hd, hfinite] using hlt

/-- The digits that are cut off do not decide whether a number is in range. -/
private theorem rangeLimit_le_add {n d r : ℕ} (hr : r < 10 ^ d) (hfull : d = 0 ∨ fullWord ≤ n) :
    rangeLimit ≤ n * 10 ^ d + r ↔ rangeLimit ≤ n * 10 ^ d := by
  rcases Nat.lt_or_ge 289 d with h | h
  · have hle : rangeLimit ≤ n * 10 ^ d := rangeLimit_le_mul (hfull.resolve_left (by omega)) h
    exact iff_of_true (hle.trans (Nat.le_add_right _ _)) hle
  · have hlimit : rangeLimit = 17976931348623156225 * 10 ^ (289 - d) * 10 ^ d := by
      rw [mul_assoc, ← Nat.pow_add, Nat.sub_add_cancel h, rangeLimit]
    rw [hlimit, Nat.mul_le_mul_right_iff (Nat.pow_pos (by decide))]
    constructor
    · intro hle
      have hlt : 17976931348623156225 * 10 ^ (289 - d) * 10 ^ d < (n + 1) * 10 ^ d := by
        rw [Nat.add_mul]
        omega
      exact Nat.le_of_lt_succ (Nat.lt_of_mul_lt_mul_right hlt)
    · intro hle
      exact (Nat.mul_le_mul_right _ hle).trans (Nat.le_add_right _ _)

theorem Numeral.magnitude?_eq_none_iff {x : Numeral} (hwhole : x.isWhole = true)
    (hdigits : ∀ c ∈ x.whole, c.isDigit = true) :
    x.magnitude? = none ↔ rangeLimit ≤ digitsValue x.whole := by
  obtain ⟨hfraction, hexponent⟩ : x.fraction = [] ∧ x.exponent = none := by
    simpa [Numeral.isWhole] using hwhole
  have hlt : (takeDigits 0 x.whole).1 < wordLimit := takeDigits_lt (by decide)
  obtain ⟨hvalue, hrest, hfull⟩ := takeDigits_spec (n := 0) hdigits
  rw [← List.length_eq_zero_iff] at hfull
  rw [Nat.zero_mul, Nat.zero_add] at hvalue
  rw [← hvalue, rangeLimit_le_add (digitsValue_lt hrest) hfull,
    ← stretch?_eq_none_iff hlt hfull]
  simp [Numeral.magnitude?, hfraction, hexponent, takeDigits, scale?]

end Json

end DocQuery
