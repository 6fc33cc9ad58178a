-- SUMMARY: Rounding to floating-point numbers is monotone, and so is the overflow of a product.
import DocQuery.Proofs.FloatRange

/-!
# Rounding

The bits that are cut from a mantissa are remembered as two, and the mantissa is rounded by these.
Here the two bits are read as a statement about the number before it was cut (`Stands`), so that
rounding takes a number to the nearest one (`Rounds`), halves to the even one. That is monotone,
and hence a product overflows if a smaller one does (`isInf_mul_mono`).
-/

namespace DocQuery

open Float.Model (UnpackedFloat)
open Float.Model.Format (binary64)
open Float.Model.UnpackedFloat (Sign ExtendedMantissa roundWithAccuracy
  unpackExponent_packComponents)

/-! ## Nearest whole numbers -/

/-- The whole number nearest to `x`. Halves go to the even one of two. -/
structure Nearest (x : ℚ) (r : ℕ) : Prop where
  up : (r : ℚ) ≤ x + 1 / 2
  down : x ≤ r + 1 / 2
  even : (r : ℚ) = x + 1 / 2 ∨ x = r + 1 / 2 → r % 2 = 0

theorem Nearest.mono {x y : ℚ} {r s : ℕ} (hx : Nearest x r) (hy : Nearest y s) (h : x ≤ y) :
    r ≤ s := by
  by_contra hlt
  have hnext : (s : ℚ) + 1 ≤ r := by exact_mod_cast not_le.1 hlt
  -- Only a half between the two can be rounded both up and down, but just one of them is even.
  have hup := hx.up
  have hdown := hy.down
  have hr : r % 2 = 0 := hx.even (.inl (by linarith))
  have hs : s % 2 = 0 := hy.even (.inr (by linarith))
  have hrs : r = s + 1 := by
    have hcast : (r : ℚ) = (s + 1 : ℕ) := by
      push_cast
      linarith
    exact_mod_cast hcast
  omega

/-- The number that a mantissa and the bit behind it spell. -/
def base (em : ExtendedMantissa) : ℚ :=
  em.mantissa + if em.roundBit then 1 / 2 else 0

/-- What a mantissa and its residual bits say about the number that was cut. -/
def Stands (em : ExtendedMantissa) (x : ℚ) : Prop :=
  if em.stickyBit then base em < x ∧ x < base em + 1 / 2 else x = base em

private theorem Stands.nearest {em : ExtendedMantissa} {x : ℚ} (h : Stands em x) :
    Nearest x em.roundedMantissa := by
  obtain ⟨m, roundBit, stickyBit⟩ := em
  cases roundBit with
  | false =>
    have hround : (ExtendedMantissa.mk m false stickyBit).roundedMantissa = m := by
      cases stickyBit <;> rfl
    have hbounds : (m : ℚ) ≤ x ∧ x < m + 1 / 2 := by
      cases stickyBit with
      | false =>
        have hx : x = m := by simpa [Stands, base] using h
        exact ⟨hx.ge, by linarith⟩
      | true =>
        have hx : (m : ℚ) < x ∧ x < m + 1 / 2 := by simpa [Stands, base] using h
        exact ⟨hx.1.le, hx.2⟩
    rw [hround]
    refine ⟨by linarith, hbounds.2.le, ?_⟩
    rintro (htie | htie)
    · linarith
    · linarith
  | true =>
    cases stickyBit with
    | false =>
      have hx : x = m + 1 / 2 := by simpa [Stands, base] using h
      have hround : (ExtendedMantissa.mk m true false).roundedMantissa = m + m % 2 := rfl
      have hparity : ((m % 2 : ℕ) : ℚ) ≤ 1 := by
        exact_mod_cast Nat.le_of_lt_succ (Nat.mod_lt m two_pos)
      have hnonneg : (0 : ℚ) ≤ (m % 2 : ℕ) := Nat.cast_nonneg _
      rw [hround, hx]
      refine ⟨?_, ?_, fun _ => by omega⟩
      · rw [Nat.cast_add]
        linarith
      · rw [Nat.cast_add]
        linarith
    | true =>
      have hx : (m : ℚ) + 1 / 2 < x ∧ x < m + 1 / 2 + 1 / 2 := by simpa [Stands, base] using h
      have hround : (ExtendedMantissa.mk m true true).roundedMantissa = m + 1 := rfl
      rw [hround]
      refine ⟨?_, ?_, ?_⟩
      · rw [Nat.cast_add_one]
        linarith
      · rw [Nat.cast_add_one]
        linarith
      · rw [Nat.cast_add_one]
        rintro (htie | htie)
        · linarith
        · linarith

private theorem base_shiftRightOne (em : ExtendedMantissa) :
    base em.shiftRightOne = em.mantissa / 2 := by
  have hdivision : (em.mantissa : ℚ) = 2 * (em.mantissa / 2 : ℕ) + (em.mantissa % 2 : ℕ) := by
    exact_mod_cast (Nat.div_add_mod em.mantissa 2).symm
  rcases Nat.mod_two_eq_zero_or_one em.mantissa with hm | hm
  · rw [hm] at hdivision
    simp [base, ExtendedMantissa.shiftRightOne, hm, hdivision]
  · rw [hm] at hdivision
    simp [base, ExtendedMantissa.shiftRightOne, hm, hdivision]
    ring

private theorem Stands.shiftRightOne {em : ExtendedMantissa} {x : ℚ} (h : Stands em x) :
    Stands em.shiftRightOne (x / 2) := by
  have hsticky : em.shiftRightOne.stickyBit = (em.roundBit || em.stickyBit) := rfl
  rw [Stands, hsticky, base_shiftRightOne]
  obtain ⟨m, roundBit, stickyBit⟩ := em
  -- Unless both bits are clear, `x` lies strictly between `m` and `m + 1`.
  have hbetween (hx : (m : ℚ) < x ∧ x < m + 1) : (m : ℚ) / 2 < x / 2 ∧ x / 2 < m / 2 + 1 / 2 :=
    ⟨by linarith, by linarith⟩
  cases roundBit with
  | false =>
    cases stickyBit with
    | false =>
      have hx : x = m := by simpa [Stands, base] using h
      rw [hx]
      rfl
    | true =>
      have hx : (m : ℚ) < x ∧ x < m + 1 / 2 := by simpa [Stands, base] using h
      exact hbetween ⟨hx.1, by linarith⟩
  | true =>
    cases stickyBit with
    | false =>
      have hx : x = m + 1 / 2 := by simpa [Stands, base] using h
      exact hbetween ⟨by linarith, by linarith⟩
    | true =>
      have hx : (m : ℚ) + 1 / 2 < x ∧ x < m + 1 / 2 + 1 / 2 := by simpa [Stands, base] using h
      exact hbetween ⟨by linarith, by linarith⟩

private theorem Stands.shiftRight {em : ExtendedMantissa} {x : ℚ} (h : Stands em x) (k : ℕ) :
    Stands (em >>> k) (x / 2 ^ k) := by
  induction k with
  | zero =>
    rw [pow_zero, div_one]
    exact h
  | succ k ih =>
    rw [pow_succ, ← div_div]
    exact ih.shiftRightOne

private theorem nearest_natCast (n : ℕ) : Nearest n n where
  up := by linarith
  down := by linarith
  even := by
    rintro (htie | htie)
    · linarith
    · linarith

/-! ## Rounding to 53 bits -/

/-- `v` is the number of 53 bits nearest to `x`, whatever its exponent. -/
def Rounds (x v : ℚ) : Prop :=
  ∃ (l : ℤ) (r : ℕ), 2 ^ l ≤ x ∧ x < 2 ^ (l + 1) ∧ Nearest (x / 2 ^ (l - 52)) r ∧
    v = r * 2 ^ (l - 52)

/-- Before the bits are cut off, the number has 53 bits in front of the point. -/
private theorem scaled_bounds {x : ℚ} {l : ℤ} (hlow : 2 ^ l ≤ x) (hhigh : x < 2 ^ (l + 1)) :
    ((2 ^ 52 : ℕ) : ℚ) ≤ x / 2 ^ (l - 52) ∧ x / 2 ^ (l - 52) ≤ ((2 ^ 53 : ℕ) : ℚ) := by
  have hpos : (0 : ℚ) < 2 ^ (l - 52) := zpow_pos (by norm_num) _
  constructor
  · rw [le_div_iff₀ hpos]
    refine le_trans (le_of_eq ?_) hlow
    rw [Nat.cast_pow, Nat.cast_ofNat, ← zpow_natCast, ← zpow_add₀ (by norm_num)]
    congr 1
    push_cast
    ring
  · rw [div_le_iff₀ hpos]
    refine hhigh.le.trans (le_of_eq ?_)
    rw [Nat.cast_pow, Nat.cast_ofNat, ← zpow_natCast, ← zpow_add₀ (by norm_num)]
    congr 1
    push_cast
    ring

private theorem Nearest.bounds {x : ℚ} {l : ℤ} {r : ℕ} (h : Nearest (x / 2 ^ (l - 52)) r)
    (hlow : 2 ^ l ≤ x) (hhigh : x < 2 ^ (l + 1)) : 2 ^ 52 ≤ r ∧ r ≤ 2 ^ 53 := by
  obtain ⟨hl, hh⟩ := scaled_bounds hlow hhigh
  exact ⟨(nearest_natCast _).mono h hl, h.mono (nearest_natCast _) hh⟩

theorem Rounds.mono {x y v w : ℚ} (hx : Rounds x v) (hy : Rounds y w) (h : x ≤ y) : v ≤ w := by
  obtain ⟨l, r, hxlow, hxhigh, hr, rfl⟩ := hx
  obtain ⟨l', r', hylow, hyhigh, hr', rfl⟩ := hy
  have hone : (1 : ℚ) < 2 := by norm_num
  have hle : l < l' + 1 :=
    (zpow_lt_zpow_iff_right₀ hone).1 (lt_of_le_of_lt (hxlow.trans h) hyhigh)
  rcases (Int.lt_add_one_iff.1 hle).eq_or_lt with rfl | hlt
  · have hpos : (0 : ℚ) < 2 ^ (l - 52) := zpow_pos (by norm_num) _
    have hrr : r ≤ r' := hr.mono hr' (div_le_div_of_nonneg_right h hpos.le)
    exact mul_le_mul_of_nonneg_right (by exact_mod_cast hrr) hpos.le
  · -- A smaller number with fewer bits is rounded to the next power of two at most.
    have hhigh : (r : ℚ) ≤ 2 ^ (53 : ℤ) := by exact_mod_cast (hr.bounds hxlow hxhigh).2
    have hlow : (2 : ℚ) ^ (52 : ℤ) ≤ r' := by exact_mod_cast (hr'.bounds hylow hyhigh).1
    calc (r : ℚ) * 2 ^ (l - 52)
      _ ≤ 2 ^ (53 : ℤ) * 2 ^ (l - 52) := by gcongr
      _ = 2 ^ (l + 1) := by
        rw [← zpow_add₀ (by norm_num)]
        congr 1
        ring
      _ ≤ 2 ^ l' := zpow_le_zpow_right₀ hone.le hlt
      _ = 2 ^ (52 : ℤ) * 2 ^ (l' - 52) := by
        rw [← zpow_add₀ (by norm_num)]
        congr 1
        ring
      _ ≤ r' * 2 ^ (l' - 52) := by gcongr

/-! ## Rounding a mantissa -/

private theorem stands_exact (m : ℕ) :
    Stands (ExtendedMantissa.ofMantissaAndAccuracy m .exact) m := by
  simp [Stands, base, ExtendedMantissa.ofMantissaAndAccuracy]

/-- A mantissa is rounded to the nearest number of the right length, and cut once more in case that
    rounding up has added a bit. -/
theorem roundWithAccuracy_exact (sign : Sign) (m : ℕ) (e : ℤ) :
    ∃ r, Nearest (m / 2 ^ droppedBits m e) r ∧
      roundWithAccuracy binary64 sign m e .exact =
        if h : r / 2 ^ droppedBits r (e + droppedBits m e) = 0 then .zero sign
        else .finite sign (r / 2 ^ droppedBits r (e + droppedBits m e))
          (e + droppedBits m e + droppedBits r (e + droppedBits m e)) (Nat.pos_of_ne_zero h) := by
  refine ⟨_, ((stands_exact m).shiftRight (droppedBits m e)).nearest, ?_⟩
  simp only [roundWithAccuracy, shiftToTargetExponent_eq, mantissa_shiftRight,
    mantissa_ofMantissaAndAccuracy]

private theorem log2_bounds {m : ℕ} {e : ℤ} (hm : m ≠ 0) :
    (2 : ℚ) ^ (m.log2 + e) ≤ m * 2 ^ e ∧ (m : ℚ) * 2 ^ e < 2 ^ (m.log2 + e + 1) := by
  have hlow : (2 : ℚ) ^ (m.log2 : ℤ) ≤ m := by exact_mod_cast Nat.log2_self_le hm
  have hhigh : (m : ℚ) < 2 ^ ((m.log2 + 1 : ℕ) : ℤ) := by exact_mod_cast @Nat.lt_log2_self m
  have hpos : (0 : ℚ) < 2 ^ e := zpow_pos (by norm_num) _
  constructor
  · rw [zpow_add₀ (by norm_num)]
    gcongr
  · rw [add_right_comm, zpow_add₀ (by norm_num)]
    push_cast at hhigh
    gcongr

/-- A long mantissa of a number that is not too small is rounded to 53 bits. -/
theorem exists_round_eq_rounds (sign : Sign) {m : ℕ} {e : ℤ} (hm : 52 ≤ m.log2)
    (he : -1074 ≤ m.log2 + e - 52) :
    ∃ m' e' hm', roundWithAccuracy binary64 sign m e .exact = .finite sign m' e' hm' ∧
      m'.log2 = 52 ∧ m.log2 + e - 52 ≤ e' ∧ Rounds (m * 2 ^ e) (m' * 2 ^ e') := by
  have hm0 : m ≠ 0 := by
    rintro rfl
    exact absurd hm (by decide)
  obtain ⟨r, hnearest, heq⟩ := roundWithAccuracy_exact sign m e
  have hfirst : droppedBits m e = m.log2 - 52 := by
    simp only [droppedBits, targetExponent]
    omega
  have hexponent : e + ((m.log2 - 52 : ℕ) : ℤ) = m.log2 + e - 52 := by omega
  rw [hfirst, hexponent] at heq
  obtain ⟨hlow, hhigh⟩ := log2_bounds (e := e) hm0
  have hscaled : (m : ℚ) / 2 ^ droppedBits m e = m * 2 ^ e / 2 ^ (m.log2 + e - 52) := by
    rw [hfirst, ← hexponent, zpow_add₀ (by norm_num), zpow_natCast]
    field_simp
  rw [hscaled] at hnearest
  obtain ⟨hrlow, hrhigh⟩ := hnearest.bounds hlow hhigh
  have hrounds : Rounds (m * 2 ^ e) (r * 2 ^ (m.log2 + e - 52)) :=
    ⟨m.log2 + e, r, hlow, hhigh, hnearest, rfl⟩
  rcases hrhigh.eq_or_lt with rfl | hrlt
  · -- Rounding up has added a bit.
    have hsecond : droppedBits (2 ^ 53) (m.log2 + e - 52) = 1 := by
      simp only [droppedBits, targetExponent, Nat.log2_two_pow]
      omega
    rw [hsecond, dif_neg (by decide)] at heq
    refine ⟨_, _, _, heq, by decide, by omega, ?_⟩
    have hvalue : ((2 ^ 53 / 2 ^ 1 : ℕ) : ℚ) * 2 ^ (m.log2 + e - 52 + ((1 : ℕ) : ℤ)) =
        ((2 ^ 53 : ℕ) : ℚ) * 2 ^ (m.log2 + e - 52) := by
      rw [zpow_add₀ (by norm_num)]
      norm_num
      ring
    rwa [hvalue]
  · have hlog : r.log2 = 52 := (Nat.log2_eq_iff (by omega)).2 ⟨hrlow, hrlt⟩
    have hsecond : droppedBits r (m.log2 + e - 52) = 0 := by
      simp only [droppedBits, targetExponent, hlog]
      omega
    rw [hsecond, dif_neg (by simp; omega)] at heq
    refine ⟨_, _, _, heq, by simpa using hlog, by omega, ?_⟩
    simpa using hrounds

/-! ## Products -/

/-- A number of 53 bits is packed as it is, as long as there is room for its exponent. -/
theorem exists_unpack_pack {sign : Sign} {m : ℕ} {e : ℤ} {hm : 0 < m} (hbits : m.log2 = 52)
    (hlow : -1074 ≤ e) (hhigh : e ≤ 971) :
    ∃ sign', (Float.Model.pack (.finite sign m e hm)).unpack = .finite sign' m e hm := by
  have hbias : (binary64.exponentBias : ℤ) = 1023 := rfl
  have hfull : m.log2 + 1 = binary64.mantissaBits := by
    rw [hbits]
    rfl
  obtain ⟨hmlow, hmhigh⟩ := (Nat.log2_eq_iff (by omega)).1 hbits
  have hfield : (BitVec.ofNat binary64.exponentBits (e + 1023 + 52).toNat).toNat =
      (e + 1075).toNat := by
    rw [BitVec.toNat_ofNat, Nat.mod_eq_of_lt (by change _ < 2048; omega)]
    omega
  have hmantissa : (1#1 ++ BitVec.ofNat binary64.mantissaBitsWithoutImplicit m).toNat = m := by
    rw [BitVec.toNat_append, ← Nat.shiftLeft_add_eq_or_of_lt (BitVec.isLt _), BitVec.toNat_ofNat,
      Nat.shiftLeft_eq]
    change 1 * 2 ^ 52 + m % 2 ^ 52 = m
    omega
  have hpack : Float.Model.UnpackedFloat.pack binary64 (.finite sign m e hm) =
      Float.Model.UnpackedFloat.packComponents binary64 sign
        (BitVec.ofNat binary64.exponentBits (e + 1023 + 52).toNat) (BitVec.ofNat _ m) := by
    simp only [Float.Model.UnpackedFloat.pack, hbias]
    rw [if_neg (by change ¬ 2048 ≤ _; omega), if_pos hfull]
    rfl
  change ∃ sign', Float.Model.UnpackedFloat.unpack binary64
    (Float.Model.UnpackedFloat.pack binary64 (.finite sign m e hm)) = _
  rw [hpack]
  simp only [Float.Model.UnpackedFloat.unpack, unpackExponent_packComponents,
    Float.Model.UnpackedFloat.unpackMantissa_packComponents]
  rw [if_neg, if_neg]
  · refine ⟨_, Eq.mpr (UnpackedFloat.finite.injEq ..) ⟨rfl, hmantissa, ?_⟩⟩
    rw [hfield, hbias]
    change ((e + 1075).toNat : ℤ) - (1023 + 52) = e
    omega
  · intro hzero
    have hnat := congrArg BitVec.toNat hzero
    rw [hfield] at hnat
    change _ = 0 at hnat
    omega
  · intro hinfinite
    have hnat := congrArg BitVec.toNat hinfinite
    rw [hfield] at hnat
    change _ = 2047 at hnat
    omega

/-- The end of the range. -/
theorem isInf_pack_iff {sign : Sign} {m : ℕ} {e : ℤ} {hm : 0 < m} (hbits : m.log2 = 52)
    (hlow : -1074 ≤ e) :
    (Float.Model.pack (.finite sign m e hm)).isInf = true ↔ (2 : ℚ) ^ (1024 : ℤ) ≤ m * 2 ^ e := by
  obtain ⟨hmlow, hmhigh⟩ := log2_bounds (e := e) hm.ne'
  rw [hbits] at hmlow hmhigh
  have hone : (1 : ℚ) ≤ 2 := by norm_num
  rcases lt_or_ge 971 e with he | he
  · refine iff_of_true (isInf_pack he) (le_trans (zpow_le_zpow_right₀ hone ?_) hmlow)
    push_cast
    omega
  · refine iff_of_false ?_ (not_le.2 (hmhigh.trans_le (zpow_le_zpow_right₀ hone ?_)))
    · obtain ⟨sign', hunpack⟩ := @exists_unpack_pack sign m e hm hbits hlow he
      rw [Float.Model.isInf, hunpack]
      exact Bool.false_ne_true
    · push_cast
      omega

/-- A finite number with a mantissa of 53 bits and without a fraction has the size `v`. -/
def HasSize (x : Float) (v : ℚ) : Prop :=
  ∃ sign m e hm, x.toModel.unpack = .finite sign m e hm ∧ m.log2 = 52 ∧ 0 ≤ e ∧ v = m * 2 ^ e

theorem exists_hasSize {x : Float} {sign : Sign} {m : ℕ} {e : ℤ} (hm : 52 ≤ m.log2)
    (he : 0 ≤ m.log2 + e - 52)
    (hx : x.toModel = Float.Model.pack (roundWithAccuracy binary64 sign m e .exact))
    (hfinite : x.isInf = false) : ∃ v, Rounds (m * 2 ^ e) v ∧ HasSize x v := by
  obtain ⟨m', e', hm', hround, hbits, hlow, hrounds⟩ :=
    exists_round_eq_rounds sign hm (by omega : -1074 ≤ m.log2 + e - 52)
  rw [hround] at hx
  have hhigh : e' ≤ 971 := by
    by_contra hlarge
    rw [Float.isInf, hx, isInf_pack (not_le.1 hlarge)] at hfinite
    cases hfinite
  obtain ⟨sign', hunpack⟩ := @exists_unpack_pack sign m' e' hm' hbits (by omega) hhigh
  exact ⟨_, hrounds, sign', m', e', hm', by rw [hx, hunpack], hbits, by omega, rfl⟩

/-- A product overflows if its exact value does after rounding. -/
theorem HasSize.isInf_mul {x y : Float} {v w : ℚ} (hx : HasSize x v) (hy : HasSize y w) :
    ∃ z, Rounds (v * w) z ∧ ((x * y).isInf = true ↔ (2 : ℚ) ^ (1024 : ℤ) ≤ z) := by
  obtain ⟨sign, m, e, hm, hunpack, hbits, he, rfl⟩ := hx
  obtain ⟨sign', m', e', hm', hunpack', hbits', he', rfl⟩ := hy
  have hproduct : 104 ≤ (m * m').log2 := by
    rw [Nat.le_log2 (Nat.mul_pos hm hm').ne', show 104 = 52 + 52 from rfl, Nat.pow_add]
    exact Nat.mul_le_mul ((Nat.le_log2 hm.ne').1 hbits.ge) ((Nat.le_log2 hm'.ne').1 hbits'.ge)
  obtain ⟨m'', e'', hm'', hround, hbits'', hlow, hrounds⟩ :=
    exists_round_eq_rounds (sign * sign') (m := m * m') (e := e + e') (by omega) (by omega)
  refine ⟨m'' * 2 ^ e'', ?_, ?_⟩
  · have hvalue : (m : ℚ) * 2 ^ e * (m' * 2 ^ e') = (m * m' : ℕ) * 2 ^ (e + e') := by
      rw [zpow_add₀ (by norm_num)]
      push_cast
      ring
    rwa [hvalue]
  · have hmul : (x * y).toModel = Float.Model.pack (.finite (sign * sign') m'' e'' hm'') := by
      change Float.Model.pack
        (Float.Model.UnpackedFloat.mul binary64 x.toModel.unpack y.toModel.unpack) = _
      rw [hunpack, hunpack', ← hround]
      rfl
    rw [Float.isInf, hmul]
    exact isInf_pack_iff hbits'' (by omega)

/-- Where a product overflows, so does every larger one. -/
theorem isInf_mul_mono {x y x' y' : Float} {v w v' w' : ℚ} (hx : HasSize x v) (hy : HasSize y w)
    (hx' : HasSize x' v') (hy' : HasSize y' w') (hv : v ≤ v') (hw : w ≤ w')
    (h : (x * y).isInf = true) : (x' * y').isInf = true := by
  obtain ⟨z, hz, hinf⟩ := hx.isInf_mul hy
  obtain ⟨z', hz', hinf'⟩ := hx'.isInf_mul hy'
  have hnonneg : 0 ≤ w := by
    obtain ⟨_, m, e, _, _, _, _, rfl⟩ := hy
    positivity
  have hnonneg' : 0 ≤ v' := by
    obtain ⟨_, m, e, _, _, _, _, rfl⟩ := hx'
    positivity
  rw [hinf']
  exact (hinf.1 h).trans (hz.mono hz' (mul_le_mul hv hw hnonneg hnonneg'))

end DocQuery
