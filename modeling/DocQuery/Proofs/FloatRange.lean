-- SUMMARY: Bounds on floating-point numbers under rounding, products, quotients and powers of ten.
import DocQuery.Json.Numeral
import Mathlib

/-!
# The range of floating-point numbers

A finite number other than zero is a mantissa of at most 53 bits times a power of two. Numbers are
finite as long as the exponent of this power does not exceed 971. `UpTo k` bounds the exponent
from above and `AtLeast k` from below. Each operation comes with a bound for its result, so that a
computation is known to stay finite without being carried out.
-/

namespace DocQuery

open Float.Model (UnpackedFloat totalExponent)
open Float.Model.Format (binary64)
open Float.Model.UnpackedFloat (Sign Accuracy ExtendedMantissa roundWithAccuracy unpackExponent
  unpackExponent_packComponents)

/-- A finite number whose exponent is at most `k`. -/
inductive UpTo (k : Int) : UnpackedFloat → Prop where
  | zero {sign : Sign} : UpTo k (.zero sign)
  | finite {sign : Sign} {m : Nat} {e : Int} {hm : 0 < m} (h : e ≤ k) :
    UpTo k (.finite sign m e hm)

/-- A finite number, other than zero, whose exponent is at least `k`. -/
inductive AtLeast (k : Int) : UnpackedFloat → Prop where
  | finite {sign : Sign} {m : Nat} {e : Int} {hm : 0 < m} (h : k ≤ e) :
    AtLeast k (.finite sign m e hm)

theorem UpTo.mono {u : UnpackedFloat} {i j : Int} (h : UpTo i u) (hij : i ≤ j) : UpTo j u := by
  cases h with
  | zero => exact .zero
  | finite h => exact .finite (h.trans hij)

theorem AtLeast.mono {u : UnpackedFloat} {i j : Int} (h : AtLeast j u) (hij : i ≤ j) :
    AtLeast i u := by
  cases h with
  | finite h => exact .finite (hij.trans h)

theorem AtLeast.exists_upTo {u : UnpackedFloat} {k : Int} (h : AtLeast k u) : ∃ j, UpTo j u := by
  cases h with
  | finite h => exact ⟨_, .finite (le_refl _)⟩

instance (k : Int) : (u : UnpackedFloat) → Decidable (AtLeast k u)
  | .zero _ => isFalse nofun
  | .finite _ _ e _ => decidable_of_iff (k ≤ e) ⟨.finite, fun | .finite h => h⟩
  | .infinity _ => isFalse nofun
  | .notANumber => isFalse nofun

/-! ## Lengths of mantissas -/

private theorem log2_lt_of_lt {m n : Nat} (hn : 0 < n) (h : m < 2 ^ n) : m.log2 < n := by
  rcases Nat.eq_zero_or_pos m with rfl | hm
  · exact hn
  · exact (Nat.log2_lt (Nat.ne_of_gt hm)).2 h

private theorem log2_le_of_le_shiftLeft {m n s : Nat} (h : n ≤ m <<< s) : n.log2 ≤ m.log2 + s := by
  refine Nat.le_of_lt_succ (log2_lt_of_lt (Nat.succ_pos _) ?_)
  calc n ≤ m * 2 ^ s := Nat.shiftLeft_eq m s ▸ h
    _ < 2 ^ (m.log2 + 1) * 2 ^ s := Nat.mul_lt_mul_of_pos_right Nat.lt_log2_self (Nat.two_pow_pos s)
    _ = 2 ^ (m.log2 + s + 1) := by rw [← Nat.pow_add, Nat.add_right_comm]

/-- Rounding up adds at most one bit to what is left of a mantissa. -/
private theorem log2_le_of_le_succ {m r k : Nat} (h : r ≤ m / 2 ^ k + 1) :
    r.log2 = 0 ∨ r.log2 + k ≤ m.log2 + 1 := by
  rcases Nat.lt_or_ge m.log2 k with hk | hk
  · -- Nothing is left of the mantissa.
    have hm : m / 2 ^ k = 0 := by
      refine Nat.div_eq_of_lt (Nat.lt_log2_self.trans_le ?_)
      exact Nat.pow_le_pow_right Nat.two_pos hk
    have hr : r = 0 ∨ r = 1 := by omega
    rcases hr with rfl | rfl
    · exact .inl rfl
    · exact .inl rfl
  · have hm : m / 2 ^ k < 2 ^ (m.log2 + 1 - k) := by
      rw [Nat.div_lt_iff_lt_mul (Nat.two_pow_pos k), ← Nat.pow_add]
      refine Nat.lt_log2_self.trans_le ?_
      exact Nat.pow_le_pow_right Nat.two_pos (by omega)
    have hlog : r.log2 < m.log2 + 1 - k + 1 := by
      refine log2_lt_of_lt (Nat.succ_pos _) ?_
      have hpos := Nat.two_pow_pos (m.log2 + 1 - k)
      rw [Nat.pow_succ]
      omega
    omega

/-- Cutting a long mantissa leaves 53 bits. -/
private theorem log2_cut {m : Nat} (h : 52 ≤ m.log2) : (m / 2 ^ (m.log2 - 52)).log2 = 52 := by
  have hm : m ≠ 0 := by
    rintro rfl
    exact absurd h (by decide)
  have hlow : 2 ^ 52 ≤ m / 2 ^ (m.log2 - 52) := by
    rw [Nat.le_div_iff_mul_le (Nat.two_pow_pos _), ← Nat.pow_add, Nat.add_sub_cancel' h]
    exact Nat.log2_self_le hm
  have hhigh : m / 2 ^ (m.log2 - 52) < 2 ^ 53 := by
    rw [Nat.div_lt_iff_lt_mul (Nat.two_pow_pos _), ← Nat.pow_add]
    exact Nat.lt_log2_self.trans_le (Nat.pow_le_pow_right Nat.two_pos (by omega))
  exact (Nat.log2_eq_iff (by omega)).2 ⟨hlow, hhigh⟩

private theorem ne_zero_of_log2 {m : Nat} (h : m.log2 = 52) : m ≠ 0 := by
  rintro rfl
  exact absurd h (by decide)

/-! ## Rounding -/

/-- The exponent that a number is rounded to: what is left of its mantissa has 53 bits, or fewer
    if the number is very small. -/
def targetExponent (m : Nat) (e : Int) : Int :=
  max (m.log2 + e - 52) (-1074)

/-- How many bits rounding drops from a mantissa. -/
def droppedBits (m : Nat) (e : Int) : Nat :=
  (targetExponent m e - e).toNat

theorem mantissa_shiftRight (em : ExtendedMantissa) (k : Nat) :
    (em >>> k).mantissa = em.mantissa / 2 ^ k := by
  induction k with
  | zero => exact (Nat.div_one _).symm
  | succ k ih =>
    change (em >>> k).mantissa / 2 = _
    rw [ih, Nat.div_div_eq_div_mul, Nat.pow_succ]

private theorem roundedMantissa_bounds (em : ExtendedMantissa) :
    em.mantissa ≤ em.roundedMantissa ∧ em.roundedMantissa ≤ em.mantissa + 1 := by
  obtain ⟨m, roundBit, stickyBit⟩ := em
  cases roundBit <;> cases stickyBit <;>
    simp only [ExtendedMantissa.roundedMantissa, ExtendedMantissa.accuracy,
      Accuracy.roundToNearestEven] <;> omega

theorem mantissa_ofMantissaAndAccuracy (m : Nat) (accuracy : Accuracy) :
    (ExtendedMantissa.ofMantissaAndAccuracy m accuracy).mantissa = m := by
  cases accuracy with
  | exact => rfl
  | inexact order => cases order <;> rfl

theorem shiftToTargetExponent_eq (m : Nat) (e : Int) (accuracy : Accuracy) :
    Float.Model.UnpackedFloat.shiftToTargetExponent binary64 m e accuracy =
      (ExtendedMantissa.ofMantissaAndAccuracy m accuracy >>> droppedBits m e,
        e + droppedBits m e) := by
  have htarget : binary64.targetExponent (totalExponent m e) = targetExponent m e := by
    simp only [Float.Model.Format.targetExponent, totalExponent, targetExponent,
      Float.Model.Format.mantissaBits, Float.Model.Format.minExponent]
    omega
  simp only [Float.Model.UnpackedFloat.shiftToTargetExponent,
    Float.Model.UnpackedFloat.shiftToExponent, htarget, droppedBits]

/-- Everything that rounding can return. The mantissa is cut, perhaps rounded up to `r`, and cut
    once more in case that rounding up has added a bit. -/
theorem roundWithAccuracy_cases (sign : Sign) (m : Nat) (e : Int) (accuracy : Accuracy) :
    ∃ r, m / 2 ^ droppedBits m e ≤ r ∧ r ≤ m / 2 ^ droppedBits m e + 1 ∧
      roundWithAccuracy binary64 sign m e accuracy =
        if h : r / 2 ^ droppedBits r (e + droppedBits m e) = 0 then .zero sign
        else .finite sign (r / 2 ^ droppedBits r (e + droppedBits m e))
          (e + droppedBits m e + droppedBits r (e + droppedBits m e)) (Nat.pos_of_ne_zero h) := by
  have hbounds := roundedMantissa_bounds
    (ExtendedMantissa.ofMantissaAndAccuracy m accuracy >>> droppedBits m e)
  rw [mantissa_shiftRight, mantissa_ofMantissaAndAccuracy] at hbounds
  refine ⟨_, hbounds.1, hbounds.2, ?_⟩
  simp only [roundWithAccuracy, shiftToTargetExponent_eq, mantissa_shiftRight,
    mantissa_ofMantissaAndAccuracy]

private theorem upTo_round {sign : Sign} {m : Nat} {e : Int} {accuracy : Accuracy} {k : Int}
    (hk : -1074 ≤ k) (he : e ≤ k) (hm : m.log2 + e - 51 ≤ k) :
    UpTo k (roundWithAccuracy binary64 sign m e accuracy) := by
  obtain ⟨r, _, hr, heq⟩ := roundWithAccuracy_cases sign m e accuracy
  rw [heq]
  split
  · exact .zero
  · have hlog := log2_le_of_le_succ hr
    refine .finite ?_
    simp only [droppedBits, targetExponent] at hlog ⊢
    omega

/-- A number with a long mantissa that is not too small is rounded to 53 bits. -/
private theorem exists_round_eq_finite (sign : Sign) {m : Nat} {e : Int} (accuracy : Accuracy)
    (hm : 52 ≤ m.log2) (he : -1074 ≤ m.log2 + e - 52) :
    ∃ m' e' hm', roundWithAccuracy binary64 sign m e accuracy = .finite sign m' e' hm' ∧
      m'.log2 = 52 ∧ m.log2 + e - 52 ≤ e' := by
  obtain ⟨r, hlow, _, heq⟩ := roundWithAccuracy_cases sign m e accuracy
  have hfirst : droppedBits m e = m.log2 - 52 := by
    simp only [droppedBits, targetExponent]
    omega
  rw [hfirst] at hlow heq
  have hcut := log2_cut hm
  have hpow : 2 ^ 52 ≤ r := ((Nat.le_log2 (ne_zero_of_log2 hcut)).1 hcut.ge).trans hlow
  have hr : 52 ≤ r.log2 := (Nat.le_log2 (by omega)).2 hpow
  have hsecond : droppedBits r (e + (m.log2 - 52 : Nat)) = r.log2 - 52 := by
    simp only [droppedBits, targetExponent]
    omega
  rw [hsecond, dif_neg (ne_zero_of_log2 (log2_cut hr))] at heq
  exact ⟨_, _, _, heq, log2_cut hr, by omega⟩

/-! ## Packed numbers

The field of the exponent holds the exponent plus 1075. Its least value stands for zero and very
small numbers, its greatest value 2047 for what is not finite. -/

private theorem mantissa_unpack_lt {x : Float.Model} {sign : Sign} {m : Nat} {e : Int} {hm : 0 < m}
    (h : x.unpack = .finite sign m e hm) : m < 2 ^ 53 := by
  simp only [Float.Model.unpack, Float.Model.UnpackedFloat.unpack] at h
  split at h
  · split at h
    · cases h
    · cases h
  · split at h
    · split at h
      · cases h
      · injection h with _ hmantissa
        rw [← hmantissa]
        exact (BitVec.isLt _).trans (by decide)
    · injection h with _ hmantissa
      rw [← hmantissa]
      exact BitVec.isLt _

private theorem bounds_unpack {b : BitVec binary64.numBits} {k : Int}
    (hfinite : (unpackExponent b).toNat ≤ 2046) :
    (-1074 ≤ k → (unpackExponent b).toNat - 1075 ≤ k →
      UpTo k (Float.Model.UnpackedFloat.unpack binary64 b)) ∧
    (1 ≤ (unpackExponent b).toNat → k ≤ (unpackExponent b).toNat - 1075 →
      AtLeast k (Float.Model.UnpackedFloat.unpack binary64 b)) := by
  have hbias : (binary64.exponentBias : Int) + binary64.mantissaBitsWithoutImplicit = 1075 := rfl
  rw [Float.Model.UnpackedFloat.unpack, hbias]
  split
  next hinfinite =>
    rw [hinfinite] at hfinite
    exact absurd hfinite (by decide)
  next =>
    split
    next hzero =>
      rw [hzero]
      refine ⟨fun hlow _ => ?_, fun hpos => absurd hpos (by decide)⟩
      split
      · exact .zero
      · exact .finite hlow
    next => exact ⟨fun _ hk => .finite hk, fun _ hk => .finite hk⟩

private theorem unpackExponent_pack_le {u : UnpackedFloat} {k : Int} (h : UpTo k u)
    (hhigh : k ≤ 971) :
    (unpackExponent (Float.Model.UnpackedFloat.pack binary64 u)).toNat ≤ (k + 1075).toNat := by
  have hbias : (binary64.exponentBias : Int) = 1023 := rfl
  cases h with
  | zero =>
    rw [Float.Model.UnpackedFloat.pack, Float.Model.UnpackedFloat.packedZero,
      unpackExponent_packComponents]
    exact Nat.zero_le _
  | finite h =>
    simp only [Float.Model.UnpackedFloat.pack, hbias]
    split
    next hinfinite => exact absurd hinfinite (by change ¬ 2048 ≤ _; omega)
    next =>
      split
      · rw [unpackExponent_packComponents, BitVec.toNat_ofNat]
        refine (Nat.mod_le _ _).trans ?_
        omega
      · rw [unpackExponent_packComponents]
        exact Nat.zero_le _

/-- Packing keeps the exponent, as long as there is room for it. -/
theorem upTo_pack {u : UnpackedFloat} {k : Int} (h : UpTo k u) (hlow : -1074 ≤ k)
    (hhigh : k ≤ 971) : UpTo k (Float.Model.pack u).unpack := by
  have hfield := unpackExponent_pack_le h hhigh
  change UpTo k (Float.Model.UnpackedFloat.unpack binary64
    (Float.Model.UnpackedFloat.pack binary64 u))
  exact (bounds_unpack (by omega)).1 hlow (by omega)

private theorem atLeast_pack {sign : Sign} {m : Nat} {e k : Int} {hm : 0 < m} (hbits : m.log2 = 52)
    (hlow : -1074 ≤ e) (hhigh : e ≤ 971) (hk : k ≤ e) :
    AtLeast k (Float.Model.pack (.finite sign m e hm)).unpack := by
  have hfield : ((unpackExponent
      (Float.Model.UnpackedFloat.pack binary64 (.finite sign m e hm))).toNat : Int) = e + 1075 := by
    have hbias : (binary64.exponentBias : Int) = 1023 := rfl
    have hfull : m.log2 + 1 = binary64.mantissaBits := by
      rw [hbits]
      rfl
    simp only [Float.Model.UnpackedFloat.pack, hbias]
    rw [if_neg (by change ¬ 2048 ≤ _; omega), if_pos hfull, unpackExponent_packComponents,
      BitVec.toNat_ofNat, Nat.mod_eq_of_lt (by change _ < 2048; omega)]
    omega
  change AtLeast k (Float.Model.UnpackedFloat.unpack binary64
    (Float.Model.UnpackedFloat.pack binary64 (.finite sign m e hm)))
  exact (bounds_unpack (by omega)).2 (by omega) (by omega)

/-- A finite number becomes infinite when there is no room for its exponent, but nothing worse. -/
theorem isInf_pack {sign : Sign} {m : Nat} {e : Int} {hm : 0 < m} (h : 971 < e) :
    (Float.Model.pack (.finite sign m e hm)).isInf = true := by
  have hbias : (binary64.exponentBias : Int) = 1023 := rfl
  have hpack : Float.Model.UnpackedFloat.pack binary64 (.finite sign m e hm) =
      Float.Model.UnpackedFloat.packedInfinity binary64 sign := by
    simp only [Float.Model.UnpackedFloat.pack, hbias]
    rw [if_pos (by change 2048 ≤ _; omega)]
  change (Float.Model.UnpackedFloat.unpack binary64
    (Float.Model.UnpackedFloat.pack binary64 (.finite sign m e hm))).isInf = true
  rw [hpack]
  cases sign <;> rfl

private theorem upTo_pack_of_isInf {u : UnpackedFloat} {k : Int} (h : UpTo k u)
    (hinf : (Float.Model.pack u).isInf = false) : UpTo 971 (Float.Model.pack u).unpack := by
  refine upTo_pack ?_ (by decide) (by decide)
  cases h with
  | zero => exact .zero
  | @finite sign m e hm h =>
    refine .finite ?_
    by_contra hlarge
    rw [isInf_pack (by omega)] at hinf
    cases hinf

/-! ## Operations -/

theorem isFinite_of_upTo {x : Float} {k : Int} (h : UpTo k x.toModel.unpack) :
    x.isFinite = true := by
  rw [Float.isFinite, Float.Model.isFinite]
  generalize x.toModel.unpack = u at h
  cases h with
  | zero => rfl
  | finite => rfl

theorem upTo_neg {x : Float} {k : Int} (h : UpTo k x.toModel.unpack) (hlow : -1074 ≤ k)
    (hhigh : k ≤ 971) : UpTo k (-x).toModel.unpack := by
  refine upTo_pack ?_ hlow hhigh
  generalize x.toModel.unpack = u at h
  cases h with
  | zero => exact .zero
  | finite h => exact .finite h

/-- A product of two mantissas has at most 106 bits, half of which are dropped. -/
theorem upTo_product {x y : Float.Model} {i j : Int} (hx : UpTo i x.unpack)
    (hy : UpTo j y.unpack) :
    UpTo (max (i + j + 54) (-1074)) (Float.Model.UnpackedFloat.mul binary64 x.unpack y.unpack) := by
  generalize hu : x.unpack = u at hx
  generalize hv : y.unpack = v at hy
  cases hx with
  | zero =>
    cases hy with
    | zero => exact .zero
    | finite => exact .zero
  | @finite sign m e hm hx =>
    cases hy with
    | zero => exact .zero
    | @finite sign' m' e' hm' hy =>
      have hproduct : (m * m').log2 < 53 + 53 := by
        refine log2_lt_of_lt (by decide) ?_
        rw [Nat.pow_add]
        exact Nat.mul_lt_mul'' (mantissa_unpack_lt hu) (mantissa_unpack_lt hv)
      exact upTo_round (by omega) (by omega) (by omega)

theorem upTo_mul {x y : Float} {i j k : Int} (hx : UpTo i x.toModel.unpack)
    (hy : UpTo j y.toModel.unpack) (hlow : -1074 ≤ k) (hk : i + j + 54 ≤ k) (hhigh : k ≤ 971) :
    UpTo k (x * y).toModel.unpack := by
  have hmax : max (i + j + 54) (-1074) ≤ k := by omega
  exact upTo_pack ((upTo_product hx hy).mono hmax) hlow hhigh

/-- A product of finite numbers is finite unless it is infinite. -/
theorem upTo_mul_of_isInf {x y : Float} {i j : Int} (hx : UpTo i x.toModel.unpack)
    (hy : UpTo j y.toModel.unpack) (h : (x * y).isInf = false) :
    UpTo 971 (x * y).toModel.unpack :=
  upTo_pack_of_isInf (upTo_product hx hy) h

theorem upTo_div {x y : Float} {i j k : Int} (hx : UpTo i x.toModel.unpack)
    (hy : AtLeast j y.toModel.unpack) (hlow : -1074 ≤ k) (hk : i - j + 1 ≤ k) (hhigh : k ≤ 971) :
    UpTo k (x / y).toModel.unpack := by
  refine upTo_pack ?_ hlow hhigh
  generalize hu : x.toModel.unpack = u at hx
  generalize y.toModel.unpack = v at hy
  cases hy with
  | @finite sign' m' e' hm' hy =>
    cases hx with
    | zero => exact .zero
    | @finite sign m e hm hx =>
      have hbits : m.log2 < 53 := log2_lt_of_lt (by decide) (mantissa_unpack_lt hu)
      simp only [Float.Model.UnpackedFloat.div, Float.Model.UnpackedFloat.divCore]
      generalize hs : min (e - e') _ = s
      have hse : s ≤ e - e' := hs ▸ min_le_left _ _
      -- The quotient is no longer than the dividend with the zeros that were appended to it.
      have hquotient := log2_le_of_le_shiftLeft (Nat.div_le_self (m <<< (e - e' - s).toNat) m')
      exact upTo_round hlow (by omega) (by omega)

/-! ## Whole numbers -/

private theorem upTo_toFloat (n : UInt64) : UpTo 12 n.toFloat.toModel.unpack := by
  refine upTo_pack ?_ (by decide) (by decide)
  have hbits : n.toNat.log2 < 64 := log2_lt_of_lt (by decide) n.toNat_lt
  simp only [Float.Model.UnpackedFloat.ofUInt64, Float.Model.UnpackedFloat.ofNat,
    Float.Model.UnpackedFloat.ofInt, Float.Model.UnpackedFloat.normalize]
  split
  next hnegative => exact absurd (Int.compare_eq_lt.1 hnegative) (by omega)
  next => exact .zero
  next =>
    simp only [Float.Model.UnpackedFloat.round, Float.Model.UnpackedFloat.decreaseExponent,
      Int.toNat_natCast]
    generalize (0 - binary64.targetExponent _).toNat = s
    have hshifted := log2_le_of_le_shiftLeft (Nat.le_refl (n.toNat <<< s))
    exact upTo_round (by decide) (by omega) (by omega)

/-- A decimal beyond the short ones, as it is rounded. -/
theorem toModel_ofScientific {n k : Nat} (hn : 0 < n) (hk : k ≤ 2048)
    (hlong : ¬ (n < 2 ^ 53 ∧ k ≤ 22)) :
    (Float.ofScientific n false k).toModel = Float.Model.pack
      (roundWithAccuracy binary64 .positive (n <<< 53 * 10 ^ k) (-53) .exact) := by
  rw [Float.ofScientific, dif_neg hlong]
  simp only [Bool.false_eq_true, if_false, Float.Model.ofScientific,
    Float.Model.UnpackedFloat.ofScientific]
  rw [dif_neg (by omega), if_neg (by simp; omega), if_neg (by simp; omega), if_pos (by simp)]
  rfl

/-- Whole numbers of 64 bits are far from the end of the range. -/
theorem upTo_ofNat {n : Nat} (h : n < 2 ^ 64) : UpTo 14 (Float.ofNat n).toModel.unpack := by
  change UpTo 14 (Float.ofScientific n false 0).toModel.unpack
  by_cases hshort : n < 2 ^ 53
  · have hone : UpTo (-52) (Float.exactlyRepresentablePowersOfTen[0]).toModel.unpack :=
      .finite (le_refl (-52))
    rw [Float.ofScientific, dif_pos ⟨hshort, by decide⟩]
    exact upTo_mul (upTo_toFloat _) hone (by decide) (by decide) (by decide)
  · rw [toModel_ofScientific (by omega) (by decide) (by omega)]
    have hbits : n.log2 < 64 := log2_lt_of_lt (by decide) h
    have hlength : (n <<< 53 * 10 ^ 0).log2 ≤ n.log2 + 53 :=
      log2_le_of_le_shiftLeft (by rw [Nat.pow_zero, Nat.mul_one])
    generalize n <<< 53 * 10 ^ 0 = m at hlength ⊢
    exact upTo_pack (upTo_round (by decide) (by decide) (by omega)) (by decide) (by decide)

theorem isFinite_ofInt {n : Int} (hlow : -2 ^ 64 < n) (hhigh : n < 2 ^ 64) :
    (Float.ofInt n).isFinite = true := by
  cases n with
  | ofNat n =>
    rw [Int.ofNat_eq_natCast] at hhigh
    exact isFinite_of_upTo (upTo_ofNat (by omega))
  | negSucc n =>
    exact isFinite_of_upTo (upTo_neg (upTo_ofNat (by omega)) (by decide) (by decide))

/-! ## Powers of ten -/

private theorem atLeast_powerOfTen_short :
    ∀ n ≤ 22, AtLeast (-52) (Json.powerOfTen n).toModel.unpack := by
  decide +kernel

theorem atLeast_powerOfTen_max : AtLeast 971 (Json.powerOfTen Json.maxExponent).toModel.unpack := by
  decide +kernel

/-- A power of ten in range is finite and no fraction. -/
theorem atLeast_powerOfTen {n : Nat} (hn : n ≤ Json.maxExponent) :
    AtLeast (-52) (Json.powerOfTen n).toModel.unpack := by
  rcases Nat.eq_or_lt_of_le hn with rfl | hn
  · exact atLeast_powerOfTen_max.mono (by decide)
  by_cases hshort : n ≤ 22
  · exact atLeast_powerOfTen_short n hshort
  have hhigh : 1 <<< 53 * 10 ^ n < 2 ^ 1076 :=
    calc 1 <<< 53 * 10 ^ n
      _ ≤ 1 <<< 53 * 10 ^ (Json.maxExponent - 1) :=
        Nat.mul_le_mul_left _ (Nat.pow_le_pow_right (by decide) (Nat.le_sub_one_of_lt hn))
      _ < 2 ^ 1076 := by decide +kernel
  have hlow : 2 ^ 53 ≤ 1 <<< 53 * 10 ^ n := Nat.le_mul_of_pos_right _ (Nat.pow_pos (by decide))
  simp only [Json.maxExponent] at hn
  rw [Json.powerOfTen, toModel_ofScientific (by decide) (by omega) (by omega)]
  generalize 1 <<< 53 * 10 ^ n = m at hlow hhigh ⊢
  have hlowBits : 53 ≤ m.log2 := (Nat.le_log2 (by omega)).2 hlow
  have hhighBits : m.log2 < 1076 := log2_lt_of_lt (by decide) hhigh
  obtain ⟨m', e, hm, heq, hbits, he⟩ :=
    exists_round_eq_finite .positive .exact (m := m) (e := -53) (by omega) (by omega)
  have hupTo : UpTo 971 (roundWithAccuracy binary64 .positive m (-53) .exact) :=
    upTo_round (by decide) (by decide) (by omega)
  rw [heq] at hupTo ⊢
  cases hupTo with
  | finite hhigh => exact atLeast_pack hbits (by omega) hhigh (by omega)

end DocQuery
