-- SUMMARY: The numbers that a text can hold: whole numbers of 64 bits and finite floating-point numbers.
import DocQuery.Json.Reader
import DocQuery.Proofs.FloatRange

/-!
# Numbers in texts

However a numeral is spelled, the value that is read from it is a whole number of 64 bits or a
finite floating-point number. A draft is `Proper` if that holds of all numbers in it, and every
draft of a text is.
-/

namespace DocQuery.Json

/-! ## Values of numerals -/

/-- A number that a text can spell. -/
def Number.Proper : Number → Prop
  | .int n => -2 ^ 63 ≤ n ∧ n < 2 ^ 64
  | .float x => x.isFinite = true

private theorem upTo_shrink {x : Float} {n : Nat} (h : UpTo 14 x.toModel.unpack) :
    UpTo 67 (shrink x n).toModel.unpack := by
  fun_induction shrink x n with
  | case1 x n hn => exact upTo_div h (atLeast_powerOfTen hn) (by decide) (by decide) (by decide)
  | case2 x n hn hzero => exact h.mono (by decide)
  | case3 x n hn hzero ih =>
    exact ih (upTo_div h atLeast_powerOfTen_max (by decide) (by decide) (by decide))

private theorem upTo_stretch? {x y : Float} {n : Nat} (hx : UpTo 14 x.toModel.unpack)
    (h : stretch? x n = some y) : UpTo 971 y.toModel.unpack := by
  unfold stretch? at h
  split at h
  next hn =>
    obtain ⟨k, hpower⟩ := (atLeast_powerOfTen hn).exists_upTo
    dsimp only at h
    split at h
    next => cases h
    next hinf =>
      cases h
      exact upTo_mul_of_isInf hx hpower (Bool.eq_false_iff.2 hinf)
  next =>
    split at h
    next =>
      cases h
      exact hx.mono (by decide)
    next => cases h

private theorem upTo_scale? {significand : Nat} {exponent : Int} {x : Float}
    (hs : significand < wordLimit) (h : scale? significand exponent = some x) :
    UpTo 971 x.toModel.unpack := by
  have hfloat : UpTo 14 (Float.ofNat significand).toModel.unpack := upTo_ofNat hs
  unfold scale? at h
  dsimp only at h
  split at h
  · exact upTo_stretch? hfloat h
  · cases h
    exact (upTo_shrink hfloat).mono (by decide)

theorem takeDigits_lt {n : Nat} {cs : List Char} (h : n < wordLimit) :
    (takeDigits n cs).1 < wordLimit := by
  fun_induction takeDigits n cs with
  | case1 n => exact h
  | case2 n c cs next hnext ih => exact ih hnext
  | case3 n c cs next hnext => exact h

private theorem Numeral.upTo_magnitude? {x : Numeral} {y : Float} (h : x.magnitude? = some y) :
    UpTo 971 y.toModel.unpack := by
  have hzero : UpTo 971 (0 : Float).toModel.unpack := .zero
  have hstart : (takeDigits 0 x.whole).1 < wordLimit := takeDigits_lt (by decide)
  have hsignificand := @takeDigits_lt _ x.fraction hstart
  unfold Numeral.magnitude? at h
  dsimp only at h
  split at h
  next => exact upTo_scale? hsignificand h
  next down digits _ =>
    split at h
    next =>
      split at h
      · cases h
        exact hzero
      · cases h
    next => exact upTo_scale? hsignificand h

private theorem Numeral.proper_int? {x : Numeral} {n : Int} (h : x.int? = some n) :
    (Number.int n).Proper := by
  have hlimit : wordLimit = 2 ^ 64 := rfl
  unfold Numeral.int? at h
  dsimp only at h
  split at h
  · cases h
  split at h
  · split at h
    next hrange =>
      cases h
      simp only [Bool.and_eq_true, decide_eq_true_eq] at hrange
      simp only [Number.Proper]
      omega
    next => cases h
  · split at h
    next hrange =>
      cases h
      simp only [Number.Proper]
      omega
    next => cases h

theorem Numeral.proper_value? {x : Numeral} {v : Number} (h : x.value? = some v) : v.Proper := by
  unfold Numeral.value? at h
  split at h
  next n hn =>
    cases h
    exact Numeral.proper_int? hn
  next =>
    obtain ⟨m, hm, rfl⟩ := Option.map_eq_some_iff.1 h
    have hmagnitude := Numeral.upTo_magnitude? hm
    refine isFinite_of_upTo (k := 971) ?_
    split
    · exact upTo_neg hmagnitude (by decide) (by decide)
    · exact hmagnitude

private theorem proper_scanNumber {cs : List Char} {v : Number}
    (h : (scanNumber cs).1.read = .ok v) :
    v.Proper := by
  simp only [scanNumber] at h
  split at h
  next x _ =>
    split at h
    next n hn =>
      cases h
      exact Numeral.proper_value? hn
    next => cases h
  next => cases h

/-! ## Drafts -/

mutual

/-- Every number that can be read from the draft is one that a text can spell. -/
def Draft.Proper : Draft → Prop
  | .absent => True
  | .broken _ => True
  | .null => True
  | .bool _ => True
  | .number n => ∀ v, n.read = .ok v → v.Proper
  | .string _ => True
  | .array items => items.Proper
  | .object members => members.Proper

def Items.Proper : Items → Prop
  | .close => True
  | .cut _ => True
  | .item head rest => head.Proper ∧ rest.Proper

/-- Nothing is read from what stands where a key should. -/
def Members.Proper : Members → Prop
  | .close => True
  | .cut _ => True
  | .noKey _ => True
  | .member _ value rest => value.Proper ∧ rest.Proper

end

/-- The functions that scan a text return proper drafts if they may take `fuel` steps. -/
structure ScansProper (fuel : Nat) : Prop where
  value : ∀ cs, (scanValue fuel cs).1.Proper
  firstItem : ∀ cs, (scanFirstItem fuel cs).1.Proper
  item : ∀ cs, (scanItem fuel cs).1.Proper
  firstMember : ∀ cs, (scanFirstMember fuel cs).1.Proper
  member : ∀ cs, (scanMember fuel cs).1.Proper

private theorem proper_scanWord {value : Draft} {word cs : List Char} (h : value.Proper) :
    (scanWord value word cs).1.Proper := by
  unfold scanWord
  split
  · exact h
  · simp [Draft.Proper]

private theorem scansProper_zero : ScansProper 0 where
  value cs := by simp [scanValue, Draft.Proper]
  firstItem cs := by simp [scanFirstItem, Items.Proper]
  item cs := by simp [scanItem, Items.Proper]
  firstMember cs := by simp [scanFirstMember, Members.Proper]
  member cs := by simp [scanMember, Members.Proper]

private theorem ScansProper.succ {fuel : Nat} (h : ScansProper fuel) : ScansProper (fuel + 1) where
  value cs := by
    unfold scanValue
    split
    · simp [Draft.Proper]
    · exact proper_scanWord (by simp [Draft.Proper])
    · exact proper_scanWord (by simp [Draft.Proper])
    · exact proper_scanWord (by simp [Draft.Proper])
    · simp [Draft.Proper]
    · simpa only [Draft.Proper] using h.firstItem _
    · simpa only [Draft.Proper] using h.firstMember _
    · split
      · simp only [Draft.Proper]
        intro v hv
        exact proper_scanNumber hv
      · simp [Draft.Proper]
  firstItem cs := by
    unfold scanFirstItem
    split
    · simp [Items.Proper]
    · simp [Items.Proper]
    · exact h.item _
  item cs := by
    unfold scanItem
    dsimp only
    split
    · simpa [Items.Proper] using h.value cs
    · simpa [Items.Proper] using h.value cs
    · simpa only [Items.Proper] using ⟨h.value cs, h.item _⟩
    · simpa [Items.Proper] using h.value cs
  firstMember cs := by
    unfold scanFirstMember
    split
    · simp [Members.Proper]
    · simp [Members.Proper]
    · exact h.member _
  member cs := by
    unfold scanMember
    split
    next rest _ =>
      split
      next key rest _ =>
        split
        next value rest hfound =>
          have hvalue : value.Proper := by
            split at hfound
            next afterColon _ =>
              have hscan := h.value afterColon
              rwa [hfound] at hscan
            next =>
              cases hfound
              simp [Draft.Proper]
            next =>
              cases hfound
              simp [Draft.Proper]
          split
          · rw [Members.Proper, Members.Proper]
            exact ⟨hvalue, trivial⟩
          · rw [Members.Proper, Members.Proper]
            exact ⟨hvalue, trivial⟩
          · rw [Members.Proper]
            exact ⟨hvalue, h.member _⟩
          · rw [Members.Proper, Members.Proper]
            exact ⟨hvalue, trivial⟩
    next => simp [Members.Proper]

theorem proper_ofText (text : String) : (Document.ofText text).root.Proper := by
  have h : ∀ fuel, ScansProper fuel := by
    intro fuel
    induction fuel with
    | zero => exact scansProper_zero
    | succ fuel ih => exact ih.succ
  exact (h (3 * text.toList.length + 3)).value text.toList

end DocQuery.Json
