-- SUMMARY: Texts as UTF-16 code units, and where such a sequence can be cut between characters.
import DocQuery.Json.StringLiteral

/-!
# UTF-16

A character of the basic plane is one code unit, any other a pair of surrogates. Since no unit is
both the end of one character and the start of another, a sequence of units can be read in one way
only, and every place before a unit that is no trailing surrogate is a place between characters.
-/

namespace DocQuery.Utf16

open Json.StringLiteral (isLeading isTrailing joinSurrogates)

/-- The code units of a character. -/
def units (c : Char) : List UInt16 :=
  if c.toNat < 0x10000 then [UInt16.ofNat c.toNat]
  else
    let offset := c.toNat - 0x10000
    [UInt16.ofNat (0xd800 + offset / 0x400), UInt16.ofNat (0xdc00 + offset % 0x400)]

/-- The code units of a text. -/
def encode (s : List Char) : List UInt16 :=
  s.flatMap units

/-- A character of the basic plane is a single code unit. -/
def Basic (c : Char) : Prop :=
  c.toNat < 0x10000

instance : DecidablePred Basic := fun c => inferInstanceAs (Decidable (c.toNat < 0x10000))

@[simp] theorem encode_nil : encode [] = [] := rfl

@[simp] theorem encode_cons (c : Char) (s : List Char) : encode (c :: s) = units c ++ encode s :=
  rfl

@[simp] theorem encode_append (s t : List Char) : encode (s ++ t) = encode s ++ encode t :=
  List.flatMap_append

/-! ## Characters -/

theorem units_of_basic {c : Char} (h : Basic c) :
    ∃ u, units c = [u] ∧ u.toNat = c.toNat ∧ isLeading u.toNat = false ∧
      isTrailing u.toNat = false := by
  have hvalid : c.toNat < 0xd800 ∨ 0xdfff < c.toNat ∧ c.toNat < 0x110000 := c.valid
  have hunit : (UInt16.ofNat c.toNat).toNat = c.toNat := UInt16.toNat_ofNat_of_lt h
  refine ⟨UInt16.ofNat c.toNat, if_pos h, hunit, ?_, ?_⟩
  · rw [hunit, isLeading, Bool.and_eq_false_iff, decide_eq_false_iff_not, decide_eq_false_iff_not]
    omega
  · rw [hunit, isTrailing, Bool.and_eq_false_iff, decide_eq_false_iff_not, decide_eq_false_iff_not]
    omega

/-- Beyond the basic plane a character is a pair of surrogates, which the reader of string literals
    joins again. -/
theorem units_of_not_basic {c : Char} (h : ¬ Basic c) :
    ∃ l t, units c = [l, t] ∧ isLeading l.toNat = true ∧ isTrailing t.toNat = true ∧
      joinSurrogates l.toNat t.toNat = c := by
  have hlow : 0x10000 ≤ c.toNat := Nat.le_of_not_lt h
  have hhigh : c.toNat < 0x110000 := by
    have hvalid : c.toNat < 0xd800 ∨ 0xdfff < c.toNat ∧ c.toNat < 0x110000 := c.valid
    omega
  have hl : (UInt16.ofNat (0xd800 + (c.toNat - 0x10000) / 0x400)).toNat =
      0xd800 + (c.toNat - 0x10000) / 0x400 :=
    UInt16.toNat_ofNat_of_lt (by change _ < 0x10000; omega)
  have ht : (UInt16.ofNat (0xdc00 + (c.toNat - 0x10000) % 0x400)).toNat =
      0xdc00 + (c.toNat - 0x10000) % 0x400 :=
    UInt16.toNat_ofNat_of_lt (by change _ < 0x10000; omega)
  refine ⟨_, _, if_neg h, ?_, ?_, ?_⟩
  · rw [hl, isLeading, Bool.and_eq_true, decide_eq_true_eq, decide_eq_true_eq]
    omega
  · rw [ht, isTrailing, Bool.and_eq_true, decide_eq_true_eq, decide_eq_true_eq]
    omega
  · have hjoin : 0x10000 + 0x400 * ((c.toNat - 0x10000) / 0x400) + (c.toNat - 0x10000) % 0x400 =
        c.toNat := by
      omega
    rw [hl, ht, joinSurrogates, Nat.add_sub_cancel_left, Nat.add_sub_cancel_left, hjoin,
      Char.ofNat_toNat]

theorem head_units (c : Char) :
    ∃ u us, units c = u :: us ∧ isTrailing u.toNat = false := by
  by_cases h : Basic c
  · obtain ⟨u, hu, _, _, htrailing⟩ := units_of_basic h
    exact ⟨u, [], hu, htrailing⟩
  · obtain ⟨l, t, hu, hleading, _⟩ := units_of_not_basic h
    refine ⟨l, [t], hu, ?_⟩
    simp only [isLeading, isTrailing, Bool.and_eq_true, Bool.and_eq_false_iff, decide_eq_true_eq,
      decide_eq_false_iff_not] at hleading ⊢
    omega

theorem last_units (c : Char) :
    ∃ us u, units c = us ++ [u] ∧ isLeading u.toNat = false := by
  by_cases h : Basic c
  · obtain ⟨u, hu, _, hleading, _⟩ := units_of_basic h
    exact ⟨[], u, hu, hleading⟩
  · obtain ⟨l, t, hu, _, htrailing, _⟩ := units_of_not_basic h
    refine ⟨[l], t, hu, ?_⟩
    simp only [isLeading, isTrailing, Bool.and_eq_true, Bool.and_eq_false_iff, decide_eq_true_eq,
      decide_eq_false_iff_not] at htrailing ⊢
    omega

/-- The first character of a sequence of units is known from the units. -/
theorem units_append_inj {c d : Char} {a b : List UInt16} (h : units c ++ a = units d ++ b) :
    c = d ∧ a = b := by
  by_cases hc : Basic c
  · obtain ⟨u, hu, huc, huleading, _⟩ := units_of_basic hc
    by_cases hd : Basic d
    · obtain ⟨v, hv, hvd, _⟩ := units_of_basic hd
      rw [hu, hv] at h
      injection h with hhead htail
      refine ⟨Char.toNat_inj.1 ?_, htail⟩
      rw [← huc, ← hvd, hhead]
    · obtain ⟨l, t, hv, hleading, _⟩ := units_of_not_basic hd
      rw [hu, hv] at h
      injection h with hhead
      rw [hhead, hleading] at huleading
      cases huleading
  · obtain ⟨l, t, hu, hleading, _, hjoin⟩ := units_of_not_basic hc
    by_cases hd : Basic d
    · obtain ⟨v, hv, _, hvleading, _⟩ := units_of_basic hd
      rw [hu, hv] at h
      injection h with hhead
      rw [← hhead, hleading] at hvleading
      cases hvleading
    · obtain ⟨l', t', hv, _, _, hjoin'⟩ := units_of_not_basic hd
      rw [hu, hv] at h
      injection h with hl htail
      injection htail with ht hrest
      exact ⟨by rw [← hjoin, ← hjoin', hl, ht], hrest⟩

/-! ## Texts -/

theorem encode_eq_nil {s : List Char} : encode s = [] ↔ s = [] := by
  cases s with
  | nil => simp
  | cons c s =>
    obtain ⟨u, us, hu, _⟩ := head_units c
    simp [hu]

theorem encode_eq_units_append {s : List Char} {c : Char} {b : List UInt16} :
    encode s = units c ++ b ↔ ∃ rest, s = c :: rest ∧ encode rest = b := by
  constructor
  · intro h
    cases s with
    | nil =>
      obtain ⟨u, us, hu, _⟩ := head_units c
      rw [hu] at h
      cases h
    | cons d rest =>
      obtain ⟨rfl, hrest⟩ := units_append_inj h
      exact ⟨rest, rfl, hrest⟩
  · rintro ⟨rest, rfl, rfl⟩
    rfl

/-- Units can be cut between characters wherever no trailing surrogate follows. -/
theorem exists_cut {s : List Char} {a b : List UInt16} (h : encode s = a ++ b)
    (hb : ∀ u, b.head? = some u → isTrailing u.toNat = false) :
    ∃ r t, s = r ++ t ∧ encode r = a ∧ encode t = b := by
  induction s generalizing a with
  | nil =>
    obtain ⟨rfl, rfl⟩ := List.append_eq_nil_iff.1 h.symm
    exact ⟨[], [], rfl, rfl, rfl⟩
  | cons c s ih =>
    rw [encode_cons] at h
    rcases List.append_eq_append_iff.1 h with ⟨a', rfl, hs⟩ | ⟨c', hc, rfl⟩
    · obtain ⟨r, t, rfl, rfl, rfl⟩ := ih hs
      exact ⟨c :: r, t, rfl, rfl, rfl⟩
    · cases a with
      | nil => exact ⟨[], c :: s, rfl, rfl, by rw [encode_cons, hc, List.nil_append]⟩
      | cons u a =>
        cases c' with
        | nil => exact ⟨[c], s, rfl, by simpa using hc, rfl⟩
        | cons v c' =>
          -- A cut inside the first character is a cut before its trailing surrogate.
          have htrailing := hb v rfl
          by_cases hbasic : Basic c
          · obtain ⟨u', hu, _⟩ := units_of_basic hbasic
            have hlength := congrArg List.length (hu.symm.trans hc)
            simp at hlength
          · obtain ⟨l, t, hu, _, ht, _⟩ := units_of_not_basic hbasic
            have hpair : l = u ∧ [t] = a ++ v :: c' := by simpa using hu.symm.trans hc
            obtain ⟨rfl, hv⟩ | ⟨_, hnil⟩ := List.singleton_eq_append_iff.1 hpair.2
            · cases hv
              rw [ht] at htrailing
              cases htrailing
            · cases hnil

theorem length_encode_of_basic {s : List Char} (h : ∀ c ∈ s, Basic c) :
    (encode s).length = s.length := by
  induction s with
  | nil => rfl
  | cons c s ih =>
    obtain ⟨u, hu, _⟩ := units_of_basic (h c List.mem_cons_self)
    simp [hu, ih fun d hd => h d (List.mem_cons_of_mem c hd)]

theorem isTrailing_of_basic {s : List Char} (h : ∀ c ∈ s, Basic c) {u : UInt16}
    (hu : u ∈ encode s) : isTrailing u.toNat = false := by
  obtain ⟨c, hc, huc⟩ := List.mem_flatMap.1 hu
  obtain ⟨v, hv, _, _, htrailing⟩ := units_of_basic (h c hc)
  rw [hv, List.mem_singleton] at huc
  rw [huc, htrailing]

end DocQuery.Utf16
