/-
Doubles and their patterns.

A double is its 64 bits, and the arithmetic of doubles unpacks them into a sign, a significand and
an exponent and packs the outcome again. This file says what that means for `magnitudeBits` and
`isNegative`: which patterns are finite, that a pattern up to that of infinity is kept by
`Float.ofBits`, and that the patterns of the doubles from zero upwards count their values in
ascending order (`units_strictMono`), in steps that grow with the exponent (`units_succ`) up to the
one before infinity (`units_add_le_infinity`).
-/
import Mathlib
import PromptTags.Decimal.Binary64

set_option autoImplicit false

namespace PromptTags.Decimal

open Float.Model Float.Model.UnpackedFloat

/-! ## 1. The fields of a pattern -/

theorem toNat_unpackExponent (b : BitVec 64) :
    (@unpackExponent Format.binary64 b).toNat = b.toNat / 2 ^ 52 % 2 ^ 11 := by
  simp [unpackExponent, BitVec.extractLsb, Nat.shiftRight_eq_div_pow]

theorem toNat_unpackMantissa (b : BitVec 64) :
    (@unpackMantissa Format.binary64 b).toNat = b.toNat % 2 ^ 52 := by
  simp [unpackMantissa, BitVec.extractLsb]

theorem exponent_eq_iff (b : BitVec 64) :
    @unpackExponent Format.binary64 b = (-1#_) ↔ b.toNat / 2 ^ 52 % 2 ^ 11 = 2047 := by
  rw [← toNat_unpackExponent, ← BitVec.toNat_inj]
  rfl

/-- A pattern up to that of infinity is not one of the many for "not a number". -/
theorem valid_of_le {b : BitVec 64} (h : b.toNat ≤ infinityBits) : Format.binary64.Valid b := by
  have hle : b.toNat ≤ 2047 * 2 ^ 52 := h
  refine ⟨fun hexponent hmantissa => absurd ?_ hmantissa⟩
  rw [exponent_eq_iff] at hexponent
  apply BitVec.eq_of_toNat_eq
  rw [toNat_unpackMantissa]
  show b.toNat % 2 ^ 52 = 0
  omega

/-! ## 2. Kinds of doubles -/

theorem isFinite_unpack (b : BitVec 64) :
    (UnpackedFloat.unpack Format.binary64 b).isFinite = true
      ↔ b.toNat / 2 ^ 52 % 2 ^ 11 ≠ 2047 := by
  rw [UnpackedFloat.unpack, Ne, ← exponent_eq_iff]
  by_cases he : @unpackExponent Format.binary64 b = (-1#_)
  · rw [if_pos he]
    refine ⟨fun h => ?_, fun h => absurd he h⟩
    split at h <;> exact absurd h Bool.false_ne_true
  · rw [if_neg he]
    refine ⟨fun _ => he, fun _ => ?_⟩
    split_ifs <;> rfl

/-- The finite doubles are those with a pattern below that of infinity. -/
theorem isFinite_iff (x : Float) : x.isFinite = true ↔ magnitudeBits x < infinityBits := by
  have hx : x.toBits.toNat < 2 ^ 64 := x.toBits.toNat_lt
  have h : x.isFinite = true ↔ x.toBits.toNat / 2 ^ 52 % 2 ^ 11 ≠ 2047 :=
    isFinite_unpack x.toBits.toBitVec
  rw [h]
  show _ ↔ x.toBits.toNat % 2 ^ 63 < 2047 * 2 ^ 52
  omega

theorem isNaN_of_isFinite {x : Float} (h : x.isFinite = true) : x.isNaN = false := by
  have h' : x.toModel.unpack.isFinite = true := h
  show x.toModel.unpack.isNaN = false
  cases hu : x.toModel.unpack <;> rw [hu] at h' <;> first | rfl | exact absurd h' Bool.false_ne_true

theorem isInf_of_isFinite {x : Float} (h : x.isFinite = true) : x.isInf = false := by
  have h' : x.toModel.unpack.isFinite = true := h
  show x.toModel.unpack.isInf = false
  cases hu : x.toModel.unpack <;> rw [hu] at h' <;> first | rfl | exact absurd h' Bool.false_ne_true

theorem isInf_of_not_isFinite {x : Float} (h : x.isFinite = false) (hnan : x.isNaN = false) :
    x.isInf = true := by
  have h' : x.toModel.unpack.isFinite = false := h
  have hnan' : x.toModel.unpack.isNaN = false := hnan
  show x.toModel.unpack.isInf = true
  cases hu : x.toModel.unpack <;> rw [hu] at h' hnan' <;>
    first
    | rfl
    | exact absurd h'.symm Bool.false_ne_true
    | exact absurd hnan'.symm Bool.false_ne_true

theorem toNat_toBits_ofBits {b : Nat} (h : b ≤ infinityBits) :
    (Float.ofBits (UInt64.ofNat b)).toBits.toNat = b := by
  have hle : b ≤ 2047 * 2 ^ 52 := h
  have hb : (UInt64.ofNat b).toBitVec.toNat = b := by
    show b % 2 ^ 64 = b
    omega
  have hkept := pack_unpack_of_valid (valid_of_le (hb.trans_le h))
  show (UnpackedFloat.pack Format.binary64
      (UnpackedFloat.unpack Format.binary64 (UInt64.ofNat b).toBitVec)).toNat = b
  rw [hkept, hb]

theorem magnitudeBits_ofBits {b : Nat} (h : b ≤ infinityBits) :
    magnitudeBits (Float.ofBits (UInt64.ofNat b)) = b := by
  have hle : b ≤ 2047 * 2 ^ 52 := h
  rw [magnitudeBits, toNat_toBits_ofBits h]
  show b % 2 ^ 63 = b
  omega

theorem isNegative_ofBits {b : Nat} (h : b ≤ infinityBits) :
    isNegative (Float.ofBits (UInt64.ofNat b)) = false := by
  have hle : b ≤ 2047 * 2 ^ 52 := h
  rw [isNegative, toNat_toBits_ofBits h]
  exact decide_eq_false (by show ¬ 2 ^ 63 ≤ b; omega)

/-! ## 3. The values of patterns -/

theorem twoTo_pos (e : Nat) : 0 < twoTo e := Nat.two_pow_pos e

theorem twoTo_lt {d e : Nat} (h : d < e) : twoTo d < twoTo e := Nat.pow_lt_pow_right (by decide) h

theorem tenTo_pos (e : Nat) : 0 < tenTo e := Nat.pow_pos (by decide)

theorem unitsPerOne_pos : 0 < unitsPerOne := twoTo_pos _

/-- A pattern is a number of 53 digits times a power of two. With the least power there may be fewer
digits, and a number that carries to one digit more is in its place too. -/
theorem units_shift {s m : Nat} (hm : m ≤ 2 * 2 ^ 52) (hs : s = 0 ∨ 2 ^ 52 ≤ m) :
    units (s * 2 ^ 52 + m) = m * 2 ^ s := by
  have hP : patternsPerExponent = 2 ^ 52 := rfl
  have htwo : ∀ e, twoTo e = 2 ^ e := fun _ => rfl
  simp only [units, hP, htwo]
  -- Three cases: too few digits, just enough of them, and the one number with a digit more.
  rcases Nat.lt_or_ge m (2 ^ 52) with hlow | hhigh
  · have hs0 : s = 0 := hs.resolve_right (by omega)
    rw [hs0, Nat.zero_mul, Nat.zero_add, Nat.div_eq_of_lt hlow, Nat.mod_eq_of_lt hlow, if_pos rfl,
      Nat.pow_zero, Nat.mul_one]
  rcases Nat.lt_or_ge m (2 * 2 ^ 52) with hlt | hge
  · have hdiv : (s * 2 ^ 52 + m) / 2 ^ 52 = s + 1 := by omega
    have hmod : (s * 2 ^ 52 + m) % 2 ^ 52 = m - 2 ^ 52 := by omega
    rw [hdiv, hmod, if_neg (Nat.succ_ne_zero s), Nat.add_sub_cancel, Nat.add_sub_cancel' hhigh]
  · have hcarry : m = 2 * 2 ^ 52 := by omega
    have hdiv : (s * 2 ^ 52 + m) / 2 ^ 52 = s + 2 := by omega
    have hmod : (s * 2 ^ 52 + m) % 2 ^ 52 = 0 := by omega
    rw [hdiv, hmod, if_neg (by omega), hcarry, Nat.add_zero, show s + 2 - 1 = s + 1 by omega,
      Nat.pow_succ]
    ring

theorem exists_shift (b : Nat) :
    ∃ s m, b = s * 2 ^ 52 + m ∧ m < 2 * 2 ^ 52 ∧ (s = 0 ∨ 2 ^ 52 ≤ m) := by
  by_cases h : b < 2 ^ 52
  · exact ⟨0, b, by omega, by omega, Or.inl rfl⟩
  · exact ⟨b / 2 ^ 52 - 1, b % 2 ^ 52 + 2 ^ 52, by omega, by omega, Or.inr (by omega)⟩

/-- The step from a pattern to the next one is the power of two of its exponent. -/
theorem units_succ {s m : Nat} (hm : m < 2 * 2 ^ 52) (hs : s = 0 ∨ 2 ^ 52 ≤ m) :
    units (s * 2 ^ 52 + m + 1) = units (s * 2 ^ 52 + m) + 2 ^ s := by
  rw [Nat.add_assoc, units_shift (by omega) (by omega), units_shift (by omega) hs, Nat.add_mul,
    Nat.one_mul]

/-- The patterns count the doubles in ascending order. -/
theorem units_strictMono : StrictMono units := by
  refine strictMono_nat_of_lt_succ fun b => ?_
  obtain ⟨s, m, rfl, hm, hs⟩ := exists_shift b
  rw [units_succ hm hs]
  exact Nat.lt_add_of_pos_right (Nat.two_pow_pos s)

/-- Between the finite patterns and that of infinity lies the greatest step of all. -/
theorem units_add_le_infinity {b : Nat} (hb : b < infinityBits) :
    units b + twoTo 2045 ≤ units infinityBits := by
  -- The exponent gets a name, or its power of two would be computed.
  obtain ⟨s, hs⟩ : ∃ s, 2045 = s := ⟨_, rfl⟩
  have hlast : infinityBits = s * 2 ^ 52 + (2 * 2 ^ 52 - 1) + 1 := by rw [← hs]; rfl
  rw [hlast] at hb
  rw [hs, hlast, units_succ (by omega) (Or.inr (by omega))]
  exact Nat.add_le_add_right (units_strictMono.monotone (by omega)) _

theorem units_infinityBits : units infinityBits = 2 ^ 53 * twoTo 2045 := by
  obtain ⟨s, hs⟩ : ∃ s, 2045 = s := ⟨_, rfl⟩
  have hbits : infinityBits = s * 2 ^ 52 + 2 * 2 ^ 52 := by rw [← hs]; rfl
  rw [hbits, units_shift (Nat.le_refl _) (Or.inr (by omega)), hs]
  rfl

end PromptTags.Decimal
