/-
The sign of a product.

The sign bit of a product is the product of the signs, whatever the sizes are, and rounding and
packing keep it. So a product of two doubles without a sign has none (`isNegative_mul`), be it zero,
finite or infinite, and what is not a number is packed without a sign as well.
-/
import PromptTags.Proofs.Decimal.Doubles

set_option autoImplicit false

namespace PromptTags.Decimal

open Float.Model Float.Model.UnpackedFloat

/-- An unpacked number without a sign. -/
def Unsigned : UnpackedFloat → Prop
  | .notANumber => True
  | .infinity s => s = .positive
  | .zero s => s = .positive
  | .finite s _ _ _ => s = .positive

/-- The sign bit stands above all others. -/
theorem toNat_packComponents_positive (e : BitVec 11) (m : BitVec 52) :
    (packComponents Format.binary64 .positive e m).toNat < 2 ^ 63 := by
  show (0#1 ++ e ++ m).toNat < 2 ^ 63
  rw [BitVec.toNat_append, BitVec.toNat_append, BitVec.toNat_zero, Nat.zero_shiftLeft, Nat.zero_or,
    ← Nat.shiftLeft_add_eq_or_of_lt m.isLt, Nat.shiftLeft_eq]
  have he := e.isLt
  have hm := m.isLt
  omega

theorem toNat_pack_of_unsigned {u : UnpackedFloat} (h : Unsigned u) :
    (UnpackedFloat.pack Format.binary64 u).toNat < 2 ^ 63 := by
  cases u with
  | notANumber => exact toNat_packComponents_positive _ _
  | infinity s =>
    obtain rfl : s = .positive := h
    exact toNat_packComponents_positive _ _
  | zero s =>
    obtain rfl : s = .positive := h
    exact toNat_packComponents_positive _ _
  | finite s m e hm =>
    obtain rfl : s = .positive := h
    rw [UnpackedFloat.pack]
    -- An exponent out of range, a leading one, or none: the sign is packed in any case.
    split_ifs <;> exact toNat_packComponents_positive _ _

theorem unsigned_unpack {b : BitVec 64} (h : b.toNat < 2 ^ 63) :
    Unsigned (UnpackedFloat.unpack Format.binary64 b) := by
  have hsign : @unpackSign Format.binary64 b = 0#1 := by
    apply BitVec.eq_of_toNat_eq
    simp only [unpackSign, BitVec.toNat_cast, BitVec.extractLsb, BitVec.extractLsb'_toNat,
      Nat.shiftRight_eq_div_pow]
    show b.toNat / 2 ^ 63 % 2 ^ 1 = 0
    omega
  rw [UnpackedFloat.unpack, hsign]
  split_ifs
  · exact rfl
  · exact trivial
  · exact rfl
  · exact rfl
  · exact rfl

theorem unsigned_round (m : Nat) (e : Int) :
    Unsigned (roundWithAccuracy Format.binary64 .positive m e .exact) := by
  rw [roundWithAccuracy]
  dsimp only
  split_ifs <;> exact rfl

theorem mul_eq_positive {s t : Sign} (hs : s = .positive) (ht : t = .positive) :
    s * t = .positive := by
  rw [hs, ht]
  rfl

theorem unsigned_mul {u v : UnpackedFloat} (hu : Unsigned u) (hv : Unsigned v) :
    Unsigned (UnpackedFloat.mul Format.binary64 u v) := by
  rw [UnpackedFloat.mul.eq_def]
  split
  -- A factor that is not a number.
  · exact trivial
  · exact trivial
  -- Infinity times infinity, and times a number.
  · exact mul_eq_positive hu hv
  · exact mul_eq_positive hu hv
  · exact mul_eq_positive hu hv
  -- Infinity times zero.
  · exact trivial
  · exact trivial
  -- Zero times a number, and times zero.
  · exact mul_eq_positive hu hv
  · exact mul_eq_positive hu hv
  · exact mul_eq_positive hu hv
  -- Two numbers.
  · rw [mul_eq_positive hu hv]
    exact unsigned_round _ _

theorem isNegative_eq_false_iff (x : Float) :
    isNegative x = false ↔ x.toBits.toBitVec.toNat < 2 ^ 63 := by
  rw [isNegative, decide_eq_false_iff_not, Nat.not_le]
  rfl

/-- **A product of doubles without a sign** has no sign. -/
theorem isNegative_mul {x y : Float} (hx : isNegative x = false) (hy : isNegative y = false) :
    isNegative (x * y) = false := by
  rw [isNegative_eq_false_iff] at hx hy ⊢
  exact toNat_pack_of_unsigned (unsigned_mul (unsigned_unpack hx) (unsigned_unpack hy))

end PromptTags.Decimal
