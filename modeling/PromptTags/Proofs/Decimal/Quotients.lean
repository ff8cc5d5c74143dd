/-
Products and quotients that stay finite.

A product of two finite doubles is a number, so it is finite if it is not infinite. A quotient is
less than the dividend by three binary digits at least when the divisor is eight or more, and there
is enough room for what rounding adds then, no matter what the division left over
(`fits_roundWithAccuracy_of_le`).
-/
import PromptTags.Proofs.Decimal.Sums

set_option autoImplicit false

namespace PromptTags.Decimal

open Float.Model Float.Model.UnpackedFloat

/-! ## 1. Rounding with room -/

theorem ofMantissaAndAccuracy_mantissa (m : Nat) (acc : Accuracy) :
    (ExtendedMantissa.ofMantissaAndAccuracy m acc).mantissa = m := by
  rcases acc with _ | o
  · rfl
  · cases o <;> rfl

/-- A number that is three binary digits away from the largest exponent fits after it is rounded,
whatever was left over before. -/
theorem fits_roundWithAccuracy_of_le (sign : Sign) {m : Nat} {e : Int} (acc : Accuracy)
    (he : e ≤ 968) (hsize : (m.log2 : Int) + 1 + e ≤ 1021) :
    Fits (roundWithAccuracy Format.binary64 sign m e acc) := by
  obtain ⟨n, hn⟩ : ∃ n, (max ((m.log2 : Int) + 1 + e - 53) (-1074) - e).toNat = n := ⟨_, rfl⟩
  obtain ⟨r, hr⟩ : ∃ r,
      (ExtendedMantissa.ofMantissaAndAccuracy m acc >>> n).roundedMantissa = r := ⟨_, rfl⟩
  have hround : roundWithAccuracy Format.binary64 sign m e acc
      = if h : (shiftToTargetExponent Format.binary64 r (e + n) .exact).1.mantissa = 0 then
          .zero sign
        else
          .finite sign _ (shiftToTargetExponent Format.binary64 r (e + n) .exact).2
            (Nat.pos_of_ne_zero h) := by
    rw [← hr, ← hn]
    rfl
  -- No more than 53 digits are left, and rounding up may carry to one more.
  have hquotient : m / 2 ^ n < 2 ^ 53 := by
    rw [Nat.div_lt_iff_lt_mul (Nat.two_pow_pos n), ← Nat.pow_add]
    exact Nat.lt_of_lt_of_le Nat.lt_log2_self (Nat.pow_le_pow_right Nat.two_pos (by omega))
  have hle : r ≤ m / 2 ^ n + 1 := by
    have hmantissa := shiftRight_mantissa (ExtendedMantissa.ofMantissaAndAccuracy m acc) n
    rw [ofMantissaAndAccuracy_mantissa] at hmantissa
    rw [← hr, ← hmantissa]
    exact roundToNearestEven_le _ _
  have hexponent := (shiftToTargetExponent_exponent_le (show r ≤ 2 ^ 53 by omega)
    (show -1074 ≤ e + n by omega)).1
  rw [hround]
  split_ifs
  · exact trivial
  · show (shiftToTargetExponent Format.binary64 r (e + n) .exact).2 ≤ 971
    omega

/-! ## 2. Quotients -/

/-- The digits of a quotient, and where they stand. -/
theorem divCore_bounds {m₁ m₂ : Nat} {e₁ e₂ : Int} (hm₂ : 0 < m₂)
    (h₁ : (m₁.log2 : Int) + 1 + e₁ ≤ 1024) (h₂ : 4 ≤ (m₂.log2 : Int) + 1 + e₂) :
    (divCore Format.binary64 m₁ e₁ m₂ e₂).2.1 ≤ 968 ∧
      ((divCore Format.binary64 m₁ e₁ m₂ e₂).1.log2 : Int) + 1
        + (divCore Format.binary64 m₁ e₁ m₂ e₂).2.1 ≤ 1021 := by
  obtain ⟨t, ht⟩ : ∃ t, min (e₁ - e₂) (max ((m₁.log2 : Int) + 1 + e₁ - (m₂.log2 + 1 + e₂) - 53)
      (-1074)) = t := ⟨_, rfl⟩
  obtain ⟨s, hs⟩ : ∃ s, (e₁ - e₂ - t).toNat = s := ⟨_, rfl⟩
  have hcore : divCore Format.binary64 m₁ e₁ m₂ e₂ =
      ((m₁ <<< s) / m₂, t, accuracyOfFraction ((m₁ <<< s) % m₂) m₂) := by
    rw [← hs, ← ht]
    rfl
  have hexponent : t ≤ 967 := by omega
  rw [hcore]
  refine ⟨by show t ≤ 968; omega, ?_⟩
  show (((m₁ <<< s) / m₂).log2 : Int) + 1 + t ≤ 1021
  rcases Nat.eq_zero_or_pos ((m₁ <<< s) / m₂) with hzero | hpos
  · rw [hzero, Nat.log2_zero]
    omega
  · have hlog : ((m₁ <<< s) / m₂).log2 + m₂.log2 < m₁.log2 + 1 + s := by
      rw [← Nat.pow_lt_pow_iff_right (a := 2) (by decide)]
      calc 2 ^ (((m₁ <<< s) / m₂).log2 + m₂.log2)
          = 2 ^ ((m₁ <<< s) / m₂).log2 * 2 ^ m₂.log2 := Nat.pow_add 2 _ _
        _ ≤ (m₁ <<< s) / m₂ * m₂ := Nat.mul_le_mul (Nat.log2_self_le hpos.ne')
            (Nat.log2_self_le hm₂.ne')
        _ ≤ m₁ <<< s := Nat.div_mul_le_self _ _
        _ = m₁ * 2 ^ s := Nat.shiftLeft_eq m₁ s
        _ < 2 ^ (m₁.log2 + 1) * 2 ^ s :=
            Nat.mul_lt_mul_of_pos_right Nat.lt_log2_self (Nat.two_pow_pos s)
        _ = 2 ^ (m₁.log2 + 1 + s) := (Nat.pow_add 2 _ _).symm
    omega

theorem le_log2_of_twoTo_le {a e : Nat} (h : twoTo e ≤ a) : e ≤ a.log2 :=
  (Nat.le_log2 (Nat.ne_of_gt (Nat.lt_of_lt_of_le (twoTo_pos e) h))).mpr h

theorem fits_div {u v : UnpackedFloat} {a b : Nat} (hu : HasUnits a u) (hv : HasUnits b v)
    (ha : a < twoTo 2098) (hb : twoTo 1077 ≤ b) :
    Fits (UnpackedFloat.div Format.binary64 u v) := by
  rcases hasUnits_cases hv with ⟨t, rfl⟩ | ⟨t, n, f, hn, rfl, hnf⟩
  · obtain rfl : b = 0 := hv
    exact absurd hb (Nat.not_le.mpr (twoTo_pos _))
  rcases hasUnits_cases hu with ⟨s, rfl⟩ | ⟨s, m, e, hm, rfl, hme⟩
  · exact trivial
  · have hdividend : m.log2 + (e + 1074).toNat < 2098 := by
      have hpos : a ≠ 0 := by
        rw [hme.2.2]
        exact (Nat.mul_pos hm (Nat.two_pow_pos _)).ne'
      rw [← log2_mul_two_pow hm, ← hme.2.2]
      exact lt_of_two_pow_lt_twoTo (Nat.lt_of_le_of_lt (Nat.log2_self_le hpos) ha)
    have hdivisor : 1077 ≤ n.log2 + (f + 1074).toNat := by
      rw [← log2_mul_two_pow hn, ← hnf.2.2]
      exact le_log2_of_twoTo_le hb
    have hbounds := @divCore_bounds m n e f hn (by omega) (by omega)
    exact fits_roundWithAccuracy_of_le (s / t) _ hbounds.1 hbounds.2

/-- **A quotient stays finite** when the divisor is eight or more. -/
theorem isFinite_div {x y : Float} (hx : x.isFinite = true) (hy : y.isFinite = true)
    (hlarge : 8 * unitsPerOne ≤ magnitude y) : (x / y).isFinite = true := by
  refine isFinite_pack (fits_div (hasUnits_magnitude hx) (hasUnits_magnitude hy) ?_ ?_)
  · refine Nat.lt_of_le_of_lt (magnitude_le_of_isFinite hx) (Nat.lt_trans ?_ firstOverflow_lt)
    exact Nat.lt_add_of_pos_right (twoTo_pos _)
  · have hpower : twoTo 1077 = twoTo 3 * twoTo 1074 := twoTo_add 3 1074
    rw [hpower, show twoTo 3 = 8 from rfl, ← unitsPerOne]
    exact hlarge

/-! ## 3. Products -/

theorem isNaN_pack {u : UnpackedFloat} (h : u.isNaN = false) :
    (Float.ofModel (Float.Model.pack u)).isNaN = false := by
  rw [← Bool.not_eq_true]
  intro hnan
  have hbits : UnpackedFloat.pack Format.binary64 u = packedNaN Format.binary64 :=
    (isNaN_unpack_iff_of_valid valid_pack).mp hnan
  -- The pattern for no number has all exponent bits and a fraction, and no other one has both.
  have hexponent := congrArg unpackExponent hbits
  have hmantissa := congrArg unpackMantissa hbits
  rw [packedNaN, unpackExponent_packComponents] at hexponent
  rw [packedNaN, unpackMantissa_packComponents] at hmantissa
  cases u with
  | notANumber => cases h
  | infinity s =>
    rw [UnpackedFloat.pack, packedInfinity, unpackMantissa_packComponents] at hmantissa
    exact absurd hmantissa (by decide)
  | zero s =>
    rw [UnpackedFloat.pack, packedZero, unpackMantissa_packComponents] at hmantissa
    exact absurd hmantissa (by decide)
  | finite s m e hm =>
    have hbias : Format.binary64.exponentBias = 1023 := rfl
    rw [UnpackedFloat.pack, hbias] at hexponent hmantissa
    split_ifs at hexponent hmantissa with hrange
    · rw [packedInfinity, unpackMantissa_packComponents] at hmantissa
      exact absurd hmantissa (by decide)
    · rw [unpackExponent_packComponents, ← BitVec.toNat_inj, BitVec.toNat_ofNat] at hexponent
      have hsmall : ¬ 2 ^ 11 ≤ (e + (1023 : Nat) + (52 : Nat)).toNat + 1 := hrange
      have hall : (e + (1023 : Nat) + (52 : Nat)).toNat % 2 ^ 11 = 2047 := hexponent
      omega
    · rw [unpackExponent_packComponents] at hexponent
      exact absurd hexponent (by decide)

/-- **A product of finite doubles is finite** unless it is infinite. -/
theorem isFinite_mul {x y : Float} (hx : x.isFinite = true) (hy : y.isFinite = true)
    (hinf : (x * y).isInf = false) : (x * y).isFinite = true := by
  have hnan : (x * y).isNaN = false := by
    refine @isNaN_pack (UnpackedFloat.mul Format.binary64 x.toModel.unpack y.toModel.unpack) ?_
    rcases hasUnits_cases (hasUnits_magnitude hx) with ⟨s, hu⟩ | ⟨s, m, e, hm, hu, -⟩ <;>
      rcases hasUnits_cases (hasUnits_magnitude hy) with ⟨t, hv⟩ | ⟨t, n, f, hn, hv, -⟩ <;>
      rw [hu, hv]
    · rfl
    · rfl
    · rfl
    · rw [UnpackedFloat.mul, roundWithAccuracy]
      dsimp only
      split_ifs <;> rfl
  by_contra hnot
  rw [isInf_of_not_isFinite (Bool.eq_false_of_not_eq_true hnot) hnan] at hinf
  cases hinf

/-! ## 4. The other sign -/

theorem isFinite_neg {x : Float} (hx : x.isFinite = true) : (-x).isFinite = true := by
  refine @isFinite_pack x.toModel.unpack.neg ?_
  obtain ⟨s, hu⟩ | ⟨s, m, e, hm, hu, -, he, -⟩ := hasUnits_cases (hasUnits_magnitude hx) <;> rw [hu]
  · exact trivial
  · exact he

end PromptTags.Decimal
