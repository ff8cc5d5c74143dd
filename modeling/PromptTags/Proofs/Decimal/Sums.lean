/-
Sums of doubles that stay finite.

An exact sum is rounded to 53 binary digits and packed, and the packing gives infinity when the
exponent of the rounded number is past the largest one. That happens from half a step beyond the
largest double on (`firstOverflow`), and not before (`fits_round`). So a finite double stays finite
when less than half of the greatest step is added to it or taken from it.
-/
import PromptTags.Proofs.Decimal.Doubles

set_option autoImplicit false

namespace PromptTags.Decimal

open Float.Model Float.Model.UnpackedFloat

/-! ## 1. Leaving out binary digits -/

theorem shiftRight_mantissa (em : ExtendedMantissa) (n : Nat) :
    (em >>> n).mantissa = em.mantissa / 2 ^ n := by
  induction n with
  | zero => rw [Nat.pow_zero, Nat.div_one]; rfl
  | succ n ih =>
    show (em >>> n).mantissa / 2 = _
    rw [ih, Nat.div_div_eq_div_mul, Nat.pow_succ]

theorem shiftRight_roundBit (em : ExtendedMantissa) (n : Nat) :
    (em >>> (n + 1)).roundBit = (em.mantissa / 2 ^ n % 2 != 0) := by
  show ((em >>> n).mantissa % 2 != 0) = _
  rw [shiftRight_mantissa]

theorem roundToNearestEven_le (m : Nat) (a : Accuracy) : a.roundToNearestEven m ≤ m + 1 := by
  rcases a with _ | o
  · exact Nat.le_succ m
  · cases o with
    | lt => exact Nat.le_succ m
    | eq => show m + m % 2 ≤ m + 1; omega
    | gt => exact Nat.le_refl _

theorem roundedMantissa_of_not_roundBit {em : ExtendedMantissa} (h : em.roundBit = false) :
    em.roundedMantissa = em.mantissa := by
  obtain ⟨m, r, s⟩ := em
  cases h
  cases s <;> rfl

/-- A number as the digits that are kept, before any is left out. -/
abbrev exactly (m : Nat) : ExtendedMantissa := ExtendedMantissa.ofMantissaAndAccuracy m .exact

/-- What is left is at most one more than the quotient, and it is rounded up only from a half
on. -/
theorem rounded_bounds (m n : Nat) :
    (exactly m >>> n).roundedMantissa ≤ m / 2 ^ n + 1
      ∧ 2 * ((exactly m >>> n).roundedMantissa * 2 ^ n) ≤ 2 * m + 2 ^ n := by
  have hmantissa : (exactly m >>> n).mantissa = m / 2 ^ n := shiftRight_mantissa _ n
  have hle : (exactly m >>> n).roundedMantissa ≤ m / 2 ^ n + 1 := by
    rw [← hmantissa]
    exact roundToNearestEven_le _ _
  refine ⟨hle, ?_⟩
  by_cases hbit : (exactly m >>> n).roundBit = true
  · -- The greatest digit that is left out is a one, so at least a half is left out.
    rcases n with _ | n
    · exact absurd hbit Bool.false_ne_true
    · have hodd : m / 2 ^ n % 2 ≠ 0 := by
        rw [shiftRight_roundBit, bne_iff_ne] at hbit
        exact hbit
      have hhalf : m / 2 ^ n = 2 * (m / 2 ^ (n + 1)) + 1 := by
        rw [Nat.pow_succ, ← Nat.div_div_eq_div_mul]
        omega
      have hfloor : m / 2 ^ n * 2 ^ n ≤ m := Nat.div_mul_le_self m _
      rw [hhalf] at hfloor
      calc 2 * ((exactly m >>> (n + 1)).roundedMantissa * 2 ^ (n + 1))
          ≤ 2 * ((m / 2 ^ (n + 1) + 1) * 2 ^ (n + 1)) :=
            Nat.mul_le_mul_left 2 (Nat.mul_le_mul_right _ hle)
        _ = 2 * ((2 * (m / 2 ^ (n + 1)) + 1) * 2 ^ n) + 2 ^ (n + 1) := by ring
        _ ≤ 2 * m + 2 ^ (n + 1) := Nat.add_le_add_right (Nat.mul_le_mul_left 2 hfloor) _
  · rw [roundedMantissa_of_not_roundBit (Bool.not_eq_true _ ▸ hbit), hmantissa]
    have hfloor : m / 2 ^ n * 2 ^ n ≤ m := Nat.div_mul_le_self m _
    exact Nat.le_trans (Nat.mul_le_mul_left 2 hfloor) (Nat.le_add_right _ _)

/-! ## 2. Numbers that fit -/

/-- Numbers whose exponent is not past the largest one. -/
def Fits : UnpackedFloat → Prop
  | .zero _ => True
  | .finite _ _ e _ => e ≤ 971
  | _ => False

/-- Such a number is packed as a finite double. -/
theorem isFinite_pack {u : UnpackedFloat} (h : Fits u) :
    (Float.ofModel (Float.Model.pack u)).isFinite = true := by
  show (UnpackedFloat.unpack Format.binary64 (UnpackedFloat.pack Format.binary64 u)).isFinite = true
  rw [isFinite_unpack, Ne, ← exponent_eq_iff]
  cases u with
  | infinity s => exact absurd h id
  | notANumber => exact absurd h id
  | zero s =>
    rw [UnpackedFloat.pack, packedZero, unpackExponent_packComponents]
    decide
  | finite s m e hm =>
    -- The exponent that is stored is at most 2046, or 0 where the leading one is not there.
    have hfits : e ≤ 971 := h
    have hbiased : ¬ 2 ^ 11 ≤ (e + (1023 : Nat) + (52 : Nat)).toNat + 1 := by omega
    have hbias : Format.binary64.exponentBias = 1023 := rfl
    rw [UnpackedFloat.pack, hbias, if_neg hbiased]
    split_ifs
    · rw [unpackExponent_packComponents, ← BitVec.toNat_inj, BitVec.toNat_ofNat]
      show ¬ (e + (1023 : Nat) + (52 : Nat)).toNat % 2 ^ 11 = 2047
      omega
    · rw [unpackExponent_packComponents]
      decide

/-- The number of units from which on a number is rounded to infinity, half a step past the largest
double. -/
def firstOverflow : Nat := (2 ^ 53 - 1) * twoTo 2045 + twoTo 2044

theorem lt_of_two_pow_lt_twoTo {a e : Nat} (h : 2 ^ a < twoTo e) : a < e :=
  (Nat.pow_lt_pow_iff_right (by decide)).mp h

theorem twoTo_add (d e : Nat) : twoTo (d + e) = twoTo d * twoTo e := Nat.pow_add 2 d e

theorem firstOverflow_lt : firstOverflow < twoTo 2098 := by
  have hone : twoTo 2045 = twoTo 1 * twoTo 2044 := twoTo_add 1 2044
  have hall : twoTo 2098 = twoTo 54 * twoTo 2044 := twoTo_add 54 2044
  have hpos := twoTo_pos 2044
  rw [firstOverflow, hone, hall, show twoTo 1 = 2 from rfl, show twoTo 54 = 2 ^ 54 from rfl]
  omega

/-- What is rounded once more after a carry has an exponent greater by one. -/
theorem shiftToTargetExponent_exponent_le {m : Nat} {e : Int} (hm : m ≤ 2 ^ 53) (he : -1074 ≤ e) :
    (shiftToTargetExponent Format.binary64 m e .exact).2 ≤ e + 1
      ∧ (m < 2 ^ 53 → (shiftToTargetExponent Format.binary64 m e .exact).2 ≤ e) := by
  have hlog : m.log2 ≤ 53 ∧ (m < 2 ^ 53 → m.log2 ≤ 52) := by
    by_cases hm0 : m = 0
    · rw [hm0]
      exact ⟨by decide, fun _ => by decide⟩
    · refine ⟨?_, fun hlt => ?_⟩
      · exact Nat.le_of_lt_succ ((Nat.log2_lt hm0).mpr (by omega))
      · exact Nat.le_of_lt_succ ((Nat.log2_lt hm0).mpr hlt)
  show e + ((max ((m.log2 : Int) + 1 + e - 53) (-1074) - e).toNat : Int) ≤ e + 1
    ∧ (m < 2 ^ 53 → e + ((max ((m.log2 : Int) + 1 + e - 53) (-1074) - e).toNat : Int) ≤ e)
  refine ⟨by omega, fun hlt => ?_⟩
  have := hlog.2 hlt
  omega

/-- A number of at least 53 digits, or with the least exponent, that is less than `firstOverflow`
fits after it is rounded. -/
theorem fits_roundWithAccuracy (sign : Sign) {m : Nat} {e : Int} (he : -1074 ≤ e)
    (hdigits : 52 ≤ m.log2 ∨ e = -1074) (hm : 0 < m)
    (hlt : m * 2 ^ (e + 1074).toNat < firstOverflow) :
    Fits (roundWithAccuracy Format.binary64 sign m e .exact) := by
  -- `n` digits are left out and `r` is what they round to; a carry in `r` is shifted out again.
  obtain ⟨n, hn⟩ : ∃ n, (max ((m.log2 : Int) + 1 + e - 53) (-1074) - e).toNat = n := ⟨_, rfl⟩
  obtain ⟨r, hr⟩ : ∃ r, (exactly m >>> n).roundedMantissa = r := ⟨_, rfl⟩
  have hround : roundWithAccuracy Format.binary64 sign m e .exact
      = if h : (shiftToTargetExponent Format.binary64 r (e + n) .exact).1.mantissa = 0 then
          .zero sign
        else
          .finite sign _ (shiftToTargetExponent Format.binary64 r (e + n) .exact).2
            (Nat.pos_of_ne_zero h) := by
    rw [← hr, ← hn]
    rfl
  -- Leaving out `n` digits leaves at most 53, and a carry from these one digit more.
  have hexponent : (shiftToTargetExponent Format.binary64 r (e + n) .exact).2 ≤ 971 := by
    have hlog : m.log2 ≤ 52 + n := by omega
    have hquotient : m / 2 ^ n < 2 ^ 53 := by
      rw [Nat.div_lt_iff_lt_mul (Nat.two_pow_pos n), ← Nat.pow_add]
      exact (Nat.log2_lt (Nat.ne_of_gt hm)).mp (by omega)
    obtain ⟨hle, hhalf⟩ := rounded_bounds m n
    rw [hr] at hle hhalf
    have hsecond := shiftToTargetExponent_exponent_le (show r ≤ 2 ^ 53 by omega)
      (show -1074 ≤ e + n by omega)
    have hrange : m.log2 + (e + 1074).toNat < 2098 := by
      apply lt_of_two_pow_lt_twoTo
      rw [Nat.pow_add]
      exact Nat.lt_of_le_of_lt (Nat.mul_le_mul_right _ (Nat.log2_self_le (Nat.ne_of_gt hm)))
        (Nat.lt_trans hlt firstOverflow_lt)
    by_cases hmax : e + n < 971
    · omega
    · -- With the largest exponent, only a carry would be too much.
      have hsum : (e + 1074).toNat + n = 2045 := by omega
      have hpow : 2 ^ n * 2 ^ (e + 1074).toNat = twoTo 2045 :=
        (Nat.pow_add 2 n _).symm.trans (congrArg twoTo (Nat.add_comm _ n ▸ hsum))
      have hcarry : r < 2 ^ 53 := by
        have hone : twoTo 2045 = twoTo 1 * twoTo 2044 := twoTo_add 1 2044
        rw [show twoTo 1 = 2 from rfl] at hone
        have hmul := Nat.mul_le_mul_right (2 ^ (e + 1074).toNat) hhalf
        rw [Nat.add_mul, Nat.mul_assoc 2, Nat.mul_assoc r, Nat.mul_assoc 2, hpow] at hmul
        rw [firstOverflow] at hlt
        by_contra hge
        have hlarge := Nat.mul_le_mul_right (twoTo 2045) (Nat.le_of_not_lt hge)
        omega
      have := hsecond.2 hcarry
      omega
  rw [hround]
  split_ifs
  · exact trivial
  · exact hexponent

theorem log2_mul_two_pow {m : Nat} (hm : 0 < m) (k : Nat) :
    (m * 2 ^ k).log2 = m.log2 + k := by
  have hpos : m * 2 ^ k ≠ 0 := Nat.ne_of_gt (Nat.mul_pos hm (Nat.two_pow_pos k))
  rw [Nat.log2_eq_iff hpos]
  constructor
  · rw [Nat.pow_add]
    exact Nat.mul_le_mul_right _ (Nat.log2_self_le (Nat.ne_of_gt hm))
  · rw [Nat.add_right_comm, Nat.pow_add]
    exact Nat.mul_lt_mul_of_pos_right Nat.lt_log2_self (Nat.two_pow_pos k)

/-- **Rounding stays in range** below `firstOverflow`. -/
theorem fits_round (sign : Sign) {m : Nat} {e : Int} (he : -1074 ≤ e) (hm : 0 < m)
    (hlt : m * 2 ^ (e + 1074).toNat < firstOverflow) :
    Fits (round Format.binary64 sign m e) := by
  obtain ⟨k, hk⟩ : ∃ k, (e - max ((m.log2 : Int) + 1 + e - 53) (-1074)).toNat = k := ⟨_, rfl⟩
  have hround : round Format.binary64 sign m e
      = roundWithAccuracy Format.binary64 sign (m * 2 ^ k) (e - k) .exact := by
    rw [← Nat.shiftLeft_eq, ← hk]
    rfl
  -- The exponent is lowered by as many digits as are put behind the number.
  have hexponent : k + (e - k + 1074).toNat = (e + 1074).toNat := by omega
  rw [hround]
  refine fits_roundWithAccuracy sign (by omega) ?_ (Nat.mul_pos hm (Nat.two_pow_pos k)) ?_
  · rw [log2_mul_two_pow hm]
    omega
  · rw [Nat.mul_assoc, ← Nat.pow_add, hexponent]
    exact hlt

theorem fits_normalize {m e : Int} (zero : Sign) (he : -1074 ≤ e)
    (hlt : m.natAbs * 2 ^ (e + 1074).toNat < firstOverflow) :
    Fits (normalize Format.binary64 m e zero) := by
  rw [UnpackedFloat.normalize]
  -- Of the sign only that it is none or one matters: rounding looks at the size.
  rcases hcompare : compare m 0 with _ | _ | _
  · have hneg : m < 0 := Int.compare_eq_lt.mp hcompare
    refine fits_round .negative he (by omega) ?_
    rw [show (-m).toNat = m.natAbs by omega]
    exact hlt
  · exact trivial
  · have hpos : 0 < m := Int.compare_eq_gt.mp hcompare
    refine fits_round .positive he (by omega) ?_
    rw [show m.toNat = m.natAbs by omega]
    exact hlt

/-! ## 3. Sums and differences -/

/-- An unpacked number is so many units, apart from its sign, and its exponent is in range. -/
def HasUnits (n : Nat) : UnpackedFloat → Prop
  | .zero _ => n = 0
  | .finite _ m e _ => -1074 ≤ e ∧ e ≤ 971 ∧ n = m * 2 ^ (e + 1074).toNat
  | _ => False

theorem toNat_one_append (m : BitVec 52) : (1#1 ++ m).toNat = 2 ^ 52 + m.toNat := by
  rw [BitVec.toNat_append, ← Nat.shiftLeft_add_eq_or_of_lt m.isLt]
  rfl

theorem hasUnits_magnitude {x : Float} (hx : x.isFinite = true) :
    HasUnits (magnitude x) x.toModel.unpack := by
  obtain ⟨b, hb⟩ : ∃ b, x.toBits.toBitVec = b := ⟨_, rfl⟩
  have hmagnitude : magnitude x = units (b.toNat % 2 ^ 63) := by rw [← hb]; rfl
  have hexponent := toNat_unpackExponent b
  have hmantissa := toNat_unpackMantissa b
  have hfinite : b.toNat / 2 ^ 52 % 2 ^ 11 ≠ 2047 := by
    rw [← isFinite_unpack, ← hb]
    exact hx
  rw [show x.toModel.unpack = UnpackedFloat.unpack Format.binary64 b by rw [← hb]; rfl,
    UnpackedFloat.unpack, if_neg (fun he => hfinite ((exponent_eq_iff b).mp he)), hmagnitude]
  have hbits : b.toNat % 2 ^ 63 = b.toNat / 2 ^ 52 % 2 ^ 11 * 2 ^ 52 + b.toNat % 2 ^ 52 := by omega
  rw [← hexponent, ← hmantissa] at hbits
  have hlt : (@unpackMantissa Format.binary64 b).toNat < 2 ^ 52 := BitVec.isLt _
  rw [hbits]
  -- With the exponent field 0 the fraction counts units; otherwise a leading one is put before it.
  by_cases hfield : @unpackExponent Format.binary64 b = 0#_
  · have hzero : (@unpackExponent Format.binary64 b).toNat = 0 := by rw [hfield]; rfl
    rw [if_pos hfield, hzero, units_shift (by omega) (Or.inl rfl), Nat.pow_zero, Nat.mul_one]
    split_ifs with hrest
    · show (@unpackMantissa Format.binary64 b).toNat = 0
      rw [hrest]
      rfl
    · exact ⟨by decide, by decide, (Nat.mul_one _).symm⟩
  · have hpos : 0 < (@unpackExponent Format.binary64 b).toNat :=
      Nat.pos_of_ne_zero fun h => hfield (BitVec.eq_of_toNat_eq h)
    obtain ⟨f, hf⟩ : ∃ f, (@unpackExponent Format.binary64 b).toNat = f + 1 :=
      ⟨_, (Nat.sub_add_cancel hpos).symm⟩
    have hshift : (f + 1) * 2 ^ 52 + (@unpackMantissa Format.binary64 b).toNat
        = f * 2 ^ 52 + (2 ^ 52 + (@unpackMantissa Format.binary64 b).toNat) := by omega
    have hbias : ((f + 1 : Nat) : Int) - ((1023 : Nat) + (52 : Nat)) = f - 1074 := by omega
    rw [if_neg hfield, hf, hshift, units_shift (by omega) (Or.inr (by omega))]
    show -1074 ≤ ((f + 1 : Nat) : Int) - ((1023 : Nat) + (52 : Nat))
      ∧ ((f + 1 : Nat) : Int) - ((1023 : Nat) + (52 : Nat)) ≤ 971
      ∧ _ = (1#1 ++ @unpackMantissa Format.binary64 b).toNat
        * 2 ^ (((f + 1 : Nat) : Int) - ((1023 : Nat) + (52 : Nat)) + 1074).toNat
    rw [hbias]
    refine ⟨by omega, by omega, ?_⟩
    rw [toNat_one_append, Int.sub_add_cancel]
    rfl

theorem natAbs_apply (s : Sign) (n : Nat) : (s.apply n).natAbs = n := by
  cases s
  · show (-(n : Int)).natAbs = n
    omega
  · rfl

/-- Digits that are shifted to a lower exponent are as many units as before. -/
theorem decreaseExponent_units {e t : Int} (m : Nat) (ht : -1074 ≤ t) (hte : t ≤ e) :
    (decreaseExponent m e t).1 * 2 ^ (t + 1074).toNat = m * 2 ^ (e + 1074).toNat := by
  show m <<< (e - t).toNat * 2 ^ (t + 1074).toNat = _
  rw [Nat.shiftLeft_eq, Nat.mul_assoc, ← Nat.pow_add]
  congr 2
  omega

theorem hasUnits_cases {u : UnpackedFloat} {a : Nat} (h : HasUnits a u) :
    (∃ s, u = .zero s) ∨ ∃ s m e, ∃ hm : 0 < m, u = .finite s m e hm ∧
      -1074 ≤ e ∧ e ≤ 971 ∧ a = m * 2 ^ (e + 1074).toNat := by
  cases u with
  | infinity s => exact absurd h id
  | notANumber => exact absurd h id
  | zero s => exact Or.inl ⟨s, rfl⟩
  | finite s m e hm => exact Or.inr ⟨s, m, e, hm, rfl, h⟩

/-- Two numbers over the lesser of their exponents, added up with any signs. -/
theorem fits_combine {m₁ m₂ a b : Nat} {e₁ e₂ m : Int}
    (h₁ : -1074 ≤ e₁ ∧ e₁ ≤ 971 ∧ a = m₁ * 2 ^ (e₁ + 1074).toNat)
    (h₂ : -1074 ≤ e₂ ∧ e₂ ≤ 971 ∧ b = m₂ * 2 ^ (e₂ + 1074).toNat)
    (hm : m.natAbs ≤
      (decreaseExponent m₁ e₁ (min e₁ e₂)).1 + (decreaseExponent m₂ e₂ (min e₁ e₂)).1)
    (hlt : a + b < firstOverflow) :
    Fits (UnpackedFloat.normalize Format.binary64 m (min e₁ e₂) .positive) := by
  have hmin : -1074 ≤ min e₁ e₂ := by omega
  refine fits_normalize .positive hmin (Nat.lt_of_le_of_lt ?_ hlt)
  calc m.natAbs * 2 ^ (min e₁ e₂ + 1074).toNat
      ≤ ((decreaseExponent m₁ e₁ (min e₁ e₂)).1 + (decreaseExponent m₂ e₂ (min e₁ e₂)).1)
          * 2 ^ (min e₁ e₂ + 1074).toNat := Nat.mul_le_mul_right _ hm
    _ = a + b := by
      rw [Nat.add_mul, decreaseExponent_units m₁ hmin (by omega),
        decreaseExponent_units m₂ hmin (by omega), h₁.2.2, h₂.2.2]

theorem fits_add {u v : UnpackedFloat} {a b : Nat} (hu : HasUnits a u) (hv : HasUnits b v)
    (hlt : a + b < firstOverflow) : Fits (UnpackedFloat.add Format.binary64 u v) := by
  rcases hasUnits_cases hu with ⟨s, rfl⟩ | ⟨s, m, e, hm, rfl, hme⟩ <;>
    rcases hasUnits_cases hv with ⟨t, rfl⟩ | ⟨t, n, f, hn, rfl, hnf⟩
  · cases s <;> cases t <;> exact trivial
  · exact hnf.2.1
  · exact hme.2.1
  · refine fits_combine hme hnf (Nat.le_trans (Int.natAbs_add_le _ _) ?_) hlt
    rw [natAbs_apply, natAbs_apply]
    exact Nat.le_refl _

theorem fits_sub {u v : UnpackedFloat} {a b : Nat} (hu : HasUnits a u) (hv : HasUnits b v)
    (hlt : a + b < firstOverflow) : Fits (UnpackedFloat.sub Format.binary64 u v) := by
  rcases hasUnits_cases hu with ⟨s, rfl⟩ | ⟨s, m, e, hm, rfl, hme⟩ <;>
    rcases hasUnits_cases hv with ⟨t, rfl⟩ | ⟨t, n, f, hn, rfl, hnf⟩
  · cases s <;> cases t <;> exact trivial
  · exact hnf.2.1
  · exact hme.2.1
  · refine fits_combine hme hnf (Nat.le_trans (Int.natAbs_sub_le _ _) ?_) hlt
    rw [natAbs_apply, natAbs_apply]
    exact Nat.le_refl _

theorem magnitude_le_of_isFinite {x : Float} (hx : x.isFinite = true) :
    magnitude x ≤ (2 ^ 53 - 1) * twoTo 2045 := by
  have hlt := (isFinite_iff x).mp hx
  have hlast : magnitude x + twoTo 2045 ≤ units infinityBits := units_add_le_infinity hlt
  rw [units_infinityBits] at hlast
  omega

/-- **A sum stays finite** when what is added is less than half of the greatest step. -/
theorem isFinite_add {x y : Float} (hx : x.isFinite = true) (hy : y.isFinite = true)
    (hsmall : magnitude y < twoTo 2044) : (x + y).isFinite = true := by
  refine isFinite_pack (fits_add (hasUnits_magnitude hx) (hasUnits_magnitude hy) ?_)
  have := magnitude_le_of_isFinite hx
  rw [firstOverflow]
  omega

theorem isFinite_sub {x y : Float} (hx : x.isFinite = true) (hy : y.isFinite = true)
    (hsmall : magnitude y < twoTo 2044) : (x - y).isFinite = true := by
  refine isFinite_pack (fits_sub (hasUnits_magnitude hx) (hasUnits_magnitude hy) ?_)
  have := magnitude_le_of_isFinite hx
  rw [firstOverflow]
  omega

end PromptTags.Decimal
