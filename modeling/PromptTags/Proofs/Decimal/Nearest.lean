/-
The double nearest to a fraction.

`nearestBits` leaves out of the exact quotient all binary digits after the first 53 and rounds once.
That the pattern so found is the nearest one compares it with the patterns of all doubles: those
from its power of two on stand for multiples of it, and of multiples the rounded one is nearest;
those below are further away than the least of the multiples (`Rounded.dist_le`).
`nearest_isNearest` is the same for doubles and fractions.
-/
import PromptTags.Proofs.Decimal.Doubles
import PromptTags.Proofs.Decimal.Rounding

set_option autoImplicit false

namespace PromptTags.Decimal

variable {num den : Nat}

/-! ## 1. The pattern -/

/-- What `nearestBits` computes before it stops at infinity: a power of two at which the quotient
has 53 digits, or the least one, and the quotient rounded at it. -/
structure Rounded (num den s m : Nat) : Prop where
  rounded : m = roundDiv (num * unitsPerOne) (2 ^ s * den)
  le : m ≤ 2 * 2 ^ 52
  digits : s = 0 ∨ 2 ^ 52 ≤ m
  scale : s = 0 ∨ 2 ^ 52 * 2 ^ s * den ≤ num * unitsPerOne

theorem exists_rounded (num : Nat) (hden : 0 < den) :
    ∃ s m, Rounded num den s m ∧ nearestBits num den = min (s * 2 ^ 52 + m) infinityBits := by
  obtain ⟨q, hq⟩ : ∃ q, num * unitsPerOne / den = q := ⟨_, rfl⟩
  obtain ⟨s, hs⟩ : ∃ s, q.log2 + 1 - 53 = s := ⟨_, rfl⟩
  have hdiv : num * unitsPerOne / (2 ^ s * den) = q / 2 ^ s := by
    rw [Nat.mul_comm (2 ^ s), ← Nat.div_div_eq_div_mul, hq]
  have hlow := div_le_roundDiv (num * unitsPerOne) (2 ^ s * den)
  have hhigh := roundDiv_le_div_succ (num * unitsPerOne) (2 ^ s * den)
  rw [hdiv] at hlow hhigh
  -- `s` digits of `q` are left out, so no more than 53 stay, and just 53 unless `s` is zero.
  have hq53 : q / 2 ^ s < 2 * 2 ^ 52 := by
    rw [Nat.div_lt_iff_lt_mul (Nat.two_pow_pos s)]
    calc q < 2 ^ (q.log2 + 1) := Nat.lt_log2_self
      _ ≤ 2 ^ (53 + s) := Nat.pow_le_pow_right Nat.two_pos (by omega)
      _ = 2 * 2 ^ 52 * 2 ^ s := by rw [Nat.pow_add, Nat.pow_succ']
  have hq52 : s = 0 ∨ 2 ^ 52 * 2 ^ s ≤ q := by
    by_cases hs0 : s = 0
    · exact Or.inl hs0
    · right
      have hq0 : q ≠ 0 := by
        rintro rfl
        exact hs0 (by rw [← hs]; rfl)
      calc 2 ^ 52 * 2 ^ s = 2 ^ (52 + s) := (Nat.pow_add 2 52 s).symm
        _ ≤ 2 ^ q.log2 := Nat.pow_le_pow_right Nat.two_pos (by omega)
        _ ≤ q := Nat.log2_self_le hq0
  refine ⟨s, _, ⟨rfl, by omega, ?_, ?_⟩, ?_⟩
  · refine hq52.imp_right fun h => ?_
    exact Nat.le_trans ((Nat.le_div_iff_mul_le (Nat.two_pow_pos s)).mpr h) hlow
  · refine hq52.imp_right fun h => ?_
    rw [← hq] at h
    exact (Nat.le_div_iff_mul_le hden).mp h
  · rw [nearestBits, hq, hs, Nat.mul_comm den]
    rfl

namespace Rounded

variable {s m : Nat}

theorem units_eq (h : Rounded num den s m) : units (s * 2 ^ 52 + m) = m * 2 ^ s :=
  units_shift h.le h.digits

/-- Patterns from the power of two on stand for multiples of it. -/
theorem dist_le_of_ge (h : Rounded num den s m) (hden : 0 < den) {c : Nat}
    (hc : s = 0 ∨ (s + 1) * 2 ^ 52 ≤ c) :
    Nat.dist (units (s * 2 ^ 52 + m) * den) (num * unitsPerOne)
        ≤ Nat.dist (units c * den) (num * unitsPerOne)
      ∧ (c ≠ s * 2 ^ 52 + m →
          Nat.dist (units c * den) (num * unitsPerOne)
            = Nat.dist (units (s * 2 ^ 52 + m) * den) (num * unitsPerOne) → m % 2 = 0) := by
  have hpos : 0 < 2 ^ s * den := Nat.mul_pos (Nat.two_pow_pos s) hden
  -- From there on every power of two is a multiple of this one.
  obtain ⟨t, r, hr, hlt, ht⟩ := exists_shift c
  have hst : s ≤ t := by omega
  obtain ⟨k, hk⟩ : ∃ k, units c = k * 2 ^ s :=
    ⟨r * 2 ^ (t - s), by
      rw [hr, units_shift (Nat.le_of_lt hlt) ht, Nat.mul_assoc, ← Nat.pow_add,
        Nat.sub_add_cancel hst]⟩
  rw [h.units_eq, hk, Nat.mul_assoc, Nat.mul_assoc]
  have hle := dist_roundDiv_le (num * unitsPerOne) k hpos
  rw [← h.rounded] at hle
  refine ⟨hle, fun hne heq => ?_⟩
  have hkm : k ≠ m := by
    rintro rfl
    exact hne (units_strictMono.injective (hk.trans h.units_eq.symm))
  rw [h.rounded] at hkm heq ⊢
  exact roundDiv_even hpos hkm heq

/-- Of the patterns below the power of two, the next one to it is nearest. -/
theorem dist_lt_of_lt (h : Rounded num den s m) (hden : 0 < den) {c : Nat}
    (hs : s ≠ 0) (hc : c < (s + 1) * 2 ^ 52) :
    Nat.dist (units ((s + 1) * 2 ^ 52) * den) (num * unitsPerOne)
      < Nat.dist (units c * den) (num * unitsPerOne) := by
  have hfirst : units ((s + 1) * 2 ^ 52) = 2 ^ 52 * 2 ^ s := by
    rw [Nat.add_mul, Nat.one_mul, units_shift (by omega) (Or.inr (Nat.le_refl _))]
  have hbelow : units c < 2 ^ 52 * 2 ^ s := by
    rw [← hfirst]
    exact units_strictMono hc
  have hmul : units c * den < 2 ^ 52 * 2 ^ s * den := Nat.mul_lt_mul_of_pos_right hbelow hden
  have hscale := h.scale.resolve_left hs
  rw [hfirst, Nat.dist_eq_sub_of_le hscale,
    Nat.dist_eq_sub_of_le (Nat.le_trans (Nat.le_of_lt hmul) hscale)]
  omega

/-- No pattern is nearer than the rounded one, and where another is as near, the rounded one is
even. -/
theorem dist_le (h : Rounded num den s m) (hden : 0 < den) (c : Nat) :
    Nat.dist (units (s * 2 ^ 52 + m) * den) (num * unitsPerOne)
        ≤ Nat.dist (units c * den) (num * unitsPerOne)
      ∧ (c ≠ s * 2 ^ 52 + m →
          Nat.dist (units c * den) (num * unitsPerOne)
            = Nat.dist (units (s * 2 ^ 52 + m) * den) (num * unitsPerOne) → m % 2 = 0) := by
  by_cases hc : s = 0 ∨ (s + 1) * 2 ^ 52 ≤ c
  · exact h.dist_le_of_ge hden hc
  · -- The first pattern with the power of two stands between this one and the rounded one.
    obtain ⟨hs, hlt⟩ := not_or.mp hc
    have hbelow := h.dist_lt_of_lt hden hs (Nat.lt_of_not_le hlt)
    have hfirst := (h.dist_le_of_ge hden (Or.inr (Nat.le_refl _))).1
    exact ⟨by omega, fun _ heq => by omega⟩

end Rounded

/-- No pattern is nearer to a fraction than `nearestBits`, and where another is as near,
`nearestBits` is even. -/
theorem dist_nearestBits_le (num : Nat) (hden : 0 < den)
    (hfin : nearestBits num den < infinityBits) (c : Nat) :
    Nat.dist (units (nearestBits num den) * den) (num * unitsPerOne)
        ≤ Nat.dist (units c * den) (num * unitsPerOne)
      ∧ (c ≠ nearestBits num den →
          Nat.dist (units c * den) (num * unitsPerOne)
            = Nat.dist (units (nearestBits num den) * den) (num * unitsPerOne) →
          nearestBits num den % 2 = 0) := by
  obtain ⟨s, m, hround, hbits⟩ := exists_rounded num hden
  have hbits' : nearestBits num den = s * 2 ^ 52 + m := by omega
  obtain ⟨hle, heven⟩ := hround.dist_le hden c
  rw [hbits']
  refine ⟨hle, fun hne heq => ?_⟩
  have := heven hne heq
  omega

/-- A fraction that is not past a finite double is in the range of doubles. -/
theorem nearestBits_lt_of_le {c : Nat} (hc : c < infinityBits) (hden : 0 < den)
    (h : num * unitsPerOne ≤ units c * den) : nearestBits num den < infinityBits := by
  obtain ⟨s, m, hround, hbits⟩ := exists_rounded num hden
  have hnear := (hround.dist_le hden c).1
  by_contra hge
  have hpast : c < s * 2 ^ 52 + m := by omega
  have hfar : units c * den < units (s * 2 ^ 52 + m) * den :=
    Nat.mul_lt_mul_of_pos_right (units_strictMono hpast) hden
  unfold Nat.dist at hnear
  omega

/-- A fraction that is not below a double is not rounded to below it. -/
theorem units_le_nearestBits {c : Nat} (hden : 0 < den)
    (hfin : nearestBits num den < infinityBits) (h : units c * den ≤ num * unitsPerOne) :
    units c ≤ units (nearestBits num den) := by
  have hnear := (dist_nearestBits_le num hden hfin c).1
  by_contra hlt
  have hbelow : units (nearestBits num den) * den < units c * den :=
    Nat.mul_lt_mul_of_pos_right (Nat.lt_of_not_le hlt) hden
  unfold Nat.dist at hnear
  omega

/-! ## 2. The double -/

theorem nearestBits_le (num den : Nat) : nearestBits num den ≤ infinityBits := Nat.min_le_right _ _

@[simp] theorem magnitudeBits_nearest (num den : Nat) :
    magnitudeBits (nearest num den) = nearestBits num den :=
  magnitudeBits_ofBits (nearestBits_le num den)

@[simp] theorem isNegative_nearest (num den : Nat) : isNegative (nearest num den) = false :=
  isNegative_ofBits (nearestBits_le num den)

/-- The number that a finite double stands for. -/
def value (x : Float) : ℚ :=
  if isNegative x then -(magnitude x / unitsPerOne) else magnitude x / unitsPerOne

/-- A double is the nearest one to a number: it is finite, has the sign of the number, no finite
double is nearer, and where another is as near, its pattern is even. -/
structure IsNearest (x : Float) (q : ℚ) : Prop where
  finite : x.isFinite = true
  sign : isNegative x = decide (q < 0)
  least : ∀ y : Float, y.isFinite = true → |value x - q| ≤ |value y - q|
  even : ∀ y : Float, y.isFinite = true → value y ≠ value x → |value y - q| = |value x - q| →
    magnitudeBits x % 2 = 0

theorem cast_dist (a b : Nat) : (Nat.dist a b : ℚ) = |(a : ℚ) - b| := by
  rcases Nat.le_total a b with h | h
  · rw [Nat.dist_eq_sub_of_le h, Nat.cast_sub h, abs_sub_comm, abs_of_nonneg]
    exact sub_nonneg.mpr (Nat.cast_le.mpr h)
  · rw [Nat.dist_eq_sub_of_le_right h, Nat.cast_sub h, abs_of_nonneg]
    exact sub_nonneg.mpr (Nat.cast_le.mpr h)

theorem cast_unitsPerOne_pos : (0 : ℚ) < unitsPerOne := Nat.cast_pos.mpr unitsPerOne_pos

/-- Distances of fractions over a common denominator. -/
theorem abs_units_sub (a num : Nat) (hden : 0 < den) :
    |(a : ℚ) / unitsPerOne - num / den|
      = (Nat.dist (a * den) (num * unitsPerOne) : ℚ) / (unitsPerOne * den) := by
  have hU := cast_unitsPerOne_pos
  have hd : (0 : ℚ) < den := Nat.cast_pos.mpr hden
  rw [div_sub_div _ _ hU.ne' hd.ne', abs_div, abs_of_pos (mul_pos hU hd), cast_dist]
  push_cast
  rw [mul_comm (num : ℚ)]

theorem magnitude_div_nonneg (x : Float) : (0 : ℚ) ≤ magnitude x / unitsPerOne :=
  div_nonneg (Nat.cast_nonneg _) cast_unitsPerOne_pos.le

/-- The distance of a negative double is the sum. -/
theorem abs_value_sub_of_isNegative {y : Float} {q : ℚ} (hq : 0 ≤ q) (hy : isNegative y = true) :
    |value y - q| = magnitude y / unitsPerOne + q := by
  have := magnitude_div_nonneg y
  rw [value, if_pos hy, abs_of_nonpos (by linarith)]
  ring

/-- Without its sign a double is not further from a number without sign. -/
theorem abs_magnitude_sub_le (y : Float) {q : ℚ} (hq : 0 ≤ q) :
    |(magnitude y : ℚ) / unitsPerOne - q| ≤ |value y - q| := by
  have hmag := magnitude_div_nonneg y
  cases hy : isNegative y with
  | true =>
    rw [abs_value_sub_of_isNegative hq hy]
    exact abs_le.mpr ⟨by linarith, by linarith⟩
  | false => rw [value, if_neg (by rw [hy]; decide)]

/-- **The double that `nearest` finds is the nearest one**, where it is not infinite. -/
theorem nearest_isNearest (num : Nat) (hden : 0 < den)
    (hfin : nearestBits num den < infinityBits) : IsNearest (nearest num den) (num / den) := by
  have hq : (0 : ℚ) ≤ num / den := div_nonneg (Nat.cast_nonneg _) (Nat.cast_nonneg _)
  have hUd : (0 : ℚ) < unitsPerOne * den := mul_pos cast_unitsPerOne_pos (Nat.cast_pos.mpr hden)
  have hvalue : value (nearest num den) = units (nearestBits num den) / unitsPerOne := by
    rw [value, isNegative_nearest, if_neg Bool.false_ne_true, magnitude, magnitudeBits_nearest]
  -- The fraction has no sign, so it is enough to compare with doubles without one.
  have hleast : ∀ y : Float, |value (nearest num den) - num / den|
      ≤ |(magnitude y : ℚ) / unitsPerOne - num / den| := by
    intro y
    rw [hvalue, abs_units_sub _ _ hden, abs_units_sub _ _ hden, div_le_div_iff_of_pos_right hUd,
      Nat.cast_le]
    exact (dist_nearestBits_le num hden hfin _).1
  refine ⟨?_, ?_, fun y _ => (hleast y).trans (abs_magnitude_sub_le y hq), ?_⟩
  · rw [isFinite_iff, magnitudeBits_nearest]
    exact hfin
  · rw [isNegative_nearest, decide_eq_false (not_lt.mpr hq)]
  · intro y _ hne heq
    have hsame : |(magnitude y : ℚ) / unitsPerOne - num / den|
        = |value (nearest num den) - num / den| :=
      le_antisymm ((abs_magnitude_sub_le y hq).trans heq.le) (hleast y)
    rw [magnitudeBits_nearest]
    -- Without its sign, `y` is as near as before, so its pattern decides.
    by_cases hbits : magnitudeBits y = nearestBits num den
    · -- Then `y` is the double with its sign changed, and zero is nearer than that.
      exfalso
      have hmag : (magnitude y : ℚ) / unitsPerOne = value (nearest num den) := by
        rw [hvalue, magnitude, hbits]
      cases hy : isNegative y with
      | false => exact hne (by rw [← hmag, value, if_neg (by rw [hy]; decide)])
      | true =>
        have hzero := hleast (Float.ofBits (UInt64.ofNat 0))
        rw [magnitude, magnitudeBits_ofBits (Nat.zero_le _), show units 0 = 0 from rfl,
          Nat.cast_zero, zero_div, zero_sub, abs_neg, abs_of_nonneg hq, ← heq,
          abs_value_sub_of_isNegative hq hy] at hzero
        have hmag0 : (magnitude y : ℚ) / unitsPerOne = 0 :=
          le_antisymm (by linarith) (magnitude_div_nonneg y)
        exact hne (by rw [← hmag, value, if_pos hy, hmag0, neg_zero])
    · rw [hvalue, abs_units_sub _ _ hden, abs_units_sub _ _ hden,
        div_left_inj' hUd.ne', Nat.cast_inj] at hsame
      exact (dist_nearestBits_le num hden hfin _).2 hbits hsame

end PromptTags.Decimal
