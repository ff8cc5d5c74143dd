/-
A double written with some decimal places, and read again.

Rounding to decimal places and rounding to doubles are two roundings to the nearest. The double that
is nearest to the written number is as near to it as the double that was written, so it is rounded
to the same last place (`lastPlaces_nearest`), whichever the number of places is.
-/
import PromptTags.Decimal.Fixed
import PromptTags.Proofs.Decimal.Nearest

set_option autoImplicit false

namespace PromptTags.Decimal

variable {num den : Nat}

/-- A fraction that is at most half a unit of its denominator away from a finite double is in the
range of doubles. -/
theorem nearestBits_lt {c : Nat} (hc : c < infinityBits) (hden : 0 < den)
    (h : 2 * Nat.dist (units c * den) (num * unitsPerOne) ≤ unitsPerOne) :
    nearestBits num den < infinityBits := by
  obtain ⟨s, m, hround, hbits⟩ := exists_rounded num hden
  have hnear := (hround.dist_le hden c).1
  -- From the last finite double to infinity is a step of far more than one.
  by_contra hge
  have hinf : infinityBits ≤ s * 2 ^ 52 + m := by omega
  have hgap := units_add_le_infinity hc
  have hfar : units infinityBits ≤ units (s * 2 ^ 52 + m) := units_strictMono.monotone hinf
  have hone : unitsPerOne < twoTo 2045 := twoTo_lt (by decide)
  have hmul : (units c + twoTo 2045) * den ≤ units (s * 2 ^ 52 + m) * den :=
    Nat.mul_le_mul_right den (Nat.le_trans hgap hfar)
  have hden1 : twoTo 2045 ≤ twoTo 2045 * den := Nat.le_mul_of_pos_right _ hden
  rw [Nat.add_mul] at hmul
  unfold Nat.dist at hnear h
  omega

/-- A written number is at most half a last place away from its double, and it is even when it is
just that. -/
theorem lastPlaces_spec (places : Nat) (x : Float) :
    2 * Nat.dist (units (magnitudeBits x) * tenTo places) (lastPlaces places x * unitsPerOne)
        < unitsPerOne
      ∨ 2 * Nat.dist (units (magnitudeBits x) * tenTo places) (lastPlaces places x * unitsPerOne)
          = unitsPerOne ∧ lastPlaces places x % 2 = 0 := by
  rw [Nat.dist_comm]
  exact roundDiv_spec _ unitsPerOne_pos

/-- What is written with some decimal places reads back as a finite double. -/
theorem nearestBits_lastPlaces_lt (places : Nat) {x : Float} (hx : x.isFinite = true) :
    nearestBits (lastPlaces places x) (tenTo places) < infinityBits := by
  refine nearestBits_lt ((isFinite_iff x).mp hx) (tenTo_pos places) ?_
  obtain h | ⟨h, -⟩ := lastPlaces_spec places x
  · exact Nat.le_of_lt h
  · exact Nat.le_of_eq h

/-- **What is read back is written the same**, with any number of decimal places. -/
theorem lastPlaces_nearest (places : Nat) {x : Float} (hx : x.isFinite = true) :
    lastPlaces places (nearest (lastPlaces places x) (tenTo places)) = lastPlaces places x := by
  have hback := (dist_nearestBits_le (lastPlaces places x) (tenTo_pos places)
    (nearestBits_lastPlaces_lt places hx) (magnitudeBits x)).1
  have hwritten := lastPlaces_spec places x
  -- From here on, `x` is only some double at most half a last place away from what is written.
  generalize lastPlaces places x = n at hback hwritten ⊢
  rw [lastPlaces, magnitude, magnitudeBits_nearest]
  rw [Nat.dist_comm (units (nearestBits n _) * _)] at hback
  by_cases hnear :
      2 * Nat.dist (n * unitsPerOne) (units (nearestBits n (tenTo places)) * tenTo places)
        < unitsPerOne
  · exact roundDiv_eq unitsPerOne_pos hnear
  · refine roundDiv_eq_of_even unitsPerOne_pos (by omega) (by omega)

end PromptTags.Decimal
