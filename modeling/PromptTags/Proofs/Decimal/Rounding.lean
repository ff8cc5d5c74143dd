/-
Rounding a quotient to a whole number.

`roundDiv num den` compares twice the remainder with the divisor. The laws here are those of any
rounding to the nearest: of all multiples of the divisor, the rounded one is at the least distance
to the number (`dist_roundDiv_le`), two at that distance leave the even one (`roundDiv_even`), and a
multiple that is nearer than half a divisor is the rounded one (`roundDiv_eq`).
-/
import Mathlib.Data.Nat.Dist
import PromptTags.Decimal.Binary64

set_option autoImplicit false

namespace PromptTags.Decimal

variable {n d : Nat}

theorem div_le_roundDiv (n d : Nat) : n / d ≤ roundDiv n d := by
  rw [roundDiv]
  split_ifs <;> omega

theorem roundDiv_le_div_succ (n d : Nat) : roundDiv n d ≤ n / d + 1 := by
  rw [roundDiv]
  split_ifs <;> omega

/-- Different multiples of a number are apart by at least that number. -/
theorem le_dist_mul {j k : Nat} (d : Nat) (h : j ≠ k) : d ≤ Nat.dist (j * d) (k * d) := by
  rw [Nat.dist_mul_right]
  exact Nat.le_mul_of_pos_left d (Nat.dist_pos_of_ne h)

/-- The rounded multiple is at most half a divisor away, and it is even when it is just that. -/
theorem roundDiv_spec (n : Nat) (hd : 0 < d) :
    2 * Nat.dist (roundDiv n d * d) n < d
      ∨ 2 * Nat.dist (roundDiv n d * d) n = d ∧ roundDiv n d % 2 = 0 := by
  have hn : n / d * d + n % d = n := Nat.div_add_mod' n d
  have hr : n % d < d := Nat.mod_lt n hd
  rw [roundDiv]
  -- The remainder is below a half, above it, or just a half.
  by_cases hlow : 2 * (n % d) < d
  · rw [if_pos hlow, Nat.dist]
    omega
  rw [if_neg hlow]
  by_cases hhigh : d < 2 * (n % d)
  · rw [if_pos hhigh, Nat.dist, Nat.add_mul, Nat.one_mul]
    omega
  rw [if_neg hhigh]
  rcases Nat.mod_two_eq_zero_or_one (n / d) with heven | hodd
  · rw [heven, Nat.add_zero, Nat.dist]
    omega
  · rw [hodd, Nat.add_mul, Nat.one_mul, Nat.dist]
    omega

theorem two_mul_dist_roundDiv_le (n : Nat) (hd : 0 < d) :
    2 * Nat.dist (roundDiv n d * d) n ≤ d := by
  rcases roundDiv_spec n hd with h | ⟨h, -⟩
  · exact Nat.le_of_lt h
  · exact Nat.le_of_eq h

/-- A multiple nearer than half a divisor is the rounded one. -/
theorem roundDiv_eq {k : Nat} (hd : 0 < d) (h : 2 * Nat.dist (k * d) n < d) :
    roundDiv n d = k := by
  -- Two different multiples are not both within half a divisor, one of them by less.
  by_contra hne
  have hround := two_mul_dist_roundDiv_le n hd
  have hapart := le_dist_mul d hne
  have htriangle := Nat.dist.triangle_inequality (roundDiv n d * d) n (k * d)
  rw [Nat.dist_comm n] at htriangle
  omega

/-- An even multiple that is just half a divisor away is the rounded one. -/
theorem roundDiv_eq_of_even {k : Nat} (hd : 0 < d) (h : 2 * Nat.dist (k * d) n = d)
    (hk : k % 2 = 0) : roundDiv n d = k := by
  by_contra hne
  have hapart := le_dist_mul d hne
  have htriangle := Nat.dist.triangle_inequality (roundDiv n d * d) n (k * d)
  rw [Nat.dist_comm n] at htriangle
  obtain hnear | ⟨htie, heven⟩ := roundDiv_spec n hd
  · omega
  · -- Two multiples that are even are apart by twice the divisor.
    have hfar : 2 ≤ Nat.dist (roundDiv n d) k := by
      have := Nat.dist_pos_of_ne hne
      rw [Nat.dist] at this ⊢
      omega
    have hmul := Nat.mul_le_mul_right d hfar
    rw [← Nat.dist_mul_right] at hmul
    omega

theorem dist_roundDiv_le (n k : Nat) (hd : 0 < d) :
    Nat.dist (roundDiv n d * d) n ≤ Nat.dist (k * d) n := by
  have hround := two_mul_dist_roundDiv_le n hd
  by_cases hk : 2 * Nat.dist (k * d) n < d
  · rw [roundDiv_eq hd hk]
  · omega

/-- Where another multiple is as near, the rounded one is even. -/
theorem roundDiv_even {k : Nat} (hd : 0 < d) (hk : k ≠ roundDiv n d)
    (h : Nat.dist (k * d) n = Nat.dist (roundDiv n d * d) n) : roundDiv n d % 2 = 0 := by
  rcases roundDiv_spec n hd with hnear | ⟨-, heven⟩
  · exact absurd (roundDiv_eq hd (by rw [h]; exact hnear)).symm hk
  · exact heven

end PromptTags.Decimal
