/-
Digits in a text, and those of a whole number.

A run of digits ends where the text goes on with something else, and a digit is none of the
characters that are not. The digits of a number are digits, there is at least one, they stand for
the number, and none of them is superfluous: only zero itself starts with a zero.
-/
import Mathlib.Tactic.IntervalCases
import PromptTags.Decimal.Numeral
import PromptTags.Proofs.Text.Cutting
import PromptTags.Text.Digits

set_option autoImplicit false

namespace PromptTags.Decimal

/-! ## 1. Runs of digits -/

def AllDigits (cs : List Char) : Prop := ∀ c ∈ cs, c.isDigit = true

def NoDigitFirst (cs : List Char) : Prop := ∀ c ∈ cs.head?, c.isDigit = false

theorem noDigitFirst_dropWhile (cs : List Char) : NoDigitFirst (cs.dropWhile Char.isDigit) := by
  intro c hc
  have h := List.head?_dropWhile_not Char.isDigit cs
  rw [Option.mem_def.mp hc] at h
  simpa using h

theorem allDigits_append {ds es : List Char} (hds : AllDigits ds) (hes : AllDigits es) :
    AllDigits (ds ++ es) := fun c hc => (List.mem_append.mp hc).elim (hds c) (hes c)

/-- A decimal digit is a digit in base ten. -/
theorem isDigitIn_ten_of_isDigit {c : Char} (h : c.isDigit = true) :
    Text.isDigitIn 10 c = true := by
  have hle : c.toNat ≤ 57 := by
    simp only [Char.isDigit, Bool.and_eq_true, decide_eq_true_eq] at h
    exact UInt32.le_iff_toNat_le.mp h.2
  have hzero : '0'.toNat = 48 := rfl
  rw [Text.isDigitIn, Text.digitValue, if_pos h, decide_eq_true_eq, hzero]
  omega

/-- A digit is none of the characters that are no digits. -/
theorem ne_of_isDigit {c d : Char} (hc : c.isDigit = true) (hd : d.isDigit = false) : c ≠ d := by
  rintro rfl
  rw [hc] at hd
  cases hd

theorem cons_ne_cons_of_isDigit {c d : Char} (hc : c.isDigit = true) (hd : d.isDigit = false)
    {cs ds : List Char} : c :: cs ≠ d :: ds := fun heq =>
  ne_of_isDigit hc hd (List.cons.inj heq).1

/-! ## 2. The digits of a number -/

theorem isDigit_of_mem_digits {n : Nat} {c : Char} (h : c ∈ digits n) : c.isDigit = true :=
  Nat.isDigit_of_mem_toDigits (by decide) (by decide) h

theorem allDigits_zeros (n : Nat) : AllDigits (List.replicate n '0') := fun c hc => by
  rw [List.eq_of_mem_replicate hc]
  rfl

theorem allDigits_digits (n : Nat) : AllDigits (digits n) := fun _ => isDigit_of_mem_digits

theorem digits_ne_nil (n : Nat) : digits n ≠ [] := Nat.toDigits_ne_nil

theorem exists_digits_eq_cons (n : Nat) : ∃ d ds, digits n = d :: ds ∧ d.isDigit = true := by
  obtain ⟨d, ds, hds⟩ := List.exists_cons_of_ne_nil (digits_ne_nil n)
  exact ⟨d, ds, hds, isDigit_of_mem_digits (by rw [hds]; exact List.mem_cons_self)⟩

theorem ofDigits_digits (n : Nat) : ofDigits (digits n) = n := Nat.ofDigitChars_ten_toDigits

/-- The first digit is not zero. -/
theorem head?_digits_ne_zero {n : Nat} (h : n ≠ 0) : (digits n).head? ≠ some '0' := by
  induction n using Nat.strong_induction_on with
  | _ n ih =>
    rcases Nat.lt_or_ge n 10 with hlt | hge
    · rw [digits, Nat.toDigits_of_lt_base hlt]
      interval_cases n
      · exact absurd rfl h
      all_goals decide
    · have hfront : n / 10 ≠ 0 := by omega
      rw [digits, Nat.toDigits_of_base_le (by decide) hge, List.head?_append_of_ne_nil]
      · exact ih (n / 10) (by omega) hfront
      · exact digits_ne_nil (n / 10)

end PromptTags.Decimal
