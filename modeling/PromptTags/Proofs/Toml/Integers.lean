/-
Whole numbers that are written in TOML and read again.

A number in digits starts like a date, like a time and like a number with a point, and these are
tried first. Each of them asks for a mark behind some digits, a hyphen, a colon, a point or a letter,
and at the end of a line there is none (`readMark_of_readFixed`, `readFraction_digits`). So the
digits are read as an integer (`readScalar_digits`).
-/
import Mathlib.Tactic.SplitIfs
import PromptTags.Proofs.Decimal.Digits
import PromptTags.Toml.Scalar

set_option autoImplicit false

namespace PromptTags.Toml

open Decimal (digits exists_digits_eq_cons AllDigits allDigits_digits ne_of_isDigit
  cons_ne_cons_of_isDigit)

variable {ds r : List Char} {n : Nat}

/-! ## 1. Runs of digits -/

theorem moreDigits_append (hds : AllDigits ds) :
    moreDigits 10 (ds ++ '\n' :: r) = (ds, '\n' :: r) := by
  induction ds with
  | nil =>
    have hline : Text.isDigitIn 10 '\n' = false := by decide
    simp [moreDigits, hline]
  | cons d ds ih =>
    obtain ⟨hd, hrest⟩ := List.forall_mem_cons.mp hds
    have hbase := Decimal.isDigitIn_ten_of_isDigit hd
    have hunderscore : d ≠ '_' := by
      rintro rfl
      exact absurd hd (by decide)
    rw [List.cons_append, moreDigits.eq_def]
    split
    · next heq => exact absurd (List.cons.inj heq).1 hunderscore
    · next heq =>
      obtain ⟨rfl, rfl⟩ := List.cons.inj heq
      rw [if_pos hbase, ih hrest]
    · next heq => cases heq

theorem readWhole_digits (n : Nat) (r : List Char) :
    readWhole (digits n ++ '\n' :: r) = some (digits n, '\n' :: r) := by
  rcases Nat.eq_zero_or_pos n with rfl | hpos
  · rfl
  have hall := allDigits_digits n
  have hhead := Decimal.head?_digits_ne_zero hpos.ne'
  obtain ⟨d, ds, hds⟩ := List.exists_cons_of_ne_nil (Decimal.digits_ne_nil n)
  rw [hds] at hall hhead ⊢
  obtain ⟨hd, hrest⟩ := List.forall_mem_cons.mp hall
  unfold readWhole
  split
  · next heq => exact absurd (congrArg List.head? heq) hhead
  · rw [List.cons_append, readDigits, if_pos (Decimal.isDigitIn_ten_of_isDigit hd),
      moreDigits_append hrest]

/-! ## 2. What a number in digits is not -/

/-- Behind digits of a fixed count there is another one or the end of the line, and no mark. -/
theorem readMark_of_readFixed {count least greatest : Nat} {mark : Char} {v : Nat}
    {behind : List Char} (hds : AllDigits ds) (hmark : mark.isDigit = false)
    (hline : mark ≠ '\n') (h : readFixed count least greatest (ds ++ '\n' :: r) = some (v, behind)) :
    readMark mark behind = none := by
  unfold readFixed at h
  dsimp only at h
  split_ifs at h with hcount
  obtain ⟨hlength, hall, -⟩ := hcount
  obtain ⟨-, rfl⟩ := Prod.mk.inj (Option.some.inj h)
  -- The digits that were counted do not go past the end of the line.
  have hle : count ≤ ds.length := by
    by_contra hlt
    have hmem : '\n' ∈ (ds ++ '\n' :: r).take count := by
      have htake : (ds ++ '\n' :: r).take (ds.length + 1) = ds ++ ['\n'] := by
        rw [List.take_append, List.take_of_length_le (Nat.le_succ _), Nat.add_sub_cancel_left]
        rfl
      have hprefix := List.take_subset_take_left (ds ++ '\n' :: r)
        (Nat.succ_le_of_lt (Nat.lt_of_not_le hlt))
      exact hprefix (by rw [Nat.succ_eq_add_one, htake]; simp)
    exact absurd (List.all_eq_true.mp hall _ hmem) (by decide)
  rw [List.drop_append_of_le_length hle]
  cases hdrop : ds.drop count with
  | nil => simp [readMark, hline.symm]
  | cons d rest =>
    have hd : d.isDigit = true := hds d (List.mem_of_mem_drop (by rw [hdrop]; exact List.mem_cons_self))
    simp [readMark, ne_of_isDigit hd hmark]

theorem readDate_digits (hds : AllDigits ds) : readDate (ds ++ '\n' :: r) = none := by
  unfold readDate
  cases hyear : readFixed 4 0 9999 (ds ++ '\n' :: r) with
  | none => rfl
  | some year =>
    obtain ⟨v, behind⟩ := year
    have hmark : readMark '-' behind = none :=
      readMark_of_readFixed hds (by decide) (by decide) hyear
    simp only [Option.bind_eq_bind, Option.bind_some, hmark, Option.bind_none]

theorem readTime_digits (hds : AllDigits ds) : readTime (ds ++ '\n' :: r) = none := by
  unfold readTime
  cases hhour : readFixed 2 0 23 (ds ++ '\n' :: r) with
  | none => rfl
  | some hour =>
    obtain ⟨v, behind⟩ := hour
    have hmark : readMark ':' behind = none :=
      readMark_of_readFixed hds (by decide) (by decide) hhour
    simp only [Option.bind_eq_bind, Option.bind_some, hmark, Option.bind_none]

theorem readSign_digits (n : Nat) (r : List Char) :
    readSign (digits n ++ r) = (false, digits n ++ r) := by
  obtain ⟨d, ds, hds, hd⟩ := exists_digits_eq_cons n
  rw [hds, List.cons_append]
  unfold readSign
  split
  · next heq => exact absurd heq (cons_ne_cons_of_isDigit hd (by decide))
  · next heq => exact absurd heq (cons_ne_cons_of_isDigit hd (by decide))
  · rfl

theorem readFraction_digits (n : Nat) (r : List Char) :
    readFraction (digits n ++ '\n' :: r) = none := by
  simp only [readFraction, readSign_digits, readWhole_digits]
  rfl

theorem readFloat_digits (n : Nat) (r : List Char) : readFloat (digits n ++ '\n' :: r) = none := by
  obtain ⟨d, ds, hds, hd⟩ := exists_digits_eq_cons n
  have hspecial : readSpecial (digits n ++ '\n' :: r) = none := by
    rw [hds, List.cons_append]
    unfold readSpecial
    split
    · next heq => exact absurd heq (cons_ne_cons_of_isDigit hd (by decide))
    · next heq => exact absurd heq (cons_ne_cons_of_isDigit hd (by decide))
    · rfl
  simp only [readFloat, readFraction_digits, readSign_digits, hspecial]
  rfl

theorem readBool_digits (n : Nat) (r : List Char) : readBool (digits n ++ '\n' :: r) = none := by
  obtain ⟨d, ds, hds, hd⟩ := exists_digits_eq_cons n
  rw [hds, List.cons_append]
  unfold readBool
  split
  · next heq => exact absurd heq (cons_ne_cons_of_isDigit hd (by decide))
  · next heq => exact absurd heq (cons_ne_cons_of_isDigit hd (by decide))
  · rfl

/-! ## 3. What it is -/

/-- There is no mark of another base, since only zero starts with a zero. -/
theorem readInteger_digits (h : n ≤ greatestInteger) (r : List Char) :
    readInteger (digits n ++ '\n' :: r) = some (.integer n, '\n' :: r) := by
  have hmark : ∀ c cs, c ≠ '\n' → c.isDigit = false → digits n ++ '\n' :: r ≠ '0' :: c :: cs := by
    intro c cs hline hdigit heq
    have hzero : n = 0 := by
      by_contra hne
      have hhead := Decimal.head?_digits_ne_zero hne
      obtain ⟨d, ds, hds⟩ := List.exists_cons_of_ne_nil (Decimal.digits_ne_nil n)
      rw [hds] at heq hhead
      exact hhead (by rw [(List.cons.inj heq).1]; rfl)
    subst hzero
    exact hline (List.cons.inj (List.cons.inj heq).2).1.symm
  unfold readInteger
  split
  · next heq => exact absurd heq (hmark _ _ (by decide) (by decide))
  · next heq => exact absurd heq (hmark _ _ (by decide) (by decide))
  · next heq => exact absurd heq (hmark _ _ (by decide) (by decide))
  · simp only [readSign_digits, readWhole_digits, Decimal.ofDigits_digits]
    rw [if_neg Bool.false_ne_true, if_pos h]

/-- **A whole number in digits, at the end of a line, is read as an integer.** -/
theorem readScalar_digits (h : n ≤ greatestInteger) (r : List Char) :
    readScalar (digits n ++ '\n' :: r) = some (.integer n, '\n' :: r) := by
  have hmoment : readMoment (digits n ++ '\n' :: r) = none := by
    rw [readMoment, afterMoment, readDate_digits (allDigits_digits n)]
    simp only [readTime_digits (allDigits_digits n), Option.map_none]
  rw [readScalar, readBool_digits, hmoment, readFloat_digits, readInteger_digits h]
  rfl

end PromptTags.Toml
