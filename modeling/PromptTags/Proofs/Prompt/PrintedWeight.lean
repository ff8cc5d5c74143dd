/-
The weight as it is printed.

A finite weight without a sign is printed as digits around a point, so the reader takes all of it
and finds the double nearest to the printed number (`suffix_printed`). Any other weight, one that is
not a number, infinite or with a sign, is printed as text that starts with no digit and no point:
the reader takes nothing of it as a weight (`suffix_not_printed`), and the text is left over as a
name.
-/
import PromptTags.Proofs.Decimal.Digits
import PromptTags.Proofs.Decimal.LastPlaces
import PromptTags.Proofs.Prompt.Grammar
import PromptTags.Prompt.Writer

set_option autoImplicit false

namespace PromptTags.Prompt

open Text Decimal

/-! ## 1. Printed digits -/

/-- Zeros in front do not count. -/
theorem ofDigits_leftpad (k : Nat) (ds : List Char) :
    ofDigits (ds.leftpad k '0') = ofDigits ds := by
  have hzeros : ∀ j,
      (List.replicate j '0').foldl (fun n c => 10 * n + Decimal.digitValue c) 0 = 0 := by
    intro j
    induction j with
    | zero => rfl
    | succ j ih => rw [List.replicate_succ, List.foldl_cons]; exact ih
  rw [List.leftpad, ofDigits, List.foldl_append, hzeros, ofDigits]

/-- A whole number of the last place is printed as its digits around a point. -/
theorem pointed_eq {places : Nat} (hplaces : 0 < places) (n : Nat) :
    ∃ whole fraction, AllDigits whole ∧ AllDigits fraction ∧ whole ≠ [] ∧
      fraction.length = places ∧ ofDigits (whole ++ fraction) = n ∧
      pointed places n = whole ++ '.' :: fraction := by
  obtain ⟨ds, hds⟩ : ∃ ds, (digits n).leftpad (places + 1) '0' = ds := ⟨_, rfl⟩
  have hlen : places + 1 ≤ ds.length := by
    rw [← hds, List.length_leftpad]
    exact Nat.le_max_left _ _
  have hdigits : AllDigits ds := by
    rw [← hds, List.leftpad]
    exact allDigits_append (allDigits_zeros _) (allDigits_digits n)
  refine ⟨ds.take (ds.length - places), ds.drop (ds.length - places),
    fun c hc => hdigits c (List.mem_of_mem_take hc),
    fun c hc => hdigits c (List.mem_of_mem_drop hc), ?_, ?_, ?_, ?_⟩
  · refine List.ne_nil_of_length_pos ?_
    rw [List.length_take]
    omega
  · rw [List.length_drop]
    omega
  · rw [List.take_append_drop, ← hds, ofDigits_leftpad, ofDigits_digits]
  · rw [pointed, hds, if_neg (Nat.ne_of_gt hplaces)]

/-! ## 2. Weights that read back -/

/-- A weight that is printed as a number: finite, and without a sign. -/
structure Printable (w : Float) : Prop where
  finite : w.isFinite = true
  unsigned : isNegative w = false

theorem printable_iff {w : Float} : Printable w ↔ w.isFinite = true ∧ isNegative w = false :=
  ⟨fun h => ⟨h.finite, h.unsigned⟩, fun h => ⟨h.1, h.2⟩⟩

instance (w : Float) : Decidable (Printable w) := decidable_of_iff _ printable_iff.symm

/-- A weight as it is printed. -/
def printed (w : Float) : List Char := fixedChars weightPlaces w

/-- The number that digits with at most one point among them write. -/
def decimalValue (cs : List Char) : ℚ :=
  ofDigits (cs.filter Char.isDigit) / tenTo ((cs.dropWhile (· != '.')).length - 1)

/-- The weight that is read where a weight was printed: the double nearest to what is printed. -/
def rereadWeight (w : Float) : Float := nearest (lastPlaces weightPlaces w) (tenTo weightPlaces)

theorem printed_of_printable {w : Float} (h : Printable w) :
    printed w = pointed weightPlaces (lastPlaces weightPlaces w) := by
  rw [printed, fixedChars, isNaN_of_isFinite h.finite, h.unsigned, isInf_of_isFinite h.finite]
  rfl

/-- Any other weight is printed with a letter or a sign first. -/
theorem printed_of_not_printable {w : Float} (h : ¬ Printable w) :
    ∃ c cs, printed w = c :: cs ∧ c.isDigit = false ∧ c ≠ '.' := by
  rw [printed, fixedChars]
  cases hnan : w.isNaN with
  | true => exact ⟨'N', _, rfl, by decide, by decide⟩
  | false =>
    cases hneg : isNegative w with
    | true => exact ⟨'-', _, rfl, by decide, by decide⟩
    | false =>
      have hfin : w.isFinite = false := by
        cases hfin : w.isFinite with
        | true => exact absurd ⟨hfin, hneg⟩ h
        | false => rfl
      rw [isInf_of_not_isFinite hfin hnan]
      exact ⟨'i', _, rfl, by decide, by decide⟩

theorem isFinite_rereadWeight {w : Float} (h : Printable w) : (rereadWeight w).isFinite = true := by
  rw [isFinite_iff, rereadWeight, magnitudeBits_nearest]
  exact nearestBits_lastPlaces_lt weightPlaces h.finite

theorem printable_rereadWeight {w : Float} (h : Printable w) : Printable (rereadWeight w) :=
  ⟨isFinite_rereadWeight h, isNegative_nearest _ _⟩

/-- What is read back is printed the same. -/
theorem printed_rereadWeight {w : Float} (h : Printable w) :
    printed (rereadWeight w) = printed w := by
  rw [printed_of_printable h, printed_of_printable (printable_rereadWeight h), rereadWeight,
    lastPlaces_nearest weightPlaces h.finite]

/-- A printed weight is digits around a point, and reads as the double nearest to them. -/
theorem printed_spec {w : Float} (h : Printable w) :
    ∃ whole fraction, AllDigits whole ∧ AllDigits fraction ∧ printed w = whole ++ '.' :: fraction ∧
      writtenWeight (printed w) = rereadWeight w ∧
      decimalValue (printed w) = lastPlaces weightPlaces w / tenTo weightPlaces := by
  obtain ⟨whole, fraction, hwhole, hfraction, hne, hlen, hvalue, hpointed⟩ :=
    pointed_eq (by decide : 0 < weightPlaces) (lastPlaces weightPlaces w)
  have hprinted : printed w = whole ++ '.' :: fraction := (printed_of_printable h).trans hpointed
  refine ⟨whole, fraction, hwhole, hfraction, hprinted, ?_, ?_⟩
  · have hempty : whole.isEmpty = false := List.isEmpty_eq_false_iff.mpr hne
    have hfin := isFinite_rereadWeight h
    rw [rereadWeight] at hfin ⊢
    rw [writtenWeight_eq_literalWeight hwhole hfraction (Or.inr hprinted), literalWeight, hvalue,
      hlen, hempty, hfin]
    rfl
  · rw [decimalValue, hprinted, List.filter_append, List.filter_cons_of_neg (by decide),
      List.filter_eq_self.mpr hwhole, List.filter_eq_self.mpr hfraction, hvalue,
      List.dropWhile_append_of_pos (point_not_mem hwhole), List.dropWhile_cons_of_neg (by decide),
      List.length_cons, Nat.add_sub_cancel, hlen]

/-- What is read is the double nearest to what is printed. -/
theorem isNearest_rereadWeight {w : Float} (h : Printable w) :
    IsNearest (rereadWeight w) (decimalValue (printed w)) := by
  obtain ⟨_, _, _, _, _, _, hvalue⟩ := printed_spec h
  rw [hvalue]
  exact nearest_isNearest _ (tenTo_pos _) (nearestBits_lastPlaces_lt weightPlaces h.finite)

/-! ## 3. Printed weights in text -/

theorem suffix_printed {w : Float} (h : Printable w) {cs : List Char} (hcs : EndsSegment cs) :
    suffix (':' :: (printed w ++ cs)) = (some (rereadWeight w), cs) := by
  obtain ⟨whole, fraction, hwhole, hfraction, hprinted, hweight, -⟩ := printed_spec h
  have hnumber : numberText (printed w ++ cs) = printed w := by
    rw [hprinted, List.append_assoc, List.cons_append,
      numberText_fraction hwhole hfraction (not_number_of_endsSegment hcs).1]
  rw [suffix_of_colon (skipBlanks_cons_of_not_blank (by decide) _), hnumber, hweight,
    List.drop_left]

theorem suffix_not_printed {w : Float} (h : ¬ Printable w) (cs : List Char) :
    suffix (':' :: (printed w ++ cs)) = (some defaultWeight, printed w ++ cs) := by
  obtain ⟨c, r, hprinted, hdigit, hpoint⟩ := printed_of_not_printable h
  have hnumber : numberText (printed w ++ cs) = [] := by
    have hfirst : NoDigitFirst (printed w ++ cs) := by
      rw [hprinted]
      intro a ha
      rw [← Option.some.inj ha]
      exact hdigit
    refine numberText_whole (fun _ hc => absurd hc List.not_mem_nil) hfirst ?_
    rw [hprinted]
    exact fun heq => hpoint (Option.some.inj heq)
  rw [suffix_of_colon (skipBlanks_cons_of_not_blank (by decide) _), hnumber]
  rfl

theorem isPlain_of_forall {name : List Char} (hne : name ≠ [])
    (h : ∀ c ∈ name, isBlank c = false ∧ isDelimiter c = false) : IsPlain name := by
  have hskip : ∀ {cs : List Char}, (∀ c ∈ cs, c ∈ name) → skipBlanks cs = cs := by
    intro cs hcs
    cases cs with
    | nil => rfl
    | cons c r => exact skipBlanks_cons_of_not_blank (h c (hcs c List.mem_cons_self)).1 r
  refine ⟨hne, ?_, fun c hc => (h c hc).2⟩
  rw [trimmed, hskip fun _ hc => hc, hskip fun _ hc => List.mem_reverse.mp hc, List.reverse_reverse]

theorem plain_of_isDigit {c : Char} (h : c.isDigit = true) :
    isBlank c = false ∧ isDelimiter c = false :=
  ⟨not_blank_of_isDigit h, not_isDelimiter_of_isDigit h⟩

/-- A weight that does not read back is left over as a name. -/
theorem isPlain_printed {w : Float} (h : ¬ Printable w) : IsPlain (printed w) := by
  have hnumber : ∀ c ∈ pointed weightPlaces (lastPlaces weightPlaces w),
      isBlank c = false ∧ isDelimiter c = false := by
    obtain ⟨whole, fraction, hwhole, hfraction, -, -, -, hpointed⟩ :=
      pointed_eq (by decide : 0 < weightPlaces) (lastPlaces weightPlaces w)
    intro c hc
    rw [hpointed, List.mem_append, List.mem_cons] at hc
    obtain hc | rfl | hc := hc
    · exact plain_of_isDigit (hwhole c hc)
    · decide
    · exact plain_of_isDigit (hfraction c hc)
  obtain ⟨c, r, hprinted, -⟩ := printed_of_not_printable h
  refine isPlain_of_forall (by rw [hprinted]; exact List.cons_ne_nil c r) ?_
  rw [printed, fixedChars]
  by_cases hnan : w.isNaN = true
  · rw [if_pos hnan]
    decide
  · -- What is printed is a sign, and then "inf" or a number.
    have hsign : ∀ c ∈ if isNegative w then ['-'] else [],
        isBlank c = false ∧ isDelimiter c = false := by
      split_ifs <;> decide
    have hbody : ∀ c ∈ if w.isInf then "inf".toList else
        pointed weightPlaces (lastPlaces weightPlaces w),
        isBlank c = false ∧ isDelimiter c = false := by
      split_ifs
      · decide
      · exact hnumber
    rw [if_neg hnan]
    exact fun c hc => (List.mem_append.mp hc).elim (hsign c) (hbody c)

end PromptTags.Prompt
