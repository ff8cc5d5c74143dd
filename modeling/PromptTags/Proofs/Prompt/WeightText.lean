/-
The weight behind a colon.

The reader takes a weight apart while it reads: digits before the point, digits behind it, and what
is left. Here the weight is first cut off as a whole, the longest run of digits and one point, and
`finiteNumber?` then says which number the run writes, if it writes one. Both give the same weight
and leave the same text (`readWeight_eq_suffix`).
-/
import PromptTags.Proofs.Decimal.Digits
import PromptTags.Proofs.Text.Trimming

set_option autoImplicit false

namespace PromptTags.Prompt

open Text
open Decimal (AllDigits NoDigitFirst noDigitFirst_dropWhile)

/-! ## 1. A weight as text -/

/-- The longest start of a text that is digits with at most one point among them. -/
def numberText (cs : List Char) : List Char :=
  match cs.dropWhile Char.isDigit with
  | '.' :: r => cs.takeWhile Char.isDigit ++ '.' :: r.takeWhile Char.isDigit
  | _ => cs.takeWhile Char.isDigit

/-- The double nearest to the number that a text of digits with at most one point writes, if there
is a digit in it and the number is in the range of doubles. -/
def finiteNumber? (cs : List Char) : Option Float :=
  let ds := cs.filter Char.isDigit
  let places := (cs.dropWhile (· != '.')).length - 1
  let w := Decimal.nearest (Decimal.ofDigits ds) (Decimal.tenTo places)
  if !ds.isEmpty && w.isFinite then some w else none

/-- The weight that such a text stands for. -/
def writtenWeight (cs : List Char) : Float := (finiteNumber? cs).getD defaultWeight

/-- The weight at the start of a text, if there is one, and what follows it. -/
def suffix (cs : List Char) : Option Float × List Char :=
  match skipBlanks cs with
  | ':' :: r => (some (writtenWeight (numberText r)), r.drop (numberText r).length)
  | _ => (none, cs)

theorem suffix_of_colon {cs r : List Char} (h : skipBlanks cs = ':' :: r) :
    suffix cs = (some (writtenWeight (numberText r)), r.drop (numberText r).length) := by
  simp only [suffix, h]

theorem suffix_of_no_colon {cs : List Char} (h : (skipBlanks cs).head? ≠ some ':') :
    suffix cs = (none, cs) := by
  unfold suffix
  split
  · next r hr => exact absurd (by rw [hr]; rfl) h
  · rfl

theorem suffix_length_le (cs : List Char) : (suffix cs).2.length ≤ cs.length := by
  by_cases h : (skipBlanks cs).head? = some ':'
  · obtain ⟨r, hr⟩ := List.head?_eq_some_iff.mp h
    have hle := skipBlanks_length_le cs
    rw [hr, List.length_cons] at hle
    rw [suffix_of_colon hr, List.length_drop]
    omega
  · rw [suffix_of_no_colon h]

/-! ## 2. Digits around a point -/

/-- Every text starts with digits, or with digits around a point. -/
theorem number_cases (cs : List Char) :
    (∃ whole r, AllDigits whole ∧ NoDigitFirst r ∧ r.head? ≠ some '.' ∧ cs = whole ++ r) ∨
    ∃ whole fraction r, AllDigits whole ∧ AllDigits fraction ∧ NoDigitFirst r ∧
      cs = whole ++ '.' :: (fraction ++ r) := by
  have hwhole : AllDigits (cs.takeWhile Char.isDigit) := fun _ hc => List.mem_takeWhile_imp hc
  have hcs : cs = cs.takeWhile Char.isDigit ++ cs.dropWhile Char.isDigit :=
    List.takeWhile_append_dropWhile.symm
  by_cases hpoint : (cs.dropWhile Char.isDigit).head? = some '.'
  · obtain ⟨r, hr⟩ := List.head?_eq_some_iff.mp hpoint
    refine Or.inr ⟨_, r.takeWhile Char.isDigit, r.dropWhile Char.isDigit, hwhole,
      fun _ hc => List.mem_takeWhile_imp hc, noDigitFirst_dropWhile r, ?_⟩
    rw [List.takeWhile_append_dropWhile, ← hr]
    exact hcs
  · exact Or.inl ⟨_, _, hwhole, noDigitFirst_dropWhile cs, hpoint, hcs⟩

theorem numberText_whole {whole r : List Char} (hwhole : AllDigits whole) (hr : NoDigitFirst r)
    (hpoint : r.head? ≠ some '.') : numberText (whole ++ r) = whole := by
  rw [numberText, dropWhile_run hwhole hr, takeWhile_run hwhole hr]
  split
  · exact absurd rfl hpoint
  · rfl

theorem numberText_fraction {whole fraction r : List Char} (hwhole : AllDigits whole)
    (hfraction : AllDigits fraction) (hr : NoDigitFirst r) :
    numberText (whole ++ '.' :: (fraction ++ r)) = whole ++ '.' :: fraction := by
  have hpoint : NoDigitFirst ('.' :: (fraction ++ r)) := by
    intro c hc
    rw [← Option.some.inj hc]
    decide
  rw [numberText, dropWhile_run hwhole hpoint, takeWhile_run hwhole hpoint]
  show whole ++ '.' :: (fraction ++ r).takeWhile Char.isDigit = whole ++ '.' :: fraction
  rw [takeWhile_run hfraction hr]

/-- A weight stands at the start of a text, and it is digits and points. -/
theorem numberText_spec (cs : List Char) :
    numberText cs <+: cs ∧ ∀ c ∈ numberText cs, c.isDigit = true ∨ c = '.' := by
  rcases number_cases cs with
    ⟨whole, r, hwhole, hr, hpoint, rfl⟩ | ⟨whole, fraction, r, hwhole, hfraction, hr, rfl⟩
  · rw [numberText_whole hwhole hr hpoint]
    exact ⟨List.prefix_append whole r, fun c hc => Or.inl (hwhole c hc)⟩
  · rw [numberText_fraction hwhole hfraction hr]
    constructor
    · rw [← List.cons_append, ← List.append_assoc]
      exact List.prefix_append _ r
    · intro c hc
      rcases List.mem_append.mp hc with hc | hc
      · exact Or.inl (hwhole c hc)
      · rcases List.mem_cons.mp hc with rfl | hc
        · exact Or.inr rfl
        · exact Or.inl (hfraction c hc)

theorem numberText_cons_digit {c : Char} (h : c.isDigit = true) (cs : List Char) :
    numberText (c :: cs) = c :: numberText cs := by
  rw [numberText, numberText, List.dropWhile_cons_of_pos h, List.takeWhile_cons_of_pos h]
  split <;> rfl

theorem numberText_point (cs : List Char) :
    numberText ('.' :: cs) = '.' :: cs.takeWhile Char.isDigit := rfl

theorem numberText_cons_of_ne {c : Char} (hdigit : ¬ c.isDigit = true) (hpoint : c ≠ '.')
    (cs : List Char) : numberText (c :: cs) = [] := by
  rw [numberText, List.dropWhile_cons_of_neg hdigit, List.takeWhile_cons_of_neg hdigit]
  split
  · next r hr => exact absurd (List.cons.inj hr).1 hpoint
  · rfl

theorem numberText_append_drop (cs : List Char) :
    numberText cs ++ cs.drop (numberText cs).length = cs :=
  List.prefix_iff_eq_append.mp (numberText_spec cs).1

/-- The start of a weight is a weight of its own. -/
theorem numberText_of_prefix {p cs : List Char} (h : p <+: numberText cs) : numberText p = p := by
  have hnone : NoDigitFirst [] := fun c hc => absurd hc (by simp)
  have hdigits : ∀ {ds : List Char}, AllDigits ds → numberText ds = ds := by
    intro ds hds
    have hwhole := numberText_whole hds hnone (by simp)
    rwa [List.append_nil] at hwhole
  obtain ⟨q, hq⟩ := h
  rcases number_cases cs with
    ⟨whole, r, hwhole, hr, hpoint, rfl⟩ | ⟨whole, fraction, r, hwhole, hfraction, hr, rfl⟩
  · rw [numberText_whole hwhole hr hpoint] at hq
    apply hdigits
    intro c hc
    exact hwhole c (hq ▸ List.mem_append_left q hc)
  · rw [numberText_fraction hwhole hfraction hr, List.append_eq_append_iff] at hq
    rcases hq with ⟨rest, hrest, -⟩ | ⟨rest, hp, hrest⟩
    · apply hdigits
      intro c hc
      exact hwhole c (hrest ▸ List.mem_append_left rest hc)
    · cases rest with
      | nil =>
        rw [hp, List.append_nil]
        exact hdigits hwhole
      | cons c rest =>
        obtain ⟨rfl, rfl⟩ := List.cons.inj hrest
        have hstart : AllDigits rest := fun d hd => hfraction d (List.mem_append_left q hd)
        have htext := numberText_fraction hwhole hstart hnone
        rw [List.append_nil] at htext
        rw [hp, htext]

/-- Where a weight ends is seen at the next character. -/
theorem numberText_append_cons {n t : List Char} {c : Char} (h : numberText (n ++ c :: t) = n)
    (r : List Char) : numberText (n ++ c :: r) = n := by
  generalize htext : n ++ c :: t = cs at h
  rcases number_cases cs with
    ⟨whole, rest, hwhole, hr, hpoint, rfl⟩ | ⟨whole, fraction, rest, hwhole, hfraction, hr, rfl⟩
  · rw [numberText_whole hwhole hr hpoint] at h
    subst h
    obtain rfl := List.append_cancel_left htext
    exact numberText_whole hwhole (fun d hd => hr d hd) hpoint
  · rw [numberText_fraction hwhole hfraction hr] at h
    subst h
    rw [List.append_assoc, List.cons_append] at htext ⊢
    obtain rfl : c :: t = rest := by simpa using htext
    exact numberText_fraction hwhole hfraction (fun d hd => hr d hd)

/-! ## 3. The reader's weights -/

theorem splitNumber_append_digits {ds : List Char} (hds : AllDigits ds) (cs : List Char) :
    splitNumber true (ds ++ cs)
      = ((ds ++ (splitNumber true cs).1.1, (splitNumber true cs).1.2),
        (splitNumber true cs).2) := by
  induction ds with
  | nil => rfl
  | cons d ds ih =>
    have hd := hds d List.mem_cons_self
    rw [List.cons_append, splitNumber, if_pos hd,
      ih fun c hc => hds c (List.mem_cons_of_mem _ hc), List.cons_append]
    rfl

theorem splitNumber_false (cs : List Char) :
    splitNumber false cs = (([], cs.takeWhile Char.isDigit), cs.dropWhile Char.isDigit) := by
  induction cs with
  | nil => rfl
  | cons c cs ih =>
    by_cases hc : c.isDigit = true
    · rw [splitNumber, if_pos hc, ih, List.takeWhile_cons_of_pos hc,
        List.dropWhile_cons_of_pos hc]
      rfl
    · rw [splitNumber, if_neg hc, List.takeWhile_cons_of_neg hc, List.dropWhile_cons_of_neg hc]
      rfl

theorem splitNumber_whole {whole r : List Char} (hwhole : AllDigits whole) (hr : NoDigitFirst r)
    (hpoint : r.head? ≠ some '.') : splitNumber true (whole ++ r) = ((whole, []), r) := by
  have hstop : splitNumber true r = (([], []), r) := by
    cases r with
    | nil => rfl
    | cons c r =>
      have hc : c.isDigit = false := hr c rfl
      have hp : (c == '.') = false := by simpa using hpoint
      rw [splitNumber, hc, hp]
      rfl
  rw [splitNumber_append_digits hwhole, hstop, List.append_nil]

theorem splitNumber_fraction {whole fraction r : List Char} (hwhole : AllDigits whole)
    (hfraction : AllDigits fraction) (hr : NoDigitFirst r) :
    splitNumber true (whole ++ '.' :: (fraction ++ r)) = ((whole, fraction), r) := by
  have hpoint : splitNumber true ('.' :: (fraction ++ r)) = (([], fraction), r) := by
    rw [splitNumber, splitNumber_false, takeWhile_run hfraction hr,
      dropWhile_run hfraction hr]
    rfl
  rw [splitNumber_append_digits hwhole, hpoint, List.append_nil]

theorem point_not_mem {ds : List Char} (hds : AllDigits ds) : ∀ c ∈ ds, (c != '.') = true := by
  intro c hc
  rw [bne_iff_ne]
  rintro rfl
  exact absurd (hds _ hc) (by decide)

theorem writtenWeight_eq_literalWeight {whole fraction cs : List Char} (hwhole : AllDigits whole)
    (hfraction : AllDigits fraction)
    (hcs : cs = whole ∧ fraction = [] ∨ cs = whole ++ '.' :: fraction) :
    writtenWeight cs = literalWeight whole fraction := by
  -- Both take the same digits, and the same number of places behind the point.
  have hfilter : cs.filter Char.isDigit = whole ++ fraction := by
    obtain ⟨rfl, rfl⟩ | rfl := hcs
    · rw [List.append_nil, List.filter_eq_self.mpr hwhole]
    · rw [List.filter_append, List.filter_cons_of_neg (by decide),
        List.filter_eq_self.mpr hwhole, List.filter_eq_self.mpr hfraction]
  have hplaces : (cs.dropWhile (· != '.')).length - 1 = fraction.length := by
    obtain ⟨rfl, rfl⟩ | rfl := hcs
    · rw [List.dropWhile_eq_nil_iff.mpr (point_not_mem hwhole)]; rfl
    · rw [List.dropWhile_append_of_pos (point_not_mem hwhole),
        List.dropWhile_cons_of_neg (by decide), List.length_cons, Nat.add_sub_cancel]
  have hempty : (whole ++ fraction).isEmpty = (whole.isEmpty && fraction.isEmpty) := by
    cases whole <;> cases fraction <;> rfl
  rw [writtenWeight, finiteNumber?, literalWeight]
  simp only [hfilter, hplaces, hempty]
  cases whole.isEmpty && fraction.isEmpty with
  | true => rfl
  | false =>
    simp only [Bool.not_false, Bool.true_and, Bool.false_eq_true, if_false]
    split <;> rfl

/-- Cutting a weight off as text or digit by digit gives the same weight and leaves the same. -/
theorem splitNumber_eq_numberText (cs : List Char) :
    literalWeight (splitNumber true cs).1.1 (splitNumber true cs).1.2
        = writtenWeight (numberText cs)
      ∧ (splitNumber true cs).2 = cs.drop (numberText cs).length := by
  obtain ⟨whole, r, hwhole, hr, hpoint, rfl⟩ | ⟨whole, fraction, r, hwhole, hfraction, hr, rfl⟩ :=
    number_cases cs
  · rw [splitNumber_whole hwhole hr hpoint, numberText_whole hwhole hr hpoint]
    have hnone : AllDigits [] := fun c hc => absurd hc List.not_mem_nil
    exact ⟨(writtenWeight_eq_literalWeight hwhole hnone (Or.inl ⟨rfl, rfl⟩)).symm,
      List.drop_left.symm⟩
  · rw [splitNumber_fraction hwhole hfraction hr, numberText_fraction hwhole hfraction hr]
    refine ⟨(writtenWeight_eq_literalWeight hwhole hfraction (Or.inr rfl)).symm, ?_⟩
    rw [← List.cons_append, ← List.append_assoc, List.drop_left]

theorem readWeight_of_colon {cs r : List Char} (h : skipBlanks cs = ':' :: r) :
    (readWeight cs).value = some (writtenWeight (numberText r))
      ∧ (readWeight cs).rest = r.drop (numberText r).length := by
  obtain ⟨hweight, hrest⟩ := splitNumber_eq_numberText r
  rw [← hweight, ← hrest, readWeight]
  split
  · next r' h' =>
    obtain rfl := (List.cons.inj (h'.symm.trans h)).2
    exact ⟨rfl, rfl⟩
  · next hno => exact absurd h (hno r)

theorem readWeight_of_no_colon {cs : List Char} (h : (skipBlanks cs).head? ≠ some ':') :
    (readWeight cs).value = none ∧ (readWeight cs).rest = skipBlanks cs := by
  rw [readWeight]
  split
  · next r hr => exact absurd (by rw [hr]; rfl) h
  · exact ⟨rfl, rfl⟩

/-- A weight that is read is the suffix of the text; where there is none, blanks are passed over. -/
theorem readWeight_eq_suffix (cs : List Char) :
    (readWeight cs).value = (suffix cs).1
      ∧ skipBlanks (readWeight cs).rest = skipBlanks (suffix cs).2 := by
  by_cases h : (skipBlanks cs).head? = some ':'
  · obtain ⟨r, hr⟩ := List.head?_eq_some_iff.mp h
    obtain ⟨hvalue, hrest⟩ := readWeight_of_colon hr
    rw [suffix_of_colon hr, hvalue, hrest]
    exact ⟨rfl, rfl⟩
  · obtain ⟨hvalue, hrest⟩ := readWeight_of_no_colon h
    rw [suffix_of_no_colon h, hvalue, hrest]
    exact ⟨rfl, skipBlanks_skipBlanks cs⟩

end PromptTags.Prompt
