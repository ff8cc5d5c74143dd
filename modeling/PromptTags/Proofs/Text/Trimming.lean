/-
What blanks at the ends of a text do to it.

`skipBlanks` and `trimmed` are the two ways in which the prompt reader passes over blanks. Nothing
here says which characters are blanks, apart from the last section: no delimiter and no digit is
one, so a blank never ends a name or belongs to a weight.
-/
import Mathlib.Data.List.DropRight
import PromptTags.Prompt.Reader

set_option autoImplicit false

namespace PromptTags.Text

/-! ## 1. Blanks in front -/

def AllBlank (w : List Char) : Prop := ∀ c ∈ w, isBlank c = true

/-- What is said of all characters of a text is decided along the text, and not along all the
characters that there are. -/
instance decidableForallMem (cs : List Char) (p : Char → Prop) [DecidablePred p] :
    Decidable (∀ c ∈ cs, p c) :=
  List.decidableBAll p cs

instance (w : List Char) : Decidable (AllBlank w) :=
  decidableForallMem w (isBlank · = true)

theorem allBlank_nil : AllBlank [] := by
  intro c hc
  exact absurd hc (List.not_mem_nil)

theorem skipBlanks_cons_of_blank {c : Char} (h : isBlank c = true) (cs : List Char) :
    skipBlanks (c :: cs) = skipBlanks cs :=
  List.dropWhile_cons_of_pos h

theorem skipBlanks_cons_of_not_blank {c : Char} (h : isBlank c = false) (cs : List Char) :
    skipBlanks (c :: cs) = c :: cs :=
  List.dropWhile_cons_of_neg (by rw [h]; exact Bool.false_ne_true)

theorem skipBlanks_append {w : List Char} (hw : AllBlank w) (cs : List Char) :
    skipBlanks (w ++ cs) = skipBlanks cs :=
  List.dropWhile_append_of_pos hw

/-- Blanks are skipped up to the first character that is none. -/
theorem skipBlanks_append_of_not_allBlank {cs : List Char} (h : ¬ AllBlank cs) (r : List Char) :
    skipBlanks (cs ++ r) = skipBlanks cs ++ r := by
  have hne : ¬ (List.dropWhile isBlank cs).isEmpty = true := by
    rw [List.isEmpty_iff, List.dropWhile_eq_nil_iff]
    exact h
  rw [skipBlanks, List.dropWhile_append, if_neg hne, skipBlanks]

theorem skipBlanks_skipBlanks (cs : List Char) : skipBlanks (skipBlanks cs) = skipBlanks cs :=
  List.dropWhile_idempotent isBlank cs

theorem skipBlanks_eq_nil_iff {cs : List Char} : skipBlanks cs = [] ↔ AllBlank cs :=
  List.dropWhile_eq_nil_iff

/-- Every text is some blanks, and then what `skipBlanks` leaves of it. -/
theorem exists_blanks (cs : List Char) : ∃ w, AllBlank w ∧ cs = w ++ skipBlanks cs :=
  ⟨cs.takeWhile isBlank, fun _ hc => List.mem_takeWhile_imp hc,
    List.takeWhile_append_dropWhile.symm⟩

/-! ## 2. Blanks at both ends -/

theorem trimmed_eq_rdropWhile (cs : List Char) :
    trimmed cs = (skipBlanks cs).rdropWhile isBlank := rfl

theorem trimmed_append_left {w : List Char} (hw : AllBlank w) (cs : List Char) :
    trimmed (w ++ cs) = trimmed cs := by
  rw [trimmed, skipBlanks_append hw, trimmed]

theorem trimmed_append_right {w : List Char} (hw : AllBlank w) (cs : List Char) :
    trimmed (cs ++ w) = trimmed cs := by
  have hrev : AllBlank w.reverse := fun c hc => hw c (List.mem_reverse.mp hc)
  -- If all of `cs` is blank, then the blanks behind it are skipped from the front.
  by_cases hcs : AllBlank cs
  · rw [trimmed_append_left hcs, trimmed, trimmed, skipBlanks_eq_nil_iff.mpr hcs,
      skipBlanks_eq_nil_iff.mpr hw]
  · rw [trimmed, skipBlanks_append_of_not_allBlank hcs, List.reverse_append, skipBlanks_append hrev,
      trimmed]

theorem mem_of_mem_trimmed {c : Char} {cs : List Char} (h : c ∈ trimmed cs) : c ∈ cs := by
  rw [trimmed_eq_rdropWhile] at h
  exact (List.dropWhile_suffix isBlank).subset ((List.rdropWhile_prefix isBlank _).subset h)

/-- Every text is what is left of it, between blanks. -/
theorem exists_trimmed (cs : List Char) :
    ∃ v w, AllBlank v ∧ AllBlank w ∧ cs = v ++ (trimmed cs ++ w) := by
  obtain ⟨v, hv, hcs⟩ := exists_blanks cs
  obtain ⟨w, hw, hreverse⟩ := exists_blanks (skipBlanks cs).reverse
  refine ⟨v, w.reverse, hv, fun c hc => hw c (List.mem_reverse.mp hc), ?_⟩
  have hskip : skipBlanks cs = trimmed cs ++ w.reverse := by
    rw [trimmed, ← List.reverse_append, ← hreverse, List.reverse_reverse]
  rw [← hskip]
  exact hcs

/-- Only of blanks alone nothing is left. -/
theorem trimmed_eq_nil_iff {cs : List Char} : trimmed cs = [] ↔ AllBlank cs := by
  constructor
  · intro h
    rw [trimmed_eq_rdropWhile, List.rdropWhile_eq_nil_iff] at h
    rw [← skipBlanks_eq_nil_iff]
    cases hs : skipBlanks cs with
    | nil => rfl
    | cons c r =>
      have hb := not_isBlank_of_skipBlanks_eq_cons hs
      rw [h c (by rw [hs]; exact List.mem_cons_self)] at hb
      exact absurd hb (Bool.noConfusion)
  · intro h
    rw [trimmed, skipBlanks_eq_nil_iff.mpr h]
    rfl

/-- What is left starts with no blank. -/
theorem not_blank_of_trimmed_eq_cons {cs r : List Char} {c : Char} (h : trimmed cs = c :: r) :
    isBlank c = false := by
  rw [trimmed_eq_rdropWhile] at h
  obtain ⟨s, hs⟩ := List.rdropWhile_prefix isBlank (skipBlanks cs)
  rw [h, List.cons_append] at hs
  exact not_isBlank_of_skipBlanks_eq_cons hs.symm

/-- What is left ends with no blank. -/
theorem not_blank_of_mem_getLast?_trimmed {cs : List Char} :
    ∀ c ∈ (trimmed cs).getLast?, isBlank c = false := by
  intro c hc
  obtain ⟨hne, rfl⟩ := List.mem_getLast?_eq_getLast hc
  simp only [trimmed_eq_rdropWhile] at hne ⊢
  simpa using List.rdropWhile_last_not isBlank (skipBlanks cs) hne

theorem allBlank_reverse_iff {cs : List Char} : AllBlank cs.reverse ↔ AllBlank cs := by
  simp only [AllBlank, List.mem_reverse]

/-- Blanks in the middle are not trimmed. -/
theorem length_trimmed_append {a b : List Char} (ha : ¬ AllBlank a) (hb : ¬ AllBlank b) :
    (trimmed (a ++ b)).length = (skipBlanks a).length + (skipBlanks b.reverse).length := by
  have hreverse : ¬ AllBlank b.reverse := by
    rw [allBlank_reverse_iff]
    exact hb
  rw [trimmed, skipBlanks_append_of_not_allBlank ha, List.reverse_append,
    skipBlanks_append_of_not_allBlank hreverse]
  simp only [List.length_reverse, List.length_append]
  omega

/-- Trimming one end takes off no more than trimming both. -/
theorem length_trimmed_le (cs : List Char) :
    (trimmed cs).length ≤ (skipBlanks cs.reverse).length := by
  obtain ⟨v, -, hcs⟩ := exists_blanks cs
  have hsplit : cs.reverse = (skipBlanks cs).reverse ++ v.reverse := by
    rw [← List.reverse_append, ← hcs]
  rw [trimmed, List.length_reverse, hsplit]
  by_cases h : AllBlank (skipBlanks cs).reverse
  · rw [skipBlanks_eq_nil_iff.mpr h]
    exact Nat.zero_le _
  · rw [skipBlanks_append_of_not_allBlank h, List.length_append]
    omega

theorem trimmed_trimmed (cs : List Char) : trimmed (trimmed cs) = trimmed cs := by
  have hskip : skipBlanks (trimmed cs) = trimmed cs := by
    cases h : trimmed cs with
    | nil => rfl
    | cons c r => exact skipBlanks_cons_of_not_blank (not_blank_of_trimmed_eq_cons h) r
  rw [trimmed_eq_rdropWhile (trimmed cs), hskip, trimmed_eq_rdropWhile,
    List.rdropWhile_idempotent]

/-! ## 3. Delimiters and digits -/

theorem not_blank_of_isDelimiter {c : Char} (h : Prompt.isDelimiter c = true) :
    isBlank c = false := by
  simp only [Prompt.isDelimiter, Bool.or_eq_true, beq_iff_eq] at h
  obtain ((rfl | rfl) | rfl) | rfl := h <;> decide

theorem not_blank_of_isDigit {c : Char} (h : c.isDigit = true) : isBlank c = false := by
  simp only [Char.isDigit, Bool.and_eq_true, decide_eq_true_eq] at h
  have h₁ : 48 ≤ c.toNat := UInt32.le_iff_toNat_le.mp h.1
  have h₂ : c.toNat ≤ 57 := UInt32.le_iff_toNat_le.mp h.2
  simp only [isBlank, covers, blankRanges, List.any_cons, List.any_nil, Bool.or_eq_false_iff,
    Bool.and_eq_false_iff, decide_eq_false_iff_not, and_true]
  omega

theorem not_isDelimiter_of_isDigit {c : Char} (h : c.isDigit = true) :
    Prompt.isDelimiter c = false := by
  cases hd : Prompt.isDelimiter c with
  | false => rfl
  | true =>
    simp only [Prompt.isDelimiter, Bool.or_eq_true, beq_iff_eq] at hd
    obtain ((rfl | rfl) | rfl) | rfl := hd <;> exact absurd h (by decide)

end PromptTags.Text
