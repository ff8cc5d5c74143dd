/-
Lower-casing a part of a text.

All characters but one are lower-cased on their own. The lower-case form of a capital sigma depends
on whether it ends a word, and so on what stands around it. A part of a text is therefore lower-cased
as if it stood alone just where each capital sigma in it ends a word in the one case as in the other
(`lowerBetween_eq_iff`). The induction is on the part, with what precedes it growing to the left.

Only the nearest character on either side counts that is not looked through, so a capital sigma that
has such characters on both sides is the same in every text. Near the ends of a part it may depend
on its surroundings, and where it does, a letter on one side shows it: a letter in front can only
turn `σ` into `ς`, and a letter behind only `ς` into `σ`, so that the part as it is lower-cased alone
has more of one of them than the text that it stands in (`settled_of_infix`).
-/
import Mathlib.Data.List.TakeWhile
import PromptTags.Text.LowerCase

set_option autoImplicit false

namespace PromptTags.Text

/-! ## 1. A character in its place -/

/-- Whether a capital sigma ends a word, from what precedes it, nearest first, and what follows. -/
def endsWord (before after : List Char) : Bool := meetsCased before && !meetsCased after

/-- The lower-case form of a character where it stands. -/
def lowered (before : List Char) (c : Char) (after : List Char) : List Char :=
  if c = 'Σ' then [if endsWord before after then 'ς' else 'σ']
  else if c = 'İ' then ['i', '\u0307']
  else [lowerChar c]

theorem lowerFrom_cons (before : List Char) (c : Char) (rest : List Char) :
    lowerFrom before (c :: rest) = lowered before c rest ++ lowerFrom (c :: before) rest := rfl

theorem lowered_sigma (before after : List Char) :
    lowered before 'Σ' after = [if endsWord before after then 'ς' else 'σ'] := if_pos rfl

/-- No other character depends on what stands around it. -/
theorem lowered_congr {c : Char} (h : c ≠ 'Σ') (before after before' after' : List Char) :
    lowered before c after = lowered before' c after' := by
  rw [lowered, lowered, if_neg h, if_neg h]

theorem lowered_eq_iff {c : Char} {before after before' after' : List Char} :
    lowered before c after = lowered before' c after' ↔
      (c = 'Σ' → endsWord before after = endsWord before' after') := by
  by_cases h : c = 'Σ'
  · subst h
    rw [lowered_sigma, lowered_sigma]
    cases endsWord before after <;> cases endsWord before' after' <;> decide
  · exact ⟨fun _ hsigma => absurd hsigma h, fun _ => lowered_congr h _ _ _ _⟩

theorem length_lowered (before : List Char) (c : Char) (after before' after' : List Char) :
    (lowered before c after).length = (lowered before' c after').length := by
  by_cases h : c = 'Σ'
  · subst h
    rw [lowered_sigma, lowered_sigma, List.length_singleton, List.length_singleton]
  · rw [lowered_congr h]

/-! ## 2. A part of a text -/

/-- Lower-cases a text that stands between two others. -/
def lowerBetween (before : List Char) : (cs after : List Char) → List Char
  | [], _ => []
  | c :: cs, after => lowered before c (cs ++ after) ++ lowerBetween (c :: before) cs after

theorem lowerFrom_append (before cs after : List Char) :
    lowerFrom before (cs ++ after)
      = lowerBetween before cs after ++ lowerFrom (cs.reverse ++ before) after := by
  induction cs generalizing before with
  | nil => rfl
  | cons c cs ih =>
    rw [List.cons_append, lowerFrom_cons, ih, lowerBetween, List.append_assoc, List.reverse_cons,
      List.append_assoc, List.singleton_append]

theorem lowerBetween_alone (before cs : List Char) :
    lowerBetween before cs [] = lowerFrom before cs := by
  have h := lowerFrom_append before cs []
  rw [List.append_nil, lowerFrom, List.append_nil] at h
  exact h.symm

/-- A relation holds at every capital sigma of a text, between whether it ends a word when the text
stands between two texts and whether it does when the text stands between two others. What precedes
the text is given nearest first. -/
def AtSigmas (R : Bool → Bool → Prop) (cs before after before' after' : List Char) : Prop :=
  ∀ u v, cs = u ++ 'Σ' :: v →
    R (endsWord (u.reverse ++ before) (v ++ after)) (endsWord (u.reverse ++ before') (v ++ after'))

variable {R : Bool → Bool → Prop} {c : Char} {cs before after before' after' : List Char}

theorem atSigmas_nil : AtSigmas R [] before after before' after' := by
  intro u v h
  simp at h

theorem atSigmas_cons :
    AtSigmas R (c :: cs) before after before' after' ↔
      (c = 'Σ' → R (endsWord before (cs ++ after)) (endsWord before' (cs ++ after'))) ∧
        AtSigmas R cs (c :: before) after (c :: before') after' := by
  constructor
  · intro h
    refine ⟨fun hc => h [] cs (by rw [hc, List.nil_append]), ?_⟩
    intro u v hsplit
    have hlonger := h (c :: u) v (by rw [hsplit, List.cons_append])
    rw [List.reverse_cons, List.append_assoc, List.append_assoc] at hlonger
    exact hlonger
  · rintro ⟨hfirst, hrest⟩ u v hsplit
    cases u with
    | nil =>
      obtain ⟨rfl, rfl⟩ := List.cons.inj hsplit
      exact hfirst rfl
    | cons d u =>
      obtain ⟨rfl, htail⟩ := List.cons.inj hsplit
      rw [List.reverse_cons, List.append_assoc, List.append_assoc]
      exact hrest u v htail

/-- Every capital sigma of a text ends a word between two texts just where it does between two
others. -/
def SameSigmas : (cs before after before' after' : List Char) → Prop := AtSigmas (· = ·)

/-- **A part in two places.** It is lower-cased in the same way just where its capital sigmas are. -/
theorem lowerBetween_eq_iff :
    lowerBetween before cs after = lowerBetween before' cs after' ↔
      SameSigmas cs before after before' after' := by
  induction cs generalizing before before' with
  | nil => exact ⟨fun _ => atSigmas_nil, fun _ => rfl⟩
  | cons c cs ih =>
    rw [SameSigmas, atSigmas_cons, ← SameSigmas, ← ih, ← lowered_eq_iff, lowerBetween, lowerBetween]
    constructor
    · intro h
      exact List.append_inj h (length_lowered _ _ _ _ _)
    · rintro ⟨hfirst, hrest⟩
      rw [hfirst, hrest]

/-! ## 3. What is looked through -/

/-- Whether a text has only characters that are looked through for the end of a word. -/
def lookedThrough (cs : List Char) : Bool := cs.all (covers caseIgnorableRanges)

theorem lookedThrough_reverse (cs : List Char) : lookedThrough cs.reverse = lookedThrough cs :=
  List.all_reverse

theorem meetsCased_of_lookedThrough {cs : List Char} (h : lookedThrough cs = true) :
    meetsCased cs = false := by
  have hnone : cs.dropWhile (covers caseIgnorableRanges) = [] :=
    List.dropWhile_eq_nil_iff.mpr (List.all_eq_true.mp h)
  rw [meetsCased, hnone]

/-- What follows is met only through characters that are looked through. -/
theorem meetsCased_append (cs ds : List Char) :
    meetsCased (cs ++ ds) = if lookedThrough cs then meetsCased ds else meetsCased cs := by
  induction cs with
  | nil => rfl
  | cons c cs ih =>
    by_cases hc : covers caseIgnorableRanges c = true
    · simp only [meetsCased, lookedThrough, List.cons_append, List.dropWhile_cons_of_pos hc,
        List.all_cons, hc, Bool.true_and] at ih ⊢
      exact ih
    · simp [meetsCased, lookedThrough, hc]

theorem meetsCased_letter : meetsCased ['a'] = true := by decide +kernel

theorem meetsCased_append_letter (cs : List Char) :
    meetsCased (cs ++ ['a']) = (lookedThrough cs || meetsCased cs) := by
  rw [meetsCased_append, meetsCased_letter]
  cases lookedThrough cs <;> simp

/-- Whether a text decides by itself how its capital sigmas are lower-cased. A cased character behind
one does, and so do characters on both sides that are not looked through. Without one behind, one in
front that is not cased does. -/
def Settled (cs : List Char) : Prop :=
  ∀ u v, cs = u ++ 'Σ' :: v →
    meetsCased v = true ∨
      lookedThrough u = false ∧ (meetsCased u.reverse = false ∨ lookedThrough v = false)

theorem settled_of_not_mem (h : 'Σ' ∉ cs) : Settled cs := by
  intro u v hsplit
  rw [hsplit] at h
  simp at h

/-- A settled text is lower-cased within another one as it is alone. -/
theorem sameSigmas_of_settled (h : Settled cs) (before after : List Char) :
    SameSigmas cs before after [] [] := by
  intro u v hsplit
  unfold endsWord
  rw [List.append_nil, List.append_nil, meetsCased_append, meetsCased_append, lookedThrough_reverse]
  rcases h u v hsplit with hcased | ⟨hu, hfirst | hv⟩
  · have hv : ¬ lookedThrough v = true := by
      intro hthrough
      rw [meetsCased_of_lookedThrough hthrough] at hcased
      cases hcased
    rw [if_neg hv, hcased, Bool.not_true, Bool.and_false, Bool.and_false]
  · rw [hu, if_neg Bool.false_ne_true, hfirst, Bool.false_and, Bool.false_and]
  · rw [hu, hv, if_neg Bool.false_ne_true, if_neg Bool.false_ne_true]

/-! ## 4. A letter in front or behind -/

theorem lowered_eq_or
    (h : c = 'Σ' → endsWord before after = true → endsWord before' after' = true) :
    lowered before c after = lowered before' c after' ∨
      lowered before c after = ['σ'] ∧ lowered before' c after' = ['ς'] := by
  by_cases hc : c = 'Σ'
  · subst hc
    have hends := h rfl
    rw [lowered_sigma, lowered_sigma]
    cases hfirst : endsWord before after with
    | true =>
      rw [hends hfirst]
      exact Or.inl rfl
    | false =>
      cases endsWord before' after' with
      | true => exact Or.inr ⟨rfl, rfl⟩
      | false => exact Or.inl rfl
  · exact Or.inl (lowered_congr hc _ _ _ _)

/-- Where the second place can only make more of the sigmas end a word, the part is the same in both,
or has fewer `σ` and more `ς` in the second one. -/
theorem lowerBetween_eq_or_count_lt
    (h : AtSigmas (fun ends ends' => ends = true → ends' = true) cs before after before' after') :
    lowerBetween before cs after = lowerBetween before' cs after' ∨
      (lowerBetween before' cs after').count 'σ' < (lowerBetween before cs after).count 'σ' ∧
      (lowerBetween before cs after).count 'ς' < (lowerBetween before' cs after').count 'ς' := by
  induction cs generalizing before before' with
  | nil => exact Or.inl rfl
  | cons c cs ih =>
    obtain ⟨hhere, hlater⟩ := atSigmas_cons.mp h
    have hcounts : ['σ'].count 'σ' = 1 ∧ ['ς'].count 'σ' = 0 ∧ ['σ'].count 'ς' = 0 ∧
        ['ς'].count 'ς' = 1 := by decide
    simp only [lowerBetween, List.count_append]
    rcases lowered_eq_or hhere with hfirst | ⟨hfirst, hfirst'⟩
    · rw [hfirst]
      rcases ih hlater with hrest | hrest
      · rw [hrest]
        exact Or.inl rfl
      · right
        omega
    · right
      rw [hfirst, hfirst']
      rcases ih hlater with hrest | hrest
      · rw [hrest]
        omega
      · omega

/-- If the text is found behind a letter, its sigmas do not depend on the letter. -/
theorem sameSigmas_of_infix_behind
    (h : lowerFrom [] cs <:+: lowerFrom [] ('a' :: cs)) : SameSigmas cs [] [] ['a'] [] := by
  have hcount := h.sublist.count_le 'σ'
  have hletter : lowerFrom [] ('a' :: cs) = 'a' :: lowerFrom ['a'] cs := rfl
  rw [hletter, List.count_cons_of_ne (by decide), ← lowerBetween_alone, ← lowerBetween_alone]
    at hcount
  rw [← lowerBetween_eq_iff]
  apply (lowerBetween_eq_or_count_lt ?_).resolve_right
  · omega
  · intro u v _ hends
    unfold endsWord at hends ⊢
    rw [List.append_nil, Bool.and_eq_true] at hends
    rw [meetsCased_append_letter, hends.1, hends.2, Bool.or_true, Bool.true_and]

/-- If the text is found in front of a letter, its sigmas do not depend on the letter. -/
theorem sameSigmas_of_infix_front
    (h : lowerFrom [] cs <:+: lowerFrom [] (cs ++ ['a'])) : SameSigmas cs [] ['a'] [] [] := by
  have hcount := h.sublist.count_le 'ς'
  have hletter : lowerFrom cs.reverse ['a'] = ['a'] := rfl
  have hnone : ['a'].count 'ς' = 0 := by decide
  rw [lowerFrom_append, List.append_nil, hletter, List.count_append, hnone, Nat.add_zero,
    ← lowerBetween_alone] at hcount
  rw [← lowerBetween_eq_iff]
  apply (lowerBetween_eq_or_count_lt ?_).resolve_right
  · omega
  · intro u v _ hends
    unfold endsWord at hends ⊢
    rw [meetsCased_append_letter, Bool.and_eq_true, Bool.not_eq_true', Bool.or_eq_false_iff]
      at hends
    rw [List.append_nil v, hends.1, hends.2.2, Bool.not_false, Bool.and_true]

/-- A text that is found behind a letter and in front of one is settled. -/
theorem settled_of_infix
    (hbehind : lowerFrom [] cs <:+: lowerFrom [] ('a' :: cs))
    (hfront : lowerFrom [] cs <:+: lowerFrom [] (cs ++ ['a'])) : Settled cs := by
  intro u v hsplit
  have hsame := sameSigmas_of_infix_behind hbehind u v hsplit
  have hsame' := sameSigmas_of_infix_front hfront u v hsplit
  unfold endsWord at hsame hsame'
  rw [List.append_nil, List.append_nil, meetsCased_append_letter, lookedThrough_reverse] at hsame
  rw [List.append_nil, List.append_nil, meetsCased_append_letter] at hsame'
  cases hu : lookedThrough u with
  | true =>
    have hnone : meetsCased u.reverse = false := by
      apply meetsCased_of_lookedThrough
      rw [lookedThrough_reverse, hu]
    rw [hnone, hu] at hsame
    exact Or.inl (by simpa using hsame)
  | false =>
    refine or_iff_not_imp_left.mpr fun hcased => ⟨rfl, ?_⟩
    rw [Bool.not_eq_true] at hcased
    rw [hcased, Bool.or_false, Bool.not_false, Bool.and_true] at hsame'
    cases hfirst : meetsCased u.reverse with
    | false => exact Or.inl rfl
    | true =>
      rw [hfirst, Bool.true_and] at hsame'
      exact Or.inr (by simpa using hsame')

/-! ## 5. A text in another one -/

/-- **A part is found** in lower case where its capital sigmas are the same as in the part alone. -/
theorem lowerFrom_infix
    (h : SameSigmas cs before.reverse after [] []) :
    lowerFrom [] cs <:+: lowerFrom [] (before ++ (cs ++ after)) := by
  have hpart : lowerBetween before.reverse cs after = lowerFrom [] cs := by
    rw [lowerBetween_eq_iff.mpr h, lowerBetween_alone]
  rw [lowerFrom_append, lowerFrom_append, List.append_nil, hpart]
  exact ⟨_, _, List.append_assoc _ _ _⟩

/-- **A text that is found wherever it stands**, in lower case, is one that settles its capital
sigmas. -/
theorem settled_iff :
    Settled cs ↔ ∀ before after, lowerFrom [] cs <:+: lowerFrom [] (before ++ (cs ++ after)) := by
  constructor
  · intro h before after
    exact lowerFrom_infix (sameSigmas_of_settled h _ _)
  · intro h
    have hbehind := h ['a'] []
    rw [List.append_nil] at hbehind
    exact settled_of_infix hbehind (h [] ['a'])

end PromptTags.Text
