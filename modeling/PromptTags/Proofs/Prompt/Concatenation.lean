/-
Two prompts with a comma between them.

A comma and a parenthesis end whatever is being read, a name as well as a weight, and so does the
end of the text. So text in front of one of them is scanned the same whether something stands behind
it or not (`step_append`), and the scan of a longer text is the scan of its first part and then that
of the second one, from the frames that the first part has left (`scan_append`).

What these frames are does not matter for the tags behind, as long as no group is open: then the
tags of the second text simply come last (`scan_of_closed`). How many groups a text leaves open is
counted character by character, without any reading (`openGroups`), because only parentheses open
and close groups, and none of them is ever part of a name or of a weight (`depth_after`).
-/
import PromptTags.Proofs.Prompt.ReaderScan

set_option autoImplicit false

namespace PromptTags.Prompt

open Text
open Decimal (NoDigitFirst)

/-! ## 1. Where reading breaks off -/

/-- Text that continues neither a name nor a weight: it is empty, or it starts with a comma or a
parenthesis. -/
def BreaksOff (cs : List Char) : Prop := ∀ c ∈ cs.head?, c = ',' ∨ c = '(' ∨ c = ')'

theorem breaksOff_cons {d : Char} (hd : d = ',' ∨ d = '(' ∨ d = ')') (cs : List Char) :
    BreaksOff (d :: cs) := by
  intro c hc
  obtain rfl := Option.some.inj hc
  exact hd

theorem breaksOff_comma (cs : List Char) : BreaksOff (',' :: cs) := breaksOff_cons (Or.inl rfl) cs

variable {v : List Char}

theorem delimiterFirst_of_breaksOff (hv : BreaksOff v) : DelimiterFirst v := by
  intro c hc
  rcases hv c hc with rfl | rfl | rfl <;> rfl

/-- No weight starts or goes on there. -/
theorem BreaksOff.head (hv : BreaksOff v) :
    NoDigitFirst v ∧ v.head? ≠ some '.' ∧ (skipBlanks v).head? ≠ some ':' := by
  cases v with
  | nil => exact ⟨fun c hc => absurd hc (by simp), by simp, by simp [skipBlanks]⟩
  | cons c r =>
    have hblank : isBlank c = false :=
      not_blank_of_isDelimiter (delimiterFirst_of_breaksOff hv c rfl)
    refine ⟨?_, ?_, ?_⟩
    · intro d hd
      obtain rfl := Option.some.inj hd
      rcases hv c rfl with rfl | rfl | rfl <;> decide
    · rcases hv c rfl with rfl | rfl | rfl <;> simp
    · rw [skipBlanks_cons_of_not_blank hblank]
      rcases hv c rfl with rfl | rfl | rfl <;> simp

/-! ## 2. One step, with more text behind -/

/-- A weight ends where neither a digit nor a point follows. -/
theorem numberText_append_of_head (hdigit : NoDigitFirst v) (hdot : v.head? ≠ some '.')
    (cs : List Char) : numberText (cs ++ v) = numberText cs := by
  rcases number_cases cs with
    ⟨whole, r, hwhole, hr, hpoint, rfl⟩ | ⟨whole, fraction, r, hwhole, hfraction, hr, rfl⟩
  · rw [List.append_assoc, numberText_whole hwhole hr hpoint]
    apply numberText_whole hwhole
    · cases r with
      | nil => exact hdigit
      | cons c r => exact hr
    · cases r with
      | nil => exact hdot
      | cons c r => exact hpoint
  · rw [List.append_assoc, List.cons_append, List.append_assoc,
      numberText_fraction hwhole hfraction hr]
    apply numberText_fraction hwhole hfraction
    cases r with
    | nil => exact hdigit
    | cons c r => exact hr

theorem numberText_append (hv : BreaksOff v) (cs : List Char) :
    numberText (cs ++ v) = numberText cs :=
  numberText_append_of_head hv.head.1 hv.head.2.1 cs

theorem drop_numberText_append (hv : BreaksOff v) (cs : List Char) :
    (cs ++ v).drop (numberText (cs ++ v)).length = cs.drop (numberText cs).length ++ v := by
  rw [numberText_append hv, List.drop_append_of_le_length (numberText_spec cs).1.length_le]

theorem suffix_append (hv : BreaksOff v) (cs : List Char) :
    suffix (cs ++ v) = ((suffix cs).1, (suffix cs).2 ++ v) := by
  obtain ⟨w, hw, hcs⟩ := exists_blanks cs
  have hskip : skipBlanks (cs ++ v) = skipBlanks (skipBlanks cs ++ v) := by
    nth_rewrite 1 [hcs]
    rw [List.append_assoc, skipBlanks_append hw]
  cases hs : skipBlanks cs with
  | nil =>
    have hno : (skipBlanks (cs ++ v)).head? ≠ some ':' := by
      rw [hskip, hs]
      exact hv.head.2.2
    rw [suffix_of_no_colon hno, suffix_of_no_colon (by simp [hs])]
  | cons c r =>
    have hc : skipBlanks (cs ++ v) = c :: (r ++ v) := by
      rw [hskip, hs, List.cons_append,
        skipBlanks_cons_of_not_blank (not_isBlank_of_skipBlanks_eq_cons hs)]
    by_cases hcolon : c = ':'
    · subst hcolon
      rw [suffix_of_colon hc, suffix_of_colon hs, drop_numberText_append hv, numberText_append hv]
    · have hno : ∀ {t u : List Char}, skipBlanks t = c :: u → (skipBlanks t).head? ≠ some ':' := by
        intro t u h
        simpa [h] using hcolon
      rw [suffix_of_no_colon (hno hc), suffix_of_no_colon (hno hs)]

/-- The text of a tag ends at the same place. -/
theorem cut_append (hv : BreaksOff v) (cs : List Char) :
    (cs ++ v).takeWhile (!isDelimiter ·) = cs.takeWhile (!isDelimiter ·) ∧
      (cs ++ v).dropWhile (!isDelimiter ·) = cs.dropWhile (!isDelimiter ·) ++ v := by
  obtain ⟨text, after, htext, hafter, rfl⟩ := exists_text_delimiter cs
  have hend : DelimiterFirst (after ++ v) := by
    cases after with
    | nil => exact delimiterFirst_of_breaksOff hv
    | cons c r => exact hafter
  rw [List.append_assoc, takeWhile_text_append htext, takeWhile_text_append htext,
    dropWhile_text_append htext, dropWhile_text_append htext,
    takeWhile_eq_nil_of_delimiterFirst hend, takeWhile_eq_nil_of_delimiterFirst hafter,
    dropWhile_eq_self_of_delimiterFirst hend, dropWhile_eq_self_of_delimiterFirst hafter]
  exact ⟨rfl, rfl⟩

/-- **A step does not see what stands behind a comma or a parenthesis.** -/
theorem step_append (hv : BreaksOff v) (f : Frames) (c : Char) (cs : List Char) :
    step f c (cs ++ v) = ((step f c cs).1, (step f c cs).2 ++ v) := by
  obtain ⟨htake, hrest⟩ := cut_append hv cs
  unfold step
  rw [suffix_append hv cs, drop_numberText_append hv, htake, hrest, suffix_append hv]
  split_ifs <;> rfl

/-! ## 3. A text behind another one -/

/-- The frames that a text leaves behind. -/
def after (f : Frames) : List Char → Frames
  | [] => f
  | c :: cs => after (step f c cs).1 (step f c cs).2
termination_by cs => cs.length
decreasing_by exact Nat.lt_succ_of_le (step_length_le f c cs)

theorem after_nil (f : Frames) : after f [] = f := by
  rw [after]

theorem scan_eq_tags_after (f : Frames) (cs : List Char) : scan f cs = (after f cs).tags := by
  induction f, cs using scan.induct with
  | case1 f => rw [scan_nil, after_nil]
  | case2 f c cs ih => rw [scan, after, ih]

/-- **A text is scanned part by part**, if reading breaks off between the parts. -/
theorem scan_append (hv : BreaksOff v) (f : Frames) (cs : List Char) :
    scan f (cs ++ v) = scan (after f cs) v := by
  induction f, cs using scan.induct with
  | case1 f => rw [List.nil_append, after_nil]
  | case2 f c cs ih => rw [List.cons_append, scan, step_append hv, ih, after]

/-- Where no group is open, the tags of what follows come last. -/
theorem scan_of_closed {f : Frames} (hf : f.depth = 0) (cs : List Char) :
    scan f cs = f.tags ++ scan {} cs := by
  obtain ⟨us, hus, hscan⟩ := readTokens_agrees f hf cs
  obtain ⟨vs, hvs, hscan'⟩ := readTokens_agrees {} rfl cs
  -- The reader does not know about the frames, so it has read the same tags for both.
  have hsame : us = vs := by
    have hinjective : Function.Injective Tag.token := by
      rintro ⟨n, w⟩ ⟨n', w'⟩ h
      simpa [Tag.token] using h
    exact List.map_injective_iff.mpr hinjective (hus.symm.trans hvs)
  rw [hscan, hscan', scan_nil, scan_nil, Frames.tags_add, Frames.tags_add, hsame]
  rfl

/-! ## 4. Counting open groups -/

/-- How many groups are open after one character more. -/
def countOpen (d : Nat) (c : Char) : Nat :=
  if c = '(' ∧ d < maxDepth then d + 1
  else if c = ')' ∧ 0 < d then d - 1
  else d

/-- How many groups a text leaves open. -/
def openGroups (cs : List Char) : Nat := cs.foldl countOpen 0

theorem countOpen_of_ne {c : Char} (hopen : c ≠ '(') (hclose : c ≠ ')') (d : Nat) :
    countOpen d c = d := by
  simp [countOpen, hopen, hclose]

/-- Only parentheses count. -/
theorem foldl_countOpen_of_noDelimiter {cs : List Char} (h : NoDelimiter cs) (d : Nat) :
    cs.foldl countOpen d = d := by
  induction cs with
  | nil => rfl
  | cons c cs ih =>
    have hc := h c List.mem_cons_self
    have hopen : c ≠ '(' := by
      rintro rfl
      exact absurd hc (by decide)
    have hclose : c ≠ ')' := by
      rintro rfl
      exact absurd hc (by decide)
    rw [List.foldl_cons, countOpen_of_ne hopen hclose]
    exact ih fun a ha => h a (List.mem_cons_of_mem c ha)

theorem foldl_countOpen_suffix (cs : List Char) (d : Nat) :
    (suffix cs).2.foldl countOpen d = cs.foldl countOpen d := by
  rcases suffix_cases cs with h | ⟨w, number, hw, hnumber, h⟩
  · rw [h]
  · nth_rewrite 2 [h]
    rw [List.foldl_append, foldl_countOpen_of_noDelimiter (noDelimiter_of_allBlank hw),
      List.foldl_cons, countOpen_of_ne (by decide) (by decide), List.foldl_append,
      foldl_countOpen_of_noDelimiter hnumber]

theorem depth_opened (f : Frames) : f.opened.depth = countOpen f.depth '(' := by
  by_cases h : f.depth < maxDepth
  · rw [Frames.depth_opened_of_lt h]
    simp [countOpen, h]
  · unfold Frames.opened
    rw [if_neg h]
    simp [countOpen, h]

theorem depth_closed (weight? : Option Float) (f : Frames) :
    (f.closed weight?).depth = countOpen f.depth ')' := by
  obtain ⟨top, below⟩ := f
  cases below with
  | nil => rfl
  | cons outer below => simp [Frames.closed, Frames.depth, countOpen]

/-- A step opens and closes groups as its characters are counted. -/
theorem foldl_countOpen_step (f : Frames) (c : Char) (cs : List Char) :
    (step f c cs).2.foldl countOpen (step f c cs).1.depth = (c :: cs).foldl countOpen f.depth := by
  rw [List.foldl_cons]
  unfold step
  split_ifs with hskip hopen hclose hdepth hcolon
  · have hne : c ≠ '(' ∧ c ≠ ')' := by
      constructor <;> rintro rfl <;> exact absurd hskip (by decide)
    rw [countOpen_of_ne hne.1 hne.2]
  · rw [depth_opened, hopen]
  · simp [countOpen, hclose, hdepth]
  · rw [depth_closed, foldl_countOpen_suffix, hclose]
  · rw [countOpen_of_ne hopen hclose]
    conv_rhs =>
      rw [← numberText_append_drop cs, List.foldl_append,
        foldl_countOpen_of_noDelimiter (noDelimiter_numberText cs)]
  · have htext : NoDelimiter (cs.takeWhile (!isDelimiter ·)) := by
      intro a ha
      simpa using List.mem_takeWhile_imp ha
    rw [countOpen_of_ne hopen hclose, Frames.depth_add, foldl_countOpen_suffix]
    nth_rewrite 2 [← List.takeWhile_append_dropWhile (p := (!isDelimiter ·)) (l := cs)]
    rw [List.foldl_append, foldl_countOpen_of_noDelimiter htext]

/-- **The scan opens and closes groups as the characters are counted.** -/
theorem depth_after (f : Frames) (cs : List Char) :
    (after f cs).depth = cs.foldl countOpen f.depth := by
  induction f, cs using scan.induct with
  | case1 f => rw [after_nil, List.foldl_nil]
  | case2 f c cs ih => rw [after, ih, foldl_countOpen_step]

/-- **Joining prompts.** A text that leaves no group open, whatever else is wrong with it, can be
put in front of any text with a comma between the two: its tags come first, and then those of the
other text, with the same weights. -/
theorem parse_append_comma {s : String} (h : openGroups s.toList = 0) (t : String) :
    parse (s ++ "," ++ t) = parse s ++ parse t := by
  have hdepth : (after {} s.toList).depth = 0 := (depth_after {} s.toList).trans h
  have htext : (s ++ "," ++ t).toList = s.toList ++ ',' :: t.toList := by
    rw [String.toList_append, String.toList_append, List.append_assoc]
    rfl
  rw [parse_eq_scanText, parse_eq_scanText, parse_eq_scanText, scanText, scanText, scanText, htext,
    scan_append (breaksOff_comma _), scan_comma, scan_of_closed hdepth, ← scan_eq_tags_after]

/-- A stray parenthesis and an unfinished weight in front, and a weight without a tag behind. -/
theorem parse_append_comma_malformed :
    openGroups "(a, (b):2):.5) c:1.".toList = 0 ∧
      parse ("(a, (b):2):.5) c:1." ++ "," ++ ":3 (d") =
        parse "(a, (b):2):.5) c:1." ++ parse ":3 (d" :=
  ⟨by decide, parse_append_comma (by decide) ":3 (d"⟩

/-- A group that is left open takes in what follows, and its weight. -/
example : (parse ("(a" ++ "," ++ "b):2")).map Tag.weight = [2.0, 2.0] ∧
    (parse "(a" ++ parse "b):2").map Tag.weight = [1.0, 1.0] := by decide +kernel

end PromptTags.Prompt
