/-
Text that is written in TOML and read again.

All four forms are written alike: each character stands for itself or behind a backslash, and no run
of quotes in between is as long as the one that closes the text. `Stands` says which bodies stand
for which texts in this way, and counts the quotes since the last other character. Both readers give
the text back that the body stands for (`readLine_of_stands`, `readLines_of_stands`), each by
induction on the body, and both writers write bodies that stand for the text. So what `textChars`
writes is read as the text (`readText_textChars`).
-/
import Mathlib.Tactic.IntervalCases
import Mathlib.Tactic.SplitIfs
import PromptTags.Proofs.Text.Cutting
import PromptTags.Toml.Scalar
import PromptTags.Toml.Writer

set_option autoImplicit false

namespace PromptTags.Toml

/-! ## 1. Bodies of quoted texts -/

/-- What stands behind a backslash for a character. It starts with no layout, which would be skipped
there. -/
structure Escapes (e : List Char) (c : Char) : Prop where
  read : ∀ r, readEscape (e ++ r) = some (c, r)
  noBreak : ∀ r, skipBreak? (e ++ r) = none

/-- A body between quotes, and the text that it stands for. Of the quotes in it, no more than `free`
are in a row; `run` counts those in front of the body. -/
inductive Stands (quote : Char) (escapes lines : Bool) (free : Nat) :
    (run : Nat) → (body text : List Char) → Prop where
  | nil (run : Nat) : Stands quote escapes lines free run [] []
  | quote {run : Nat} {body text : List Char} (hrun : run < free)
      (h : Stands quote escapes lines free (run + 1) body text) :
      Stands quote escapes lines free run (quote :: body) (quote :: text)
  | plain {run : Nat} {c : Char} {body text : List Char} (hquote : c ≠ quote)
      (hescape : escapes = true → c ≠ '\\') (hplain : isPlain c = true)
      (h : Stands quote escapes lines free 0 body text) :
      Stands quote escapes lines free run (c :: body) (c :: text)
  | newLine {run : Nat} {body text : List Char} (hlines : lines = true)
      (h : Stands quote escapes lines free 0 body text) :
      Stands quote escapes lines free run ('\n' :: body) ('\n' :: text)
  | escape {run : Nat} {e : List Char} {c : Char} {body text : List Char}
      (hescapes : escapes = true) (he : Escapes e c)
      (h : Stands quote escapes lines free 0 body text) :
      Stands quote escapes lines free run ('\\' :: (e ++ body)) (c :: text)

variable {quote : Char} {escapes lines : Bool} {free run fuel : Nat} {body text rest : List Char}

/-! ## 2. Reading a body -/

theorem escape_eq_false {c : Char} (h : escapes = true → c ≠ '\\') :
    (escapes && c == '\\') = false := by
  cases hescapes : escapes with
  | false => rfl
  | true => simpa using h hescapes

theorem readLine_quote (h : 0 < fuel) : readLine quote escapes fuel (quote :: rest) =
    some ([], rest) := by
  obtain ⟨fuel, rfl⟩ := Nat.exists_eq_succ_of_ne_zero h.ne'
  simp [readLine]

/-- **A body on one line is read as its text.** -/
theorem readLine_of_stands (hquote : quote ≠ '\\') (h : Stands quote escapes false 0 run body text)
    (hfuel : body.length < fuel) :
    readLine quote escapes fuel (body ++ quote :: rest) = some (text, rest) := by
  induction h generalizing fuel with
  | nil run => exact readLine_quote hfuel
  | quote hrun => exact absurd hrun (Nat.not_lt_zero _)
  | newLine hlines => exact absurd hlines Bool.false_ne_true
  | @plain run c body text hne hescape hplain _ ih =>
    obtain ⟨fuel, rfl⟩ := Nat.exists_eq_succ_of_ne_zero (Nat.ne_zero_of_lt hfuel)
    rw [List.cons_append, readLine, if_neg (by simpa using hne), if_neg (by simp [escape_eq_false hescape]),
      if_pos hplain, ih (Nat.lt_of_succ_lt_succ hfuel)]
    rfl
  | @escape run e c body text hescapes he _ ih =>
    obtain ⟨fuel, rfl⟩ := Nat.exists_eq_succ_of_ne_zero (Nat.ne_zero_of_lt hfuel)
    have hlen : body.length < fuel := by
      simp only [List.length_cons, List.length_append] at hfuel
      omega
    rw [List.cons_append, List.append_assoc, readLine, if_neg (by simpa using hquote.symm),
      if_pos (by simp [hescapes]), he.read]
    show (readLine quote escapes fuel (body ++ quote :: rest)).map _ = _
    rw [ih hlen]
    rfl

/-- A run of quotes ends at the first other character. -/
theorem readLines_replicate (hrun : 0 < run) (hrest : rest.head? ≠ some quote) :
    readLines quote escapes (fuel + 1) (List.replicate run quote ++ rest) =
      if run < 3 then
        (readLines quote escapes fuel rest).map fun (cs, r) => (List.replicate run quote ++ cs, r)
      else if run ≤ 5 then some (List.replicate (run - 3) quote, rest)
      else none := by
  obtain ⟨k, rfl⟩ := Nat.exists_eq_succ_of_ne_zero hrun.ne'
  have hquotes : ∀ c ∈ List.replicate k quote, (c == quote) = true := fun c hc =>
    beq_iff_eq.mpr (List.eq_of_mem_replicate hc)
  have hbehind : ∀ c ∈ rest.head?, (c == quote) = false := by
    rintro c hc
    exact beq_eq_false_iff_ne.mpr fun heq => hrest (heq ▸ hc)
  rw [List.replicate_succ, List.cons_append, readLines, if_pos (beq_self_eq_true quote),
    Text.takeWhile_run hquotes hbehind, Text.dropWhile_run hquotes hbehind, List.length_replicate]
  rfl

/-- One or two quotes in front of something else are text. -/
theorem readLines_behind_run {start : List Char} (hrun : run ≤ 2)
    (hstart : start.head? ≠ some quote)
    (h : ∀ fuel, body.length < fuel → readLines quote escapes fuel start = some (text, rest))
    (hfuel : run + body.length < fuel) :
    readLines quote escapes fuel (List.replicate run quote ++ start) =
      some (List.replicate run quote ++ text, rest) := by
  rcases Nat.eq_zero_or_pos run with rfl | hpos
  · exact h fuel (by omega)
  · obtain ⟨fuel, rfl⟩ := Nat.exists_eq_succ_of_ne_zero (Nat.ne_zero_of_lt hfuel)
    rw [Nat.succ_eq_add_one, readLines_replicate hpos hstart, if_pos (by omega), h fuel (by omega)]
    rfl

theorem newLine?_of_isPlain {c : Char} (h : isPlain c = true) (cs : List Char) :
    newLine? (c :: cs) = none := by
  have hline : c ≠ '\n' := by
    rintro rfl
    exact absurd h (by decide)
  have hreturn : c ≠ '\r' := by
    rintro rfl
    exact absurd h (by decide)
  unfold newLine?
  split
  · next heq => exact absurd (List.cons.inj heq).1 hline
  · next heq => exact absurd (List.cons.inj heq).1 hreturn
  · rfl

/-- **A body of several lines is read as its text.** -/
theorem readLines_of_stands (hslash : quote ≠ '\\') (hline : quote ≠ '\n') (hrun : run ≤ 2)
    (h : Stands quote escapes lines 2 run body text) (hrest : rest.head? ≠ some quote)
    (hfuel : run + body.length < fuel) :
    readLines quote escapes fuel
        (List.replicate run quote ++ (body ++ (quote :: quote :: quote :: rest))) =
      some (List.replicate run quote ++ text, rest) := by
  induction h generalizing fuel with
  | nil run =>
    -- The quotes in front of the closing ones are in one run with them.
    obtain ⟨fuel, rfl⟩ := Nat.exists_eq_succ_of_ne_zero (Nat.ne_zero_of_lt hfuel)
    have hall : List.replicate run quote ++ ([] ++ quote :: quote :: quote :: rest) =
        List.replicate (run + 3) quote ++ rest := by
      rw [← List.replicate_append_replicate, List.append_assoc]
      rfl
    rw [hall, Nat.succ_eq_add_one, readLines_replicate (by omega) hrest, if_neg (by omega),
      if_pos (by omega), Nat.add_sub_cancel, List.append_nil]
  | @quote run body text hlt _ ih =>
    have hmove : ∀ cs, List.replicate run quote ++ quote :: cs =
        List.replicate (run + 1) quote ++ cs := by
      intro cs
      rw [List.replicate_succ', List.append_assoc]
      rfl
    rw [List.cons_append, hmove, hmove]
    exact ih (by omega) (by rw [List.length_cons] at hfuel; omega)
  | @plain run c body text hne hescape hplain _ ih =>
    refine readLines_behind_run hrun (by simpa using hne) (fun fuel hfuel => ?_) hfuel
    obtain ⟨fuel, rfl⟩ := Nat.exists_eq_succ_of_ne_zero (Nat.ne_zero_of_lt hfuel)
    have hbody := @ih fuel (Nat.zero_le _) (by rw [List.length_cons] at hfuel; omega)
    rw [List.cons_append, readLines, if_neg (by simpa using hne), if_neg (by simp [escape_eq_false hescape]),
      newLine?_of_isPlain hplain]
    simp only [hplain, if_true]
    rw [List.replicate_zero, List.nil_append] at hbody
    rw [hbody]
    rfl
  | @newLine run body text hlines _ ih =>
    refine readLines_behind_run hrun (by simpa using hline.symm) (fun fuel hfuel => ?_) hfuel
    obtain ⟨fuel, rfl⟩ := Nat.exists_eq_succ_of_ne_zero (Nat.ne_zero_of_lt hfuel)
    have hbody := @ih fuel (Nat.zero_le _) (by rw [List.length_cons] at hfuel; omega)
    rw [List.replicate_zero, List.nil_append] at hbody
    rw [List.cons_append, readLines, if_neg (by simpa using hline.symm), if_neg (by simp)]
    show (readLines quote escapes fuel (body ++ quote :: quote :: quote :: rest)).map _ = _
    rw [hbody]
    rfl
  | @escape run e c body text hescapes he _ ih =>
    refine readLines_behind_run hrun (by simpa using hslash.symm) (fun fuel hfuel => ?_) hfuel
    obtain ⟨fuel, rfl⟩ := Nat.exists_eq_succ_of_ne_zero (Nat.ne_zero_of_lt hfuel)
    have hbody := @ih fuel (Nat.zero_le _)
      (by simp only [List.length_cons, List.length_append] at hfuel; omega)
    rw [List.replicate_zero, List.nil_append] at hbody
    rw [List.cons_append, List.append_assoc, readLines, if_neg (by simpa using hslash.symm),
      if_pos (by simp [hescapes]), he.noBreak, he.read]
    show (readLines quote escapes fuel (body ++ quote :: quote :: quote :: rest)).map _ = _
    rw [hbody]
    rfl

/-! ## 3. Writing a body -/

/-- A letter behind a backslash that stands for a character. -/
theorem escapes_letter {e c : Char}
    (h : (e, c) ∈ [('b', '\x08'), ('t', '\t'), ('n', '\n'), ('f', '\x0c'), ('r', '\r'), ('"', '"'),
      ('\\', '\\')]) : Escapes [e] c := by
  simp only [List.mem_cons, Prod.mk.injEq, List.not_mem_nil, or_false] at h
  obtain ⟨rfl, rfl⟩ | ⟨rfl, rfl⟩ | ⟨rfl, rfl⟩ | ⟨rfl, rfl⟩ | ⟨rfl, rfl⟩ | ⟨rfl, rfl⟩ | ⟨rfl, rfl⟩ := h <;>
    exact ⟨fun _ => rfl, fun _ => rfl⟩

/-- The digits by which a control character is written. -/
def numberDigits (n : Nat) : List Char := ((Nat.toDigits 16 n).map Char.toUpper).leftpad 4 '0'

theorem numberDigits_spec : ∀ n < 128,
    (numberDigits n).length = 4 ∧ Text.numberIn? 16 (numberDigits n) = some n := by
  decide +kernel

theorem toNat_lt_of_needsEscape {c : Char} (h : needsEscape c = true) : c.toNat < 128 := by
  simp only [needsEscape, Bool.or_eq_true, Bool.and_eq_true, decide_eq_true_eq, beq_iff_eq] at h
  rcases h with ⟨⟨hlt, -⟩, -⟩ | rfl
  · have hval : c.toNat < 32 := UInt32.lt_iff_toNat_lt.mp hlt
    omega
  · decide

theorem escapes_number {c : Char} (h : needsEscape c = true) :
    Escapes ('u' :: numberDigits c.toNat) c := by
  have hlt := toNat_lt_of_needsEscape h
  obtain ⟨hlength, hnumber⟩ := numberDigits_spec c.toNat hlt
  refine ⟨fun r => ?_, fun _ => rfl⟩
  have hchar : Text.charOfNumber? c.toNat = some c := by
    rw [Text.charOfNumber?, if_pos (Or.inl (by omega)), Char.ofNat_toNat]
  have htake : (numberDigits c.toNat ++ r).take 4 = numberDigits c.toNat := by
    rw [← hlength, List.take_left]
  have hdrop : (numberDigits c.toNat ++ r).drop 4 = r := by
    rw [← hlength, List.drop_left]
  show readNumbered 4 (numberDigits c.toNat ++ r) = some (c, r)
  rw [readNumbered, if_neg (by rw [List.length_append]; omega), htake, hdrop, hnumber,
    Option.bind_some, hchar]
  rfl

theorem isPlain_of_not_needsEscape {c : Char} (h : ¬ needsEscape c = true) (hline : c ≠ '\n') :
    isPlain c = true := by
  simp only [needsEscape, Bool.or_eq_true, Bool.and_eq_true, decide_eq_true_eq, bne_iff_ne,
    beq_iff_eq, not_or, not_and] at h
  by_cases htab : c = '\t'
  · rw [htab]
    rfl
  · have hge : ' ' ≤ c := by
      by_contra hlt
      exact h.1 ⟨Char.not_le.mp hlt, htab⟩ hline
    simp [isPlain, hge, h.2]

/-- A character other than a double quote, as it is written between double quotes. -/
theorem stands_escapeChar {c : Char} (hquote : c ≠ '"')
    (h : Stands '"' true lines free 0 body text) :
    Stands '"' true lines free run (escapeChar lines c ++ body) (c :: text) := by
  have hletter : ∀ {e : Char}, (e, c) ∈ [('b', '\x08'), ('t', '\t'), ('n', '\n'), ('f', '\x0c'),
      ('r', '\r'), ('"', '"'), ('\\', '\\')] →
      Stands '"' true lines free run (['\\', e] ++ body) (c :: text) := fun he =>
    .escape rfl (escapes_letter he) h
  rw [escapeChar]
  split_ifs with hb ht hn hlines hf hr hslash hcontrol
  · exact hletter (by simp [hb])
  · exact hletter (by simp [ht])
  · rw [hn]
    exact .newLine hlines h
  · exact hletter (by simp [hn])
  · exact hletter (by simp [hf])
  · exact hletter (by simp [hr])
  · exact hletter (by simp [hslash])
  · exact .escape rfl (escapes_number hcontrol) h
  · exact .plain hquote (fun _ => hslash) (isPlain_of_not_needsEscape hcontrol hn) h

theorem stands_escapeText (lines : Bool) (free run : Nat) (cs : List Char) :
    Stands '"' true lines free run (escapeText lines free run cs) cs := by
  induction cs generalizing run with
  | nil => exact .nil run
  | cons c cs ih =>
    rw [escapeText]
    split_ifs with hquote hrun
    · rw [hquote]
      exact .quote hrun (ih _)
    · rw [hquote]
      exact .escape rfl (escapes_letter (by simp)) (ih _)
    · exact stands_escapeChar hquote (ih _)

/-- One more character in the count of the longest run, and of the run at the end. -/
def countRun (mark : Char) (counts : Nat × Nat) (c : Char) : Nat × Nat :=
  if c == mark then (max counts.1 (counts.2 + 1), counts.2 + 1) else (counts.1, 0)

theorem longestRun_eq (mark : Char) (cs : List Char) :
    longestRun mark cs = (cs.foldl (countRun mark) (0, 0)).1 := rfl

theorem le_foldl_countRun (mark : Char) (cs : List Char) (counts : Nat × Nat) :
    counts.1 ≤ (cs.foldl (countRun mark) counts).1 := by
  induction cs generalizing counts with
  | nil => exact Nat.le_refl _
  | cons c cs ih =>
    refine Nat.le_trans ?_ (ih _)
    rw [countRun]
    split_ifs
    · exact Nat.le_max_left _ _
    · exact Nat.le_refl _

theorem longestRun_of_not_mem {mark : Char} {cs : List Char} (h : mark ∉ cs) :
    longestRun mark cs = 0 := by
  rw [longestRun_eq]
  induction cs with
  | nil => rfl
  | cons c cs ih =>
    rw [List.mem_cons, not_or] at h
    rw [List.foldl_cons, countRun, if_neg (by simpa using Ne.symm h.1)]
    exact ih h.2

/-- A text that stands for itself: it needs no escapes, and its quotes are in short runs. -/
theorem stands_self (hquote : quote ≠ '\n') {cs : List Char}
    (hcontrol : ∀ c ∈ cs, ¬ needsEscape c = true) (hlines : lines = true ∨ '\n' ∉ cs)
    {longest : Nat} (hruns : (cs.foldl (countRun quote) (longest, run)).1 ≤ free) :
    Stands quote false lines free run cs cs := by
  induction cs generalizing run longest with
  | nil => exact .nil run
  | cons c cs ih =>
    obtain ⟨hc, hcs⟩ := List.forall_mem_cons.mp hcontrol
    have hrest : lines = true ∨ '\n' ∉ cs := hlines.imp_right fun h hmem =>
      h (List.mem_cons_of_mem c hmem)
    rw [List.foldl_cons, countRun] at hruns
    by_cases hmark : c = quote
    · subst hmark
      rw [if_pos (beq_self_eq_true c)] at hruns
      have hle := Nat.le_trans (le_foldl_countRun c cs _) hruns
      exact .quote (Nat.le_trans (Nat.le_max_right _ _) hle) (ih hcs hrest hruns)
    · rw [if_neg (by simpa using hmark)] at hruns
      by_cases hline : c = '\n'
      · subst hline
        exact .newLine (hlines.resolve_right fun h => h List.mem_cons_self) (ih hcs hrest hruns)
      · exact .plain hmark (fun h => absurd h Bool.false_ne_true)
          (isPlain_of_not_needsEscape hc hline) (ih hcs hrest hruns)

/-! ## 4. The four forms -/

/-- What a text has to be like for a form without escapes. -/
def TextForm.Suits (cs : List Char) : TextForm → Prop
  | basic => True
  | literal => (∀ c ∈ cs, ¬ needsEscape c = true) ∧ '\'' ∉ cs ∧ '\n' ∉ cs
  | basicLines => True
  | literalLines => (∀ c ∈ cs, ¬ needsEscape c = true) ∧ longestRun '\'' cs ≤ 2

theorem TextForm.suits_of (cs : List Char) : (TextForm.of cs).Suits cs := by
  unfold TextForm.of
  extract_lets control backslash lines
  have hcontrol : (!control) = true → ∀ c ∈ cs, ¬ needsEscape c = true := by
    intro h
    simpa [control] using h
  split_ifs with hbasic hliteral hbasicLines hliteralLines hlines
  · trivial
  · simp only [Bool.and_eq_true] at hliteral
    refine ⟨hcontrol hliteral.1.1, by simpa using hliteral.1.2, by simpa [lines] using hliteral.2⟩
  · trivial
  · simp only [Bool.and_eq_true, decide_eq_true_eq] at hliteralLines
    exact ⟨hcontrol hliteralLines.1, hliteralLines.2⟩
  · trivial
  · trivial

/-- A text without quotes in it does not start with one. -/
theorem head?_of_stands (hslash : quote ≠ '\\') (hline : quote ≠ '\n')
    (h : Stands quote escapes lines 0 run body text) : body.head? ≠ some quote := by
  cases h with
  | nil => simp
  | quote hrun => exact absurd hrun (Nat.not_lt_zero _)
  | plain hne => simpa using hne
  | newLine => simpa using hline.symm
  | escape => simpa using hslash.symm

/-- A text without line breaks does not start with one, quotes and all. -/
theorem newLine?_of_stands (hquote : isPlain quote = true) (htext : '\n' ∉ text)
    (h : Stands quote escapes lines free run body text) (cs : List Char) :
    newLine? (body ++ quote :: cs) = none := by
  cases h with
  | nil => exact newLine?_of_isPlain hquote cs
  | quote => exact newLine?_of_isPlain hquote _
  | plain _ _ hplain => exact newLine?_of_isPlain hplain _
  | newLine => exact absurd List.mem_cons_self htext
  | escape => exact newLine?_of_isPlain (by decide) _

/-- A quote that is not the first of three opens text on one line. -/
theorem readText_one (hquote : quote = '"' ∨ quote = '\'') {r : List Char}
    (h : ∀ cs, r ≠ quote :: quote :: cs) :
    readText (quote :: r) = readLine quote (quote == '"') (r.length + 1) r := by
  rcases hquote with rfl | rfl
  · unfold readText
    split
    · next heq => exact absurd (List.cons.inj heq).2 (h _)
    · next heq => cases heq
    · next heq =>
      rw [(List.cons.inj heq).2]
      rfl
    · next heq => cases heq
    · next hno _ => exact absurd rfl (hno r)
  · unfold readText
    split
    · next heq => cases heq
    · next heq => exact absurd (List.cons.inj heq).2 (h _)
    · next heq => cases heq
    · next heq =>
      rw [(List.cons.inj heq).2]
      rfl
    · next hno => exact absurd rfl (hno r)

/-- Three quotes open text of several lines. -/
theorem readText_three (hquote : quote = '"' ∨ quote = '\'') (r : List Char) :
    readText (quote :: quote :: quote :: r) =
      readLines quote (quote == '"') (r.length + 1) ((newLine? r).getD r) := by
  rcases hquote with rfl | rfl <;> rfl

/-- Text between single marks. -/
theorem readText_of_stands_one (hquote : quote = '"' ∨ quote = '\'')
    (h : Stands quote (quote == '"') false 0 0 body text) (hrest : rest.head? ≠ some quote) :
    readText (quote :: (body ++ quote :: rest)) = some (text, rest) := by
  have hslash : quote ≠ '\\' := by rcases hquote with rfl | rfl <;> decide
  have hline : quote ≠ '\n' := by rcases hquote with rfl | rfl <;> decide
  have hopens : ∀ cs, body ++ quote :: rest ≠ quote :: quote :: cs := by
    intro cs heq
    have hhead := head?_of_stands hslash hline h
    cases body with
    | nil => exact hrest (by rw [(List.cons.inj heq).2]; rfl)
    | cons c body => exact hhead (by rw [(List.cons.inj heq).1]; rfl)
  rw [readText_one hquote hopens]
  exact readLine_of_stands hslash h (by rw [List.length_append]; omega)

/-- Text between three marks. It starts on a line of its own if it has several. -/
theorem readText_of_stands_three (hquote : quote = '"' ∨ quote = '\'')
    (h : Stands quote (quote == '"') true 2 0 body text) (hrest : rest.head? ≠ some quote) :
    readText (quote :: quote :: quote :: ((if text.contains '\n' then ['\n'] else []) ++
      (body ++ quote :: quote :: quote :: rest))) = some (text, rest) := by
  have hslash : quote ≠ '\\' := by rcases hquote with rfl | rfl <;> decide
  have hline : quote ≠ '\n' := by rcases hquote with rfl | rfl <;> decide
  have hplain : isPlain quote = true := by rcases hquote with rfl | rfl <;> decide
  have hopening : (newLine? ((if text.contains '\n' then ['\n'] else []) ++
      (body ++ quote :: quote :: quote :: rest))).getD
        ((if text.contains '\n' then ['\n'] else []) ++
          (body ++ quote :: quote :: quote :: rest)) =
      body ++ quote :: quote :: quote :: rest := by
    split_ifs with hlines
    · rfl
    · have htext : '\n' ∉ text := by simpa using hlines
      rw [List.nil_append, newLine?_of_stands hplain htext h, Option.getD_none]
  have hread := @readLines_of_stands quote (quote == '"') true 0
    (((if text.contains '\n' then ['\n'] else []) ++
      (body ++ quote :: quote :: quote :: rest)).length + 1) body text rest
    hslash hline (Nat.zero_le _) h hrest
    (by rw [List.length_append, List.length_append]; omega)
  rw [readText_three hquote, hopening]
  exact hread

/-- **Text that is written is read**, whatever its form, and what follows it is left. -/
theorem readText_textChars (s : String) (hbasic : rest.head? ≠ some '"')
    (hliteral : rest.head? ≠ some '\'') :
    readText (textChars s ++ rest) = some (s.toList, rest) := by
  have hsuits := TextForm.suits_of s.toList
  unfold textChars
  cases hform : TextForm.of s.toList with
  | basic =>
    have h := readText_of_stands_one (Or.inl rfl) (stands_escapeText false 0 0 s.toList) hbasic
    simpa [TextForm.chars] using h
  | literal =>
    rw [hform] at hsuits
    obtain ⟨hcontrol, hmark, hlines⟩ := hsuits
    have hruns := Nat.le_of_eq (longestRun_of_not_mem hmark)
    have h := readText_of_stands_one (Or.inr rfl)
      (stands_self (by decide) hcontrol (Or.inr hlines) hruns) hliteral
    simpa [TextForm.chars] using h
  | basicLines =>
    have h := readText_of_stands_three (Or.inl rfl) (stands_escapeText true 2 0 s.toList) hbasic
    simpa [TextForm.chars] using h
  | literalLines =>
    rw [hform] at hsuits
    obtain ⟨hcontrol, hruns⟩ := hsuits
    have h := readText_of_stands_three (Or.inr rfl)
      (stands_self (by decide) hcontrol (Or.inl rfl) hruns) hliteral
    simpa [TextForm.chars] using h

end PromptTags.Toml
