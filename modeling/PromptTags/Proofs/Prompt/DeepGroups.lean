/-
Parentheses that open one group too many.

While as many groups are open as possible, an opening parenthesis opens none. It is passed over, but
it has been read: like a comma, it ends the tag or the weight in front of it. So the tags of a prompt
are those of the prompt with commas in place of these parentheses (`parse_commasForDeep`), and not
those of the prompt without them, where text behind a parenthesis can go on with the tag in front of
it. They are the same if each such parenthesis stands next to something that ends a tag anyway
(`parse_withoutDeep`).

Both are cases of one induction over the text, in which some other text is put in the place of every
such parenthesis: if that makes no difference at any one of them, it makes none at all of them
together (`scan_replaceDeep`).
-/
import PromptTags.Proofs.Prompt.Layout

set_option autoImplicit false

namespace PromptTags.Prompt

open Text

/-! ## 1. The parentheses -/

/-- A text with `new` in place of each parenthesis that would open a group while as many as possible
are open, where `d` groups are open at the start. -/
def replaceDeep (new : List Char) (d : Nat) : List Char → List Char
  | [] => []
  | c :: cs =>
    (if c = '(' ∧ maxDepth ≤ d then new else [c]) ++ replaceDeep new (countOpen d c) cs

/-- The prompt with a comma in place of each parenthesis that opens one group too many. -/
def commasForDeep (text : String) : String := String.ofList (replaceDeep [','] 0 text.toList)

/-- The prompt without the parentheses that open one group too many. -/
def withoutDeep (text : String) : String := String.ofList (replaceDeep [] 0 text.toList)

variable {new : List Char}

theorem countOpen_deep {d : Nat} (h : maxDepth ≤ d) : countOpen d '(' = d := by
  have hlt : ¬ d < maxDepth := by omega
  simp [countOpen, hlt]

theorem replaceDeep_deep {d : Nat} (h : maxDepth ≤ d) (cs : List Char) :
    replaceDeep new d ('(' :: cs) = new ++ replaceDeep new d cs := by
  rw [replaceDeep, if_pos ⟨rfl, h⟩, countOpen_deep h]

theorem replaceDeep_other {d : Nat} {c : Char} (h : ¬ (c = '(' ∧ maxDepth ≤ d)) (cs : List Char) :
    replaceDeep new d (c :: cs) = c :: replaceDeep new (countOpen d c) cs := by
  rw [replaceDeep, if_neg h, List.singleton_append]

/-- The groups are counted as before. -/
theorem foldl_countOpen_replaceDeep (hnew : ∀ d, new.foldl countOpen d = d) (d : Nat)
    (cs : List Char) : (replaceDeep new d cs).foldl countOpen d = cs.foldl countOpen d := by
  induction cs generalizing d with
  | nil => rfl
  | cons c cs ih =>
    by_cases h : c = '(' ∧ maxDepth ≤ d
    · obtain ⟨rfl, hd⟩ := h
      rw [replaceDeep_deep hd, List.foldl_append, hnew, ih, List.foldl_cons, countOpen_deep hd]
    · rw [replaceDeep_other h, List.foldl_cons, List.foldl_cons, ih]

theorem openGroups_append (u v : List Char) :
    openGroups (u ++ v) = v.foldl countOpen (openGroups u) := List.foldl_append

theorem openGroups_replaceDeep (hnew : ∀ d, new.foldl countOpen d = d) (cs : List Char) :
    openGroups (replaceDeep new 0 cs) = openGroups cs := foldl_countOpen_replaceDeep hnew 0 cs

/-- **All of them together.** Where no single replacement makes a difference, in the text that the
replacements before it have left, all of them make none. -/
theorem scan_replaceDeep (hnew : ∀ d, new.foldl countOpen d = d) (u v : List Char)
    (hone : ∀ p q, v = p ++ '(' :: q → maxDepth ≤ openGroups (u ++ p) →
      scan {} (u ++ (replaceDeep new (openGroups u) p ++ (new ++ q)))
        = scan {} (u ++ (replaceDeep new (openGroups u) p ++ '(' :: q))) :
    scan {} (u ++ replaceDeep new (openGroups u) v) = scan {} (u ++ v) := by
  induction v generalizing u with
  | nil => rfl
  | cons c cs ih =>
    by_cases h : c = '(' ∧ maxDepth ≤ openGroups u
    · obtain ⟨rfl, hd⟩ := h
      have hcount : openGroups (u ++ new) = openGroups u := by
        rw [openGroups_append, hnew]
      have hrest := ih (u ++ new) (by
        intro p q hcs hdeep
        have hopen : openGroups (u ++ '(' :: p) = openGroups (u ++ new ++ p) := by
          rw [openGroups_append, List.foldl_cons, countOpen_deep hd, openGroups_append, hcount]
        have hmore := hone ('(' :: p) q (by rw [hcs, List.cons_append]) (by rw [hopen]; exact hdeep)
        rw [replaceDeep_deep hd] at hmore
        simpa only [hcount, List.append_assoc] using hmore)
      have hfirst := hone [] cs rfl (by rw [List.append_nil]; exact hd)
      rw [hcount, List.append_assoc, List.append_assoc] at hrest
      rw [replaceDeep_deep hd, hrest]
      exact hfirst
    · have hcount : openGroups (u ++ [c]) = countOpen (openGroups u) c := by
        rw [openGroups_append, List.foldl_cons, List.foldl_nil]
      have hrest := ih (u ++ [c]) (by
        intro p q hcs hdeep
        rw [List.append_assoc, List.singleton_append] at hdeep
        have hmore := hone (c :: p) q (by rw [hcs, List.cons_append]) hdeep
        rw [replaceDeep_other h] at hmore
        simpa only [hcount, List.append_assoc, List.nil_append, List.cons_append] using hmore)
      rw [hcount, List.append_assoc, List.append_assoc] at hrest
      rw [replaceDeep_other h]
      exact hrest

/-! ## 2. One of them -/

theorem depth_after_empty (u : List Char) : (after {} u).depth = openGroups u := depth_after {} u

/-- A parenthesis that opens no group is passed over. -/
theorem scan_deep {f : Frames} (h : maxDepth ≤ f.depth) (cs : List Char) :
    scan f ('(' :: cs) = scan f cs := by
  have hopened : f.opened = f := if_neg (by omega)
  rw [scan_open, hopened]

theorem breaksOff_open (cs : List Char) : BreaksOff ('(' :: cs) :=
  breaksOff_cons (Or.inr (Or.inl rfl)) cs

theorem scan_append_deep {u : List Char} (h : maxDepth ≤ openGroups u) (cs : List Char) :
    scan {} (u ++ '(' :: cs) = scan (after {} u) cs := by
  rw [scan_append (breaksOff_open cs), scan_deep (by rw [depth_after_empty]; exact h)]

/-- It is read as a comma is. -/
theorem scan_comma_of_deep {u : List Char} (h : maxDepth ≤ openGroups u) (cs : List Char) :
    scan {} (u ++ ',' :: cs) = scan {} (u ++ '(' :: cs) := by
  rw [scan_append_deep h, scan_append (breaksOff_comma cs), scan_comma]

/-- Nothing that is read runs from one text on into another: blanks aside, the first one ends with a
comma or an opening parenthesis, or the second one is empty or starts with a comma or a
parenthesis. -/
def Apart (u v : List Char) : Prop :=
  (∃ first c blanks, u = first ++ c :: blanks ∧ (c = ',' ∨ c = '(') ∧ AllBlank blanks) ∨
    BreaksOff (skipBlanks v)

/-- Between such texts, the parenthesis can be left out. -/
theorem scan_append_of_apart {u v : List Char} (h : maxDepth ≤ openGroups u) (hapart : Apart u v) :
    scan {} (u ++ v) = scan {} (u ++ '(' :: v) := by
  rcases hapart with ⟨first, c, blanks, rfl, hc, hblanks⟩ | hv
  · have hbehind : ∀ t, scan {} (first ++ c :: blanks ++ t) = scan {} (first ++ c :: t) := by
      intro t
      rw [List.append_assoc, List.cons_append]
      exact scan_blanks_behind (by tauto) hblanks {} first t
    have hbreaks : ∀ t, BreaksOff (c :: t) := breaksOff_cons (by tauto)
    -- The groups are counted behind the comma or the parenthesis already.
    have hopen : countOpen (after {} first).depth c = openGroups (first ++ c :: blanks) := by
      rw [depth_after_empty, openGroups_append, List.foldl_cons,
        foldl_countOpen_of_noDelimiter (noDelimiter_of_allBlank hblanks)]
    rw [← hopen] at h
    rw [hbehind, hbehind, scan_append (hbreaks _), scan_append (hbreaks _)]
    rcases hc with rfl | rfl
    · rw [scan_comma, scan_comma, scan_deep h]
    · rw [← depth_opened] at h
      rw [scan_open, scan_open, scan_deep h]
  · obtain ⟨w, hw, hsplit⟩ := exists_blanks v
    have hends : EndsText (skipBlanks v) := by
      unfold EndsText
      rw [skipBlanks_skipBlanks]
      exact delimiterFirst_of_breaksOff hv
    calc scan {} (u ++ v)
        = scan {} (u ++ (w ++ skipBlanks v)) := by rw [← hsplit]
      _ = scan {} (u ++ skipBlanks v) := scan_blanks_before hw hends {} u
      _ = scan (after {} u) v := by rw [scan_append hv, scan_skipBlanks]
      _ = scan {} (u ++ '(' :: v) := (scan_append_deep h v).symm

/-- What is left out of a text does not show where the text breaks off. -/
theorem breaksOff_of_replaceDeep {d : Nat} {cs : List Char}
    (h : BreaksOff (skipBlanks (replaceDeep [] d cs))) : BreaksOff (skipBlanks cs) := by
  induction cs generalizing d with
  | nil => exact h
  | cons c cs ih =>
    by_cases hdeep : c = '(' ∧ maxDepth ≤ d
    · obtain ⟨rfl, -⟩ := hdeep
      rw [skipBlanks_cons_of_not_blank (by decide)]
      exact breaksOff_open cs
    · rw [replaceDeep_other hdeep] at h
      by_cases hb : isBlank c = true
      · rw [skipBlanks_cons_of_blank hb] at h ⊢
        exact ih h
      · rw [Bool.not_eq_true] at hb
        rw [skipBlanks_cons_of_not_blank hb] at h ⊢
        exact fun a ha => h a ha

/-! ## 3. Prompts -/

theorem parse_ofList (cs : List Char) : parse (String.ofList cs) = scan {} cs := by
  rw [parse_eq_scanText, scanText, String.toList_ofList]

theorem parse_commasForDeep (text : String) : parse (commasForDeep text) = parse text := by
  have hcomma : ∀ d, [','].foldl countOpen d = d := by
    intro d
    rw [List.foldl_cons, List.foldl_nil, countOpen_of_ne (by decide) (by decide)]
  have hscan := scan_replaceDeep hcomma [] text.toList (by
    intro p q _ hdeep
    apply scan_comma_of_deep
    show maxDepth ≤ openGroups (replaceDeep [','] 0 p)
    rw [openGroups_replaceDeep hcomma]
    exact hdeep)
  rw [commasForDeep, parse_ofList, parse_eq_scanText]
  exact hscan

theorem parse_withoutDeep {text : String}
    (h : ∀ p q, text.toList = p ++ '(' :: q → maxDepth ≤ openGroups p →
      Apart (replaceDeep [] 0 p) (replaceDeep [] (openGroups p) q)) :
    parse (withoutDeep text) = parse text := by
  have hnil : ∀ d, [].foldl countOpen d = d := fun _ => rfl
  have hscan := scan_replaceDeep hnil [] text.toList (by
    intro p q htext hdeep
    have hfull : maxDepth ≤ openGroups (replaceDeep [] 0 p) := by
      rw [openGroups_replaceDeep hnil]
      exact hdeep
    apply scan_append_of_apart hfull
    exact (h p q htext hdeep).imp_right breaksOff_of_replaceDeep)
  rw [withoutDeep, parse_ofList, parse_eq_scanText]
  exact hscan

/-- **A parenthesis that opens one group too many is read as a comma.** And it is read as if it were
absent if the texts around it are apart in the prompt without all such parentheses: if it stands
behind a comma or another parenthesis, or in front of a comma, a closing parenthesis or the end,
blanks aside. -/
theorem deep_parenthesis_is_comma (text : String) :
    parse text = parse (commasForDeep text) ∧
    ((∀ p q, text.toList = p ++ '(' :: q → maxDepth ≤ openGroups p →
        Apart (replaceDeep [] 0 p) (replaceDeep [] (openGroups p) q)) →
      parse text = parse (withoutDeep text)) :=
  ⟨(parse_commasForDeep text).symm, fun h => (parse_withoutDeep h).symm⟩

/-- Behind a tag's text it is not read as if it were absent: it ends the tag. -/
theorem deep_parenthesis_not_absent :
    let text := String.ofList (List.replicate maxDepth '(' ++ ['a', '(', 'b'])
    (parse text).map Tag.name = ["a", "b"] ∧
      (parse (withoutDeep text)).map Tag.name = ["ab"] := by
  decide +kernel

end PromptTags.Prompt
