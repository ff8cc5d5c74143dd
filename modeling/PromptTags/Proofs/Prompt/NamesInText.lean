/-
Names stand in the text that they are read from.

Reading makes no text up and puts nothing in another order: the names of the tags are pieces of the
prompt, one behind the other, and what stands between them is passed over or belongs to a weight. A
group that is opened or closed moves tags from one frame to another and multiplies their weights,
but it leaves the names as they are (`names_opened`, `names_closed`). So one step of the scan adds
no name or the one that starts at its character (`step_names`), and the rest is an induction over
the steps (`scan_names`).

With what is known of each tag on its own (`parse_readable`), this says all there is to say of the
tokens of a prompt (`tokens_of_text`).
-/
import PromptTags.Proofs.Prompt.ReadTags

set_option autoImplicit false

namespace PromptTags.Prompt

open Text Decimal

/-! ## 1. Pieces in order -/

/-- Some pieces stand in a text one behind the other, with anything in front of, between and behind
them. -/
inductive InOrder : List (List Char) → List Char → Prop where
  | nil (rest : List Char) : InOrder [] rest
  | cons (gap : List Char) {piece rest : List Char} {pieces : List (List Char)}
      (hrest : InOrder pieces rest) : InOrder (piece :: pieces) (gap ++ (piece ++ rest))

variable {pieces : List (List Char)}

/-- More text in front makes no difference. -/
theorem InOrder.of_suffix {rest cs : List Char} (h : InOrder pieces rest) (hsuffix : rest <:+ cs) :
    InOrder pieces cs := by
  obtain ⟨front, rfl⟩ := hsuffix
  cases h with
  | nil => exact .nil _
  | cons gap hrest =>
    rw [← List.append_assoc]
    exact .cons (front ++ gap) hrest

theorem InOrder.isInfix {cs : List Char} (h : InOrder pieces cs) : ∀ p ∈ pieces, p <:+: cs := by
  induction h with
  | nil => exact fun p hp => absurd hp List.not_mem_nil
  | @cons gap piece rest pieces hrest ih =>
    intro p hp
    rcases List.mem_cons.mp hp with rfl | hp
    · exact ⟨gap, rest, List.append_assoc _ _ _⟩
    · have hsuffix : rest <:+ gap ++ (piece ++ rest) := by
        rw [← List.append_assoc]
        exact List.suffix_append _ rest
      exact (ih p hp).trans hsuffix.isInfix

/-! ## 2. Names of frames -/

/-- The names of some tags, as text. -/
def namesOf (ts : List Tag) : List (List Char) := ts.map fun t => t.name.toList

theorem namesOf_append (ts us : List Tag) : namesOf (ts ++ us) = namesOf ts ++ namesOf us :=
  List.map_append

theorem namesOf_scaleAll (weight? : Option Float) (ts : List Tag) :
    namesOf (Tag.scaleAll weight? ts) = namesOf ts := by
  cases weight? with
  | none => rfl
  | some w =>
    simp only [Tag.scaleAll, namesOf, List.map_map]
    rfl

namespace Frames

/-- The names of the tags depend on those of the innermost group as such. -/
theorem names_congr {top top' : List Tag} (h : namesOf top = namesOf top')
    (below : List (List Tag)) :
    namesOf (tags ⟨top, below⟩) = namesOf (tags ⟨top', below⟩) := by
  simp only [tags]
  induction below generalizing top top' with
  | nil => exact h
  | cons outer below ih =>
    apply ih
    rw [namesOf_append, namesOf_append, h]

theorem names_opened (f : Frames) : namesOf f.opened.tags = namesOf f.tags := by
  unfold opened
  split_ifs
  · simp only [tags, List.foldl_cons, List.append_nil]
  · rfl

theorem names_closed (weight? : Option Float) (f : Frames) :
    namesOf (f.closed weight?).tags = namesOf f.tags := by
  obtain ⟨top, below⟩ := f
  cases below with
  | nil => rfl
  | cons outer below =>
    apply names_congr
    rw [namesOf_append, namesOf_append, namesOf_scaleAll]

end Frames

/-! ## 3. The scan -/

/-- A step adds no name, or the piece of text at its character. -/
theorem step_names (f : Frames) (c : Char) (cs : List Char) :
    ∃ names, namesOf (step f c cs).1.tags = namesOf f.tags ++ names ∧
      ∀ pieces, InOrder pieces (step f c cs).2 → InOrder (names ++ pieces) (c :: cs) := by
  -- Most steps add nothing, and go forward.
  have hnothing : ∀ {g : Frames} {rest : List Char}, namesOf g.tags = namesOf f.tags →
      rest <:+ cs → ∃ names, namesOf g.tags = namesOf f.tags ++ names ∧
        ∀ pieces, InOrder pieces rest → InOrder (names ++ pieces) (c :: cs) := by
    intro g rest hnames hrest
    refine ⟨[], ?_, ?_⟩
    · rw [hnames, List.append_nil]
    · intro pieces h
      exact h.of_suffix (hrest.trans (List.suffix_cons c cs))
  unfold step
  split_ifs
  · exact hnothing rfl List.suffix_rfl
  · exact hnothing f.names_opened List.suffix_rfl
  · exact hnothing rfl List.suffix_rfl
  · exact hnothing (f.names_closed _) (suffix_isSuffix cs)
  · exact hnothing rfl (List.drop_suffix _ cs)
  · refine ⟨[trimmed (c :: cs.takeWhile (!isDelimiter ·))], ?_, ?_⟩
    · rw [Frames.tags_add, namesOf_append]
      simp only [namesOf, List.map_cons, List.map_nil, String.toList_ofList]
    · intro pieces h
      obtain ⟨v, w, -, -, htext⟩ := exists_trimmed (c :: cs.takeWhile (!isDelimiter ·))
      have hcut : c :: cs = v ++ (trimmed (c :: cs.takeWhile (!isDelimiter ·)) ++
          (w ++ cs.dropWhile (!isDelimiter ·))) := by
        rw [← List.append_assoc (trimmed _), ← List.append_assoc v, ← htext, List.cons_append,
          List.takeWhile_append_dropWhile]
      rw [hcut]
      apply InOrder.cons
      exact h.of_suffix ((suffix_isSuffix _).trans (List.suffix_append w _))

/-- **Names are read one behind the other.** -/
theorem scan_names (f : Frames) (cs : List Char) :
    ∃ names, namesOf (scan f cs) = namesOf f.tags ++ names ∧ InOrder names cs := by
  induction f, cs using scan.induct with
  | case1 f =>
    rw [scan_nil]
    exact ⟨[], (List.append_nil _).symm, .nil []⟩
  | case2 f c cs ih =>
    obtain ⟨first, hfirst, hstep⟩ := step_names f c cs
    obtain ⟨more, hmore, horder⟩ := ih
    refine ⟨first ++ more, ?_, hstep more horder⟩
    rw [scan, hmore, hfirst, List.append_assoc]

theorem parse_names (text : String) : InOrder (namesOf (parse text)) text.toList := by
  obtain ⟨names, hnames, horder⟩ := scan_names {} text.toList
  have hparse : namesOf (parse text) = names := by
    rw [parse_eq_scanText, scanText, hnames]
    rfl
  rw [hparse]
  exact horder

/-! ## 4. Tokens -/

/-- A tag as it is read from a text: the name is a piece of the text with no blank at its ends and
no delimiter in it, and the weight is a number without a sign. -/
structure IsReadFrom (text : List Char) (name : List Char) (weight : Float) : Prop where
  ne_nil : name ≠ []
  isInfix : name <:+: text
  first : ∀ c ∈ name.head?, isBlank c = false
  last : ∀ c ∈ name.getLast?, isBlank c = false
  noDelimiter : ∀ c ∈ name, c ≠ ',' ∧ c ≠ '(' ∧ c ≠ ')' ∧ c ≠ ':'
  finite : weight.isFinite = true
  unsigned : isNegative weight = false

theorem isReadFrom_of_readable {text : List Char} {t : Tag} (h : Readable t)
    (hpiece : t.name.toList <:+: text) : IsReadFrom text t.name.toList t.weight where
  ne_nil := h.plain.ne_nil
  isInfix := hpiece
  first := by
    intro c hc
    obtain ⟨r, hr⟩ := List.head?_eq_some_iff.mp hc
    exact not_blank_of_trimmed_eq_cons (h.plain.trimmed_eq.trans hr)
  last := by
    intro c hc
    rw [← h.plain.trimmed_eq] at hc
    exact not_blank_of_mem_getLast?_trimmed c hc
  noDelimiter := by
    intro c hc
    have hd := h.plain.noDelimiter c hc
    simpa [isDelimiter, and_assoc] using hd
  finite := h.printable.finite
  unsigned := h.printable.unsigned

/-- **What the tokens of a prompt are.** Every token is a tag whose name is a piece of the text, not
empty, without blanks at its ends and without a delimiter, and whose weight is finite and has no
sign. The names stand in the text in the order of the tokens, and no two of them overlap. And the
tags of the prompt are all of its tokens: each with its name and its weight, in the same order. -/
theorem tokens_of_text (text : String) :
    (∀ t ∈ parseTokens text, ∃ name weight, t = .plain name weight ∧
      IsReadFrom text.toList name.toList weight) ∧
    InOrder (namesOf (parse text)) text.toList ∧
    (parse text).map Tag.token = parseTokens text := by
  have htokens : (parse text).map Tag.token = parseTokens text := by
    rw [parse_eq_scanText, parseTokens_eq_map_scanText]
  refine ⟨?_, parse_names text, htokens⟩
  intro t ht
  rw [← htokens] at ht
  obtain ⟨tag, htag, rfl⟩ := List.mem_map.mp ht
  refine ⟨tag.name, tag.weight, rfl, isReadFrom_of_readable (parse_readable text tag htag) ?_⟩
  exact (parse_names text).isInfix _ (List.mem_map_of_mem htag)

end PromptTags.Prompt
