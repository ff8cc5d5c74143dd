/-
One scan from left to right.

Reading a prompt needs no recursion into groups. `scan` goes over the text once and keeps the groups
that are open on a stack of frames: an opening parenthesis puts an empty frame on it, a closing one
takes the topmost frame off and hands its tags, with the group's weight in them, to the frame below.
What a step does depends on one character and on how many groups are open, so a statement about all
prompts is an induction over the steps of this scan.
-/
import PromptTags.Proofs.Prompt.WeightText

set_option autoImplicit false

namespace PromptTags

def Tag.token (t : Tag) : Prompt.Token := .plain t.name t.weight

/-- A tag with its weight multiplied. -/
def Tag.scale (w : Float) (t : Tag) : Tag := { t with weight := Prompt.scaled t.weight w }

/-- The members of a group with its weight multiplied into them, if it has one. -/
def Tag.scaleAll (weight? : Option Float) (ts : List Tag) : List Tag :=
  match weight? with
  | some w => ts.map (Tag.scale w)
  | none => ts

namespace Prompt

open Text

/-! ## 1. Frames -/

/-- What a scan has read so far: the tags of the innermost open group, and below it those of each
group around it. The last list stands outside of all groups. -/
structure Frames where
  top : List Tag := []
  below : List (List Tag) := []

namespace Frames

def depth (f : Frames) : Nat := f.below.length

/-- More tags in the innermost group. -/
def add (f : Frames) (ts : List Tag) : Frames := { f with top := f.top ++ ts }

/-- One more group is open, unless as many as possible are open already. -/
def opened (f : Frames) : Frames :=
  if f.depth < maxDepth then { top := [], below := f.top :: f.below } else f

/-- The innermost group is closed, and its weight, if it has one, multiplied into its tags. Where
no group is open, there is nothing to close. -/
def closed (weight? : Option Float) (f : Frames) : Frames :=
  match f.below with
  | [] => f
  | outer :: below => { top := outer ++ Tag.scaleAll weight? f.top, below := below }

/-- All tags from left to right; the groups that are still open take no weight. -/
def tags (f : Frames) : List Tag := f.below.foldl (fun inner outer => outer ++ inner) f.top

@[simp] theorem add_nil (f : Frames) : f.add [] = f := by
  rw [add, List.append_nil]

@[simp] theorem add_add (f : Frames) (ts us : List Tag) :
    (f.add ts).add us = f.add (ts ++ us) := by
  rw [add, add, add, List.append_assoc]

@[simp] theorem depth_add (f : Frames) (ts : List Tag) : (f.add ts).depth = f.depth := rfl

/-- The innermost group is the last one, so what is added to it comes last. -/
theorem tags_add (f : Frames) (ts : List Tag) : (f.add ts).tags = f.tags ++ ts := by
  obtain ⟨top, below⟩ := f
  simp only [tags, add]
  induction below generalizing top with
  | nil => rfl
  | cons outer below ih => rw [List.foldl_cons, ← List.append_assoc, ih, List.foldl_cons]

theorem opened_of_lt {f : Frames} (h : f.depth < maxDepth) :
    f.opened = { top := [], below := f.top :: f.below } := if_pos h

theorem opened_of_full {f : Frames} (h : f.depth = maxDepth) : f.opened = f :=
  if_neg (by rw [h]; exact Nat.lt_irrefl _)

theorem depth_opened_of_lt {f : Frames} (h : f.depth < maxDepth) :
    f.opened.depth = f.depth + 1 := by
  rw [opened_of_lt h]; rfl

/-- Opening a group, reading its members and closing it adds them to the group around it. -/
theorem closed_add_opened {f : Frames} (h : f.depth < maxDepth) (weight? : Option Float)
    (ts : List Tag) : (f.opened.add ts).closed weight? = f.add (Tag.scaleAll weight? ts) := by
  rw [opened_of_lt h]; rfl

/-- A group that is never closed hands its members on as they are. -/
theorem tags_add_opened {f : Frames} (h : f.depth < maxDepth) (ts : List Tag) :
    (f.opened.add ts).tags = (f.add ts).tags := by
  rw [opened_of_lt h]; rfl

end Frames

/-! ## 2. The scan -/

/-- What the scan does with one character, and with the text behind it that belongs to it. -/
def step (f : Frames) (c : Char) (cs : List Char) : Frames × List Char :=
  if isBlank c || c == ',' then (f, cs)
  else if c = '(' then (f.opened, cs)
  else if c = ')' then
    if f.depth = 0 then (f, cs) else (f.closed (suffix cs).1, (suffix cs).2)
  else if c = ':' then (f, cs.drop (numberText cs).length)
  else
    let name := trimmed (c :: cs.takeWhile (!isDelimiter ·))
    let weight := suffix (cs.dropWhile (!isDelimiter ·))
    (f.add [⟨String.ofList name, weight.1.getD defaultWeight⟩], weight.2)

/-- Each step goes at least one character forward. -/
theorem step_length_le (f : Frames) (c : Char) (cs : List Char) :
    (step f c cs).2.length ≤ cs.length := by
  unfold step
  split_ifs
  · exact Nat.le_refl _
  · exact Nat.le_refl _
  · exact Nat.le_refl _
  · exact suffix_length_le cs
  · simp only [List.length_drop]; omega
  · exact Nat.le_trans (suffix_length_le _) (List.dropWhile_suffix _).length_le

/-- The tags of a text, when some frames have been read already. -/
def scan (f : Frames) : List Char → List Tag
  | [] => f.tags
  | c :: cs => scan (step f c cs).1 (step f c cs).2
termination_by cs => cs.length
decreasing_by exact Nat.lt_succ_of_le (step_length_le f c cs)

def scanText (text : String) : List Tag := scan {} text.toList

/-! ## 3. What a scan does at its first character -/

theorem scan_nil (f : Frames) : scan f [] = f.tags := by
  rw [scan]

theorem scan_blank (f : Frames) {c : Char} (h : isBlank c = true) (cs : List Char) :
    scan f (c :: cs) = scan f cs := by
  rw [scan, step, if_pos (by rw [h]; rfl)]

theorem scan_comma (f : Frames) (cs : List Char) : scan f (',' :: cs) = scan f cs := by
  rw [scan, step, if_pos (by decide)]

theorem scan_open (f : Frames) (cs : List Char) : scan f ('(' :: cs) = scan f.opened cs := by
  rw [scan, step, if_neg (by decide), if_pos rfl]

theorem scan_stray_close {f : Frames} (h : f.depth = 0) (cs : List Char) :
    scan f (')' :: cs) = scan f cs := by
  rw [scan, step, if_neg (by decide), if_neg (by decide), if_pos rfl, if_pos h]

theorem scan_close {f : Frames} (h : 0 < f.depth) (cs : List Char) :
    scan f (')' :: cs) = scan (f.closed (suffix cs).1) (suffix cs).2 := by
  rw [scan, step, if_neg (by decide), if_neg (by decide), if_pos rfl, if_neg (Nat.ne_of_gt h)]

theorem scan_colon (f : Frames) (cs : List Char) :
    scan f (':' :: cs) = scan f (cs.drop (numberText cs).length) := by
  rw [scan, step, if_neg (by decide), if_neg (by decide), if_neg (by decide), if_pos rfl]

/-- Blanks in front of a text that is scanned make no difference. -/
theorem scan_skipBlanks (f : Frames) (cs : List Char) : scan f (skipBlanks cs) = scan f cs := by
  induction cs with
  | nil => rfl
  | cons c cs ih =>
    cases hc : isBlank c with
    | true => rw [skipBlanks_cons_of_blank hc, ih, scan_blank f hc]
    | false => rw [skipBlanks_cons_of_not_blank hc]

theorem scan_append_blanks (f : Frames) {w : List Char} (hw : AllBlank w) (cs : List Char) :
    scan f (w ++ cs) = scan f cs := by
  rw [← scan_skipBlanks, skipBlanks_append hw, scan_skipBlanks]

/-! ## 4. Text up to a delimiter -/

def NoDelimiter (cs : List Char) : Prop := ∀ c ∈ cs, isDelimiter c = false

instance (cs : List Char) : Decidable (NoDelimiter cs) :=
  decidableForallMem cs (isDelimiter · = false)

/-- Text that is empty or starts with a delimiter. -/
def DelimiterFirst (cs : List Char) : Prop := ∀ c ∈ cs.head?, isDelimiter c = true

theorem noDelimiter_of_allBlank {w : List Char} (hw : AllBlank w) : NoDelimiter w := by
  intro c hc
  cases hd : isDelimiter c with
  | false => rfl
  | true => exact absurd (hw c hc) (by rw [not_blank_of_isDelimiter hd]; exact Bool.false_ne_true)

theorem takeWhile_text_append {text : List Char} (h : NoDelimiter text) (cs : List Char) :
    (text ++ cs).takeWhile (!isDelimiter ·) = text ++ cs.takeWhile (!isDelimiter ·) :=
  List.takeWhile_append_of_pos fun c hc => by rw [h c hc]; rfl

theorem dropWhile_text_append {text : List Char} (h : NoDelimiter text) (cs : List Char) :
    (text ++ cs).dropWhile (!isDelimiter ·) = cs.dropWhile (!isDelimiter ·) :=
  List.dropWhile_append_of_pos fun c hc => by rw [h c hc]; rfl

theorem takeWhile_eq_nil_of_delimiterFirst {cs : List Char} (h : DelimiterFirst cs) :
    cs.takeWhile (!isDelimiter ·) = [] :=
  @takeWhile_run _ _ [] _ nofun fun c hc => by rw [h c hc]; rfl

theorem dropWhile_eq_self_of_delimiterFirst {cs : List Char} (h : DelimiterFirst cs) :
    cs.dropWhile (!isDelimiter ·) = cs :=
  @dropWhile_run _ _ [] _ nofun fun c hc => by rw [h c hc]; rfl

/-- Every text is cut in two at its first delimiter. -/
theorem exists_text_delimiter (cs : List Char) :
    ∃ text after, NoDelimiter text ∧ DelimiterFirst after ∧ cs = text ++ after := by
  refine ⟨cs.takeWhile (!isDelimiter ·), cs.dropWhile (!isDelimiter ·), ?_, ?_,
    List.takeWhile_append_dropWhile.symm⟩
  · intro c hc
    simpa using List.mem_takeWhile_imp (l := cs) (p := fun c => !isDelimiter c) hc
  · intro c hc
    have h := List.head?_dropWhile_not (!isDelimiter ·) cs
    rw [Option.mem_def.mp hc] at h
    simpa using h

theorem noDelimiter_numberText (cs : List Char) : NoDelimiter (numberText cs) := by
  intro c hc
  rcases (numberText_spec cs).2 c hc with hdigit | rfl
  · exact not_isDelimiter_of_isDigit hdigit
  · decide

/-- What is read as a weight is blanks, a colon and a number, and nothing if there is none. -/
theorem suffix_cases (cs : List Char) :
    (suffix cs).2 = cs ∨ ∃ w number, AllBlank w ∧ NoDelimiter number ∧
      cs = w ++ ':' :: (number ++ (suffix cs).2) := by
  by_cases h : (skipBlanks cs).head? = some ':'
  · right
    obtain ⟨r, hr⟩ := List.head?_eq_some_iff.mp h
    obtain ⟨w, hw, hcs⟩ := exists_blanks cs
    refine ⟨w, numberText r, hw, noDelimiter_numberText r, ?_⟩
    rw [suffix_of_colon hr, numberText_append_drop, ← hr]
    exact hcs
  · left
    rw [suffix_of_no_colon h]

theorem suffix_isSuffix (cs : List Char) : (suffix cs).2 <:+ cs := by
  rcases suffix_cases cs with h | ⟨w, number, -, -, h⟩
  · exact ⟨[], h⟩
  · refine ⟨w ++ ':' :: number, ?_⟩
    rw [List.append_assoc, List.cons_append]
    exact h.symm

theorem scan_cons_name (f : Frames) {c : Char} (hb : isBlank c = false) (hd : isDelimiter c = false)
    (cs : List Char) :
    scan f (c :: cs)
      = scan (f.add [⟨String.ofList (trimmed (c :: cs.takeWhile (!isDelimiter ·))),
            (suffix (cs.dropWhile (!isDelimiter ·))).1.getD defaultWeight⟩])
          (suffix (cs.dropWhile (!isDelimiter ·))).2 := by
  simp only [isDelimiter, Bool.or_eq_false_iff, beq_eq_false_iff_ne] at hd
  obtain ⟨⟨⟨hcomma, hopen⟩, hclose⟩, hcolon⟩ := hd
  rw [scan, step, if_neg (by simp [hb, hcomma]), if_neg hopen, if_neg hclose, if_neg hcolon]

/-- Text that is not all blank is one tag, and the weight behind it belongs to it. -/
theorem scan_text {text after : List Char} (htext : NoDelimiter text)
    (hafter : DelimiterFirst after) (hblank : ¬ AllBlank text) (f : Frames) :
    scan f (text ++ after)
      = scan (f.add [⟨String.ofList (trimmed text), (suffix after).1.getD defaultWeight⟩])
          (suffix after).2 := by
  -- The blanks in front are steps of their own; the tag starts behind them.
  obtain ⟨w, hw, hsplit⟩ := exists_blanks text
  cases hs : skipBlanks text with
  | nil => exact absurd (skipBlanks_eq_nil_iff.mp hs) hblank
  | cons c r =>
    rw [hs] at hsplit
    have hb : isBlank c = false := not_isBlank_of_skipBlanks_eq_cons hs
    have hcr : NoDelimiter (c :: r) := fun a ha =>
      htext a (by rw [hsplit]; exact List.mem_append_right w ha)
    have hr : NoDelimiter r := fun a ha => hcr a (List.mem_cons_of_mem c ha)
    rw [hsplit, trimmed_append_left hw, List.append_assoc, scan_append_blanks f hw,
      List.cons_append, scan_cons_name f hb (hcr c List.mem_cons_self), takeWhile_text_append hr,
      dropWhile_text_append hr, takeWhile_eq_nil_of_delimiterFirst hafter,
      dropWhile_eq_self_of_delimiterFirst hafter, List.append_nil]

/-- Where no tag starts, a weight is passed over. -/
theorem scan_suffix (f : Frames) (cs : List Char) : scan f (suffix cs).2 = scan f cs := by
  by_cases h : (skipBlanks cs).head? = some ':'
  · obtain ⟨r, hr⟩ := List.head?_eq_some_iff.mp h
    rw [suffix_of_colon hr, ← scan_skipBlanks f cs, hr, scan_colon]
  · rw [suffix_of_no_colon h]

/-- Blanks in front of a weight make no difference. -/
theorem scan_suffix_skipBlanks (f : Frames) (cs : List Char) :
    (suffix (skipBlanks cs)).1 = (suffix cs).1
      ∧ scan f (suffix (skipBlanks cs)).2 = scan f (suffix cs).2 := by
  by_cases h : (skipBlanks cs).head? = some ':'
  · obtain ⟨r, hr⟩ := List.head?_eq_some_iff.mp h
    rw [suffix_of_colon hr, suffix_of_colon ((skipBlanks_skipBlanks cs).trans hr)]
    exact ⟨rfl, rfl⟩
  · rw [suffix_of_no_colon h, suffix_of_no_colon (by rw [skipBlanks_skipBlanks]; exact h)]
    exact ⟨rfl, scan_skipBlanks f cs⟩

/-- Blanks behind the text of a tag are trimmed away with it. -/
theorem scan_text_blanks {text after : List Char} (htext : NoDelimiter text)
    (hblank : ¬ AllBlank text) (hafter : DelimiterFirst (skipBlanks after)) (f : Frames) :
    scan f (text ++ after)
      = scan (f.add [⟨String.ofList (trimmed text), (suffix after).1.getD defaultWeight⟩])
          (suffix after).2 := by
  obtain ⟨w, hw, hsplit⟩ := exists_blanks after
  have hall : NoDelimiter (text ++ w) := fun c hc =>
    (List.mem_append.mp hc).elim (htext c) (noDelimiter_of_allBlank hw c)
  have htrim : trimmed (text ++ w) = trimmed text := trimmed_append_right hw text
  have hblank' : ¬ AllBlank (text ++ w) := by
    rw [← trimmed_eq_nil_iff, htrim, trimmed_eq_nil_iff]
    exact hblank
  have hcut : text ++ after = text ++ w ++ skipBlanks after := by
    rw [List.append_assoc, ← hsplit]
  obtain ⟨hweight, hrest⟩ := scan_suffix_skipBlanks
    (f.add [⟨String.ofList (trimmed text), (suffix after).1.getD defaultWeight⟩]) after
  rw [hcut, scan_text hall hafter hblank', htrim, hweight, hrest]

/-- Text that is read as the name of one tag. -/
structure IsPlain (name : List Char) : Prop where
  ne_nil : name ≠ []
  trimmed_eq : trimmed name = name
  noDelimiter : NoDelimiter name

theorem isPlain_iff {name : List Char} :
    IsPlain name ↔ name ≠ [] ∧ trimmed name = name ∧ NoDelimiter name :=
  ⟨fun h => ⟨h.ne_nil, h.trimmed_eq, h.noDelimiter⟩, fun h => ⟨h.1, h.2.1, h.2.2⟩⟩

instance (name : List Char) : Decidable (IsPlain name) := decidable_of_iff _ isPlain_iff.symm

/-- A plain name is one tag under just this name, and the weight behind it belongs to it. -/
theorem scan_name {name after : List Char} (hname : IsPlain name)
    (hafter : DelimiterFirst (skipBlanks after)) (f : Frames) :
    scan f (name ++ after)
      = scan (f.add [⟨String.ofList name, (suffix after).1.getD defaultWeight⟩])
          (suffix after).2 := by
  have hblank : ¬ AllBlank name := by
    rw [← trimmed_eq_nil_iff, hname.trimmed_eq]
    exact hname.ne_nil
  rw [scan_text_blanks hname.noDelimiter hblank hafter, hname.trimmed_eq]

end Prompt

end PromptTags
