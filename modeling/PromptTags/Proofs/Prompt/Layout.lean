/-
Blanks that make no difference.

Blanks are passed over in many places, and in each by other means: between values, in front of a
weight, at the ends of a tag's text, behind a parenthesis that opens nothing. What these places have
in common is said once, in `scan_cut`. Where the text of a tag ends, with or without blanks in
between, the scan of what stands before depends on what stands behind by nothing but the weight that
comes first there. So two texts can be exchanged behind any other one if they start with the same
weight and are scanned alike after it (`scan_congr`), and blanks next to a delimiter are such an
exchange.

In all other places blanks do make a difference (`ne_of_inTagText`, `ne_of_inWeight`): inside of a
tag's text they are part of the name, and in a weight they end it, so that the rest of the number
becomes a tag. The difference shows in the names. What names a text adds does not depend on the
groups that are open around it (`names_scan`), so it is enough to compare the first one.
-/
import PromptTags.Proofs.Prompt.Concatenation
import PromptTags.Proofs.Prompt.NamesInText

set_option autoImplicit false

namespace PromptTags.Prompt

open Text

/-- What a scan can find first. -/
theorem char_cases (c : Char) : isBlank c = true ∨ c = ',' ∨ c = '(' ∨ c = ')' ∨ c = ':' ∨
    isBlank c = false ∧ isDelimiter c = false := by
  by_cases hb : isBlank c = true
  · exact Or.inl hb
  · rw [Bool.not_eq_true] at hb
    simp only [isDelimiter, Bool.or_eq_false_iff, beq_eq_false_iff_ne]
    tauto

/-! ## 1. Names and open groups -/

theorem names_tags_add (f : Frames) (ts : List Tag) :
    namesOf (f.add ts).tags = namesOf f.tags ++ namesOf ts := by
  rw [Frames.tags_add, namesOf_append]

/-- **The names of a text are the same whatever groups are open around it.** -/
theorem names_scan (f : Frames) (cs : List Char) :
    namesOf (scan f cs) = namesOf f.tags ++ namesOf (scan {} cs) := by
  have hempty : namesOf ({} : Frames).tags = [] := rfl
  induction hn : cs.length using Nat.strong_induction_on generalizing cs f with
  | _ n ih =>
    subst hn
    -- Where one step leads from both frames to a shorter text, the rest is the induction.
    have hstep : ∀ {g g' : Frames} {rest : List Char}, rest.length < cs.length →
        scan f cs = scan g rest → scan {} cs = scan g' rest →
        namesOf g.tags = namesOf f.tags ++ namesOf g'.tags →
        namesOf (scan f cs) = namesOf f.tags ++ namesOf (scan {} cs) := by
      intro g g' rest hlt hf hf' hnames
      rw [hf, hf', ih _ hlt g rest rfl, ih _ hlt g' rest rfl, hnames, List.append_assoc]
    cases cs with
    | nil =>
      rw [scan_nil, scan_nil, hempty, List.append_nil]
    | cons c cs =>
      have hlt : cs.length < (c :: cs).length := Nat.lt_succ_self _
      rcases char_cases c with hb | rfl | rfl | rfl | rfl | ⟨hb, hd⟩
      · apply hstep hlt (scan_blank f hb cs) (scan_blank _ hb cs)
        rw [hempty, List.append_nil]
      · apply hstep hlt (scan_comma f cs) (scan_comma _ cs)
        rw [hempty, List.append_nil]
      · apply hstep hlt (scan_open f cs) (scan_open _ cs)
        rw [Frames.names_opened, Frames.names_opened, hempty, List.append_nil]
      · -- A weight behind the parenthesis is passed over if it closes nothing.
        have hstray : ∀ {g : Frames}, g.depth = 0 → scan g (')' :: cs) = scan g (suffix cs).2 := by
          intro g hg
          rw [scan_stray_close hg, scan_suffix]
        have hsuffix : (suffix cs).2.length < (')' :: cs).length :=
          Nat.lt_succ_of_le (suffix_length_le cs)
        by_cases hdepth : f.depth = 0
        · apply hstep hsuffix (hstray hdepth) (hstray rfl)
          rw [hempty, List.append_nil]
        · apply hstep hsuffix (scan_close (Nat.pos_of_ne_zero hdepth) cs) (hstray rfl)
          rw [Frames.names_closed, hempty, List.append_nil]
      · have hdrop : (cs.drop (numberText cs).length).length < (':' :: cs).length := by
          simp only [List.length_drop, List.length_cons]
          omega
        apply hstep hdrop (scan_colon f cs) (scan_colon _ cs)
        rw [hempty, List.append_nil]
      · have hrest : (suffix (cs.dropWhile (!isDelimiter ·))).2.length < (c :: cs).length := by
          have hle := suffix_length_le (cs.dropWhile (!isDelimiter ·))
          have hcut := (List.dropWhile_suffix (l := cs) (!isDelimiter ·)).length_le
          simp only [List.length_cons]
          omega
        apply hstep hrest (scan_cons_name f hb hd cs) (scan_cons_name _ hb hd cs)
        rw [names_tags_add, names_tags_add, hempty, List.nil_append]

/-! ## 2. What a text sees of the text behind it -/

/-- Text in front of which the text of a tag ends: blanks, and then a delimiter or nothing. -/
def EndsText (x : List Char) : Prop := DelimiterFirst (skipBlanks x)

/-- Neither a blank nor a delimiter belongs to a number. -/
theorem not_number_of_stop {c : Char} (h : isBlank c = true ∨ isDelimiter c = true) :
    c.isDigit = false ∧ c ≠ '.' := by
  constructor
  · rw [← Bool.not_eq_true]
    intro hdigit
    rcases h with hb | hd
    · exact absurd hb (by simp [not_blank_of_isDigit hdigit])
    · exact absurd hd (by simp [not_isDelimiter_of_isDigit hdigit])
  · rintro rfl
    exact absurd h (by decide)

/-- No weight goes on where a blank or a delimiter follows. -/
theorem numberText_append_of_stop {x : List Char}
    (hx : ∀ c ∈ x.head?, isBlank c = true ∨ isDelimiter c = true) (cs : List Char) :
    numberText (cs ++ x) = numberText cs := by
  apply numberText_append_of_head
  · intro c hc
    exact (not_number_of_stop (hx c hc)).1
  · intro hdot
    exact (not_number_of_stop (hx '.' hdot)).2 rfl

theorem stop_of_endsText {x : List Char} (hx : EndsText x) :
    ∀ c ∈ x.head?, isBlank c = true ∨ isDelimiter c = true := by
  intro c hc
  obtain ⟨r, rfl⟩ := List.head?_eq_some_iff.mp hc
  by_cases hb : isBlank c = true
  · exact Or.inl hb
  · right
    unfold EndsText at hx
    rw [skipBlanks_cons_of_not_blank (by simpa using hb)] at hx
    exact hx c rfl

/-- Behind `u`, a text counts only by the weight that it starts with and by what is left of it. -/
def Cuts (f : Frames) (u : List Char) : Prop :=
  ∃ g : Option Float → Frames, (∀ a b, namesOf (g a).tags = namesOf (g b).tags) ∧
    ∀ x, EndsText x → scan f (u ++ x) = scan (g (suffix x).1) (suffix x).2

variable {w : List Char}

/-- Blanks in front of a weight are no part of it. -/
theorem suffix_blanks_append (hw : AllBlank w) (x : List Char) :
    (suffix (w ++ x)).1 = (suffix x).1 ∧
      ∀ f, scan f (suffix (w ++ x)).2 = scan f (suffix x).2 := by
  have hskip : skipBlanks (w ++ x) = skipBlanks x := skipBlanks_append hw x
  constructor
  · rw [← (scan_suffix_skipBlanks {} (w ++ x)).1, hskip, (scan_suffix_skipBlanks {} x).1]
  · intro f
    rw [scan_suffix, scan_suffix, scan_append_blanks f hw]

/-- The weight behind a group or a name may stand in `u`, or behind it. -/
theorem cuts_suffix {u : List Char} (hcuts : ∀ r f, r.length ≤ u.length → Cuts f r)
    {h : Option Float → Frames} (hnames : ∀ a b, namesOf (h a).tags = namesOf (h b).tags) :
    ∃ g : Option Float → Frames, (∀ a b, namesOf (g a).tags = namesOf (g b).tags) ∧
      ∀ x, EndsText x → scan (h (suffix (u ++ x)).1) (suffix (u ++ x)).2
        = scan (g (suffix x).1) (suffix x).2 := by
  by_cases hblank : AllBlank u
  · refine ⟨h, hnames, ?_⟩
    intro x hx
    obtain ⟨hweight, hrest⟩ := suffix_blanks_append hblank x
    rw [hweight, hrest]
  · cases hs : skipBlanks u with
    | nil => exact absurd (skipBlanks_eq_nil_iff.mp hs) hblank
    | cons c r =>
      have hskip : ∀ x, skipBlanks (u ++ x) = c :: (r ++ x) := by
        intro x
        rw [skipBlanks_append_of_not_allBlank hblank, hs, List.cons_append]
      by_cases hcolon : c = ':'
      · subst hcolon
        have hlen : (r.drop (numberText r).length).length ≤ u.length := by
          have hle := skipBlanks_length_le u
          simp only [hs, List.length_cons] at hle
          simp only [List.length_drop]
          omega
        obtain ⟨g, hg, hscan⟩ := hcuts _ (h (some (writtenWeight (numberText r)))) hlen
        refine ⟨g, hg, ?_⟩
        intro x hx
        have hnumber := numberText_append_of_stop (stop_of_endsText hx) r
        have hle := (numberText_spec r).1.length_le
        rw [suffix_of_colon (hskip x), hnumber, List.drop_append_of_le_length hle]
        exact hscan x hx
      · obtain ⟨g, hg, hscan⟩ := hcuts u (h none) (Nat.le_refl _)
        refine ⟨g, hg, ?_⟩
        intro x hx
        have hno : (skipBlanks (u ++ x)).head? ≠ some ':' := by
          simp [hskip, hcolon]
        rw [suffix_of_no_colon hno]
        exact hscan x hx

/-- **What a text sees of the text behind it.** -/
theorem cuts (f : Frames) (u : List Char) : Cuts f u := by
  induction hn : u.length using Nat.strong_induction_on generalizing u f with
  | _ n ih =>
    subst hn
    cases u with
    | nil =>
      refine ⟨fun _ => f, fun _ _ => rfl, ?_⟩
      intro x hx
      rw [List.nil_append, scan_suffix]
    | cons c cs =>
      have hlt : cs.length < (c :: cs).length := Nat.lt_succ_self _
      -- Where one step leads to a shorter text whatever stands behind, the rest is the induction.
      have hstep : ∀ {g : Frames} {r : List Char}, r.length < (c :: cs).length →
          (∀ x, EndsText x → scan f (c :: cs ++ x) = scan g (r ++ x)) → Cuts f (c :: cs) := by
        intro g r hr hfirst
        obtain ⟨k, hk, hscan⟩ := ih _ hr g r rfl
        refine ⟨k, hk, ?_⟩
        intro x hx
        rw [hfirst x hx, hscan x hx]
      rcases char_cases c with hb | rfl | rfl | rfl | rfl | ⟨hb, hd⟩
      · exact hstep hlt fun x _ => scan_blank f hb (cs ++ x)
      · exact hstep hlt fun x _ => scan_comma f (cs ++ x)
      · exact hstep hlt fun x _ => scan_open f (cs ++ x)
      · by_cases hdepth : f.depth = 0
        · exact hstep hlt fun x _ => scan_stray_close hdepth (cs ++ x)
        · have hshort : ∀ r g, r.length ≤ cs.length → Cuts g r := by
            intro r g hr
            exact ih _ (by omega) g r rfl
          obtain ⟨g, hg, hscan⟩ := cuts_suffix hshort (h := (f.closed ·)) (by
            intro a b
            rw [Frames.names_closed, Frames.names_closed])
          refine ⟨g, hg, ?_⟩
          intro x hx
          rw [List.cons_append, scan_close (Nat.pos_of_ne_zero hdepth)]
          exact hscan x hx
      · have hdrop : (cs.drop (numberText cs).length).length < (':' :: cs).length := by
          simp only [List.length_drop, List.length_cons]
          omega
        apply hstep hdrop
        intro x hx
        have hle := (numberText_spec cs).1.length_le
        rw [List.cons_append, scan_colon, numberText_append_of_stop (stop_of_endsText hx),
          List.drop_append_of_le_length hle]
      · obtain ⟨text, after, htext, hafter, rfl⟩ := exists_text_delimiter cs
        have hall : NoDelimiter (c :: text) := List.forall_mem_cons.mpr ⟨hd, htext⟩
        have hblank : ¬ AllBlank (c :: text) := by
          intro h
          exact absurd (h c List.mem_cons_self) (by simp [hb])
        let tag (a : Option Float) : Frames :=
          f.add [⟨String.ofList (trimmed (c :: text)), a.getD defaultWeight⟩]
        have htag : ∀ a b, namesOf (tag a).tags = namesOf (tag b).tags := by
          intro a b
          rw [names_tags_add, names_tags_add]
          rfl
        cases after with
        | nil =>
          refine ⟨tag, htag, ?_⟩
          intro x hx
          rw [List.append_nil]
          exact scan_text_blanks hall hblank hx f
        | cons d r =>
          have hshort : ∀ t g, t.length ≤ (d :: r).length → Cuts g t := by
            intro t g ht
            refine ih _ ?_ g t rfl
            simp only [List.length_cons, List.length_append] at ht ⊢
            omega
          obtain ⟨g, hg, hscan⟩ := cuts_suffix hshort htag
          refine ⟨g, hg, ?_⟩
          intro x hx
          have hend : DelimiterFirst (d :: r ++ x) := hafter
          rw [← List.cons_append, List.append_assoc, scan_text hall hend hblank]
          exact hscan x hx

/-- **Texts that count the same.** Behind any text, two texts can be exchanged that start with the
same weight and whose rests are scanned alike. -/
theorem scan_congr {x y : List Char} (hx : EndsText x) (hy : EndsText y)
    (hweight : (suffix x).1 = (suffix y).1)
    (hrest : ∀ f, scan f (suffix x).2 = scan f (suffix y).2) (f : Frames) (u : List Char) :
    scan f (u ++ x) = scan f (u ++ y) := by
  obtain ⟨g, -, hscan⟩ := cuts f u
  rw [hscan x hx, hscan y hy, hweight, hrest]

/-! ## 3. Blanks that are passed over -/

variable {u v : List Char}

theorem endsText_blanks_append (hw : AllBlank w) (hv : EndsText v) : EndsText (w ++ v) := by
  unfold EndsText
  rw [skipBlanks_append hw]
  exact hv

/-- Blanks in front of a delimiter, or of the end. -/
theorem scan_blanks_before (hw : AllBlank w) (hv : EndsText v) (f : Frames) (u : List Char) :
    scan f (u ++ (w ++ v)) = scan f (u ++ v) := by
  obtain ⟨hweight, hrest⟩ := suffix_blanks_append hw v
  exact scan_congr (endsText_blanks_append hw hv) hv hweight hrest f u

/-- Blanks behind a comma or a parenthesis. -/
theorem scan_blanks_behind {c : Char} (hc : c = ',' ∨ c = '(' ∨ c = ')') (hw : AllBlank w)
    (f : Frames) (u v : List Char) : scan f (u ++ c :: (w ++ v)) = scan f (u ++ c :: v) := by
  rw [scan_append (breaksOff_cons hc _), scan_append (breaksOff_cons hc _)]
  rcases hc with rfl | rfl | rfl
  · rw [scan_comma, scan_comma, scan_append_blanks _ hw]
  · rw [scan_open, scan_open, scan_append_blanks _ hw]
  · by_cases hdepth : (after f u).depth = 0
    · rw [scan_stray_close hdepth, scan_stray_close hdepth, scan_append_blanks _ hw]
    · obtain ⟨hweight, hrest⟩ := suffix_blanks_append hw v
      have hpos := Nat.pos_of_ne_zero hdepth
      rw [scan_close hpos, scan_close hpos, hweight, hrest]

theorem suffix_number {n t : List Char} (hn : numberText (n ++ t) = n) :
    suffix (':' :: (n ++ t)) = (some (writtenWeight n), t) := by
  have hcolon : isBlank ':' = false := by decide
  rw [suffix_of_colon (skipBlanks_cons_of_not_blank hcolon _), hn, List.drop_left]

theorem endsText_delimiter {d : Char} (hd : isDelimiter d = true) (t : List Char) :
    EndsText (d :: t) := by
  unfold EndsText
  rw [skipBlanks_cons_of_not_blank (not_blank_of_isDelimiter hd)]
  intro c hc
  obtain rfl := Option.some.inj hc
  exact hd

theorem endsText_colon (t : List Char) : EndsText (':' :: t) := endsText_delimiter rfl t

theorem stop_of_blanks {b : Char} {bs : List Char} (hb : AllBlank (b :: bs)) (t : List Char) :
    ∀ c ∈ (b :: bs ++ t).head?, isBlank c = true ∨ isDelimiter c = true := by
  intro c hc
  obtain rfl := Option.some.inj hc
  exact Or.inl (hb b List.mem_cons_self)

/-- Blanks behind a weight, and behind other blanks there. -/
theorem scan_blanks_behind_number {n b : List Char} (hb : AllBlank b) (hw : AllBlank w)
    (hn : numberText (n ++ (b ++ v)) = n) (f : Frames) (u : List Char) :
    scan f (u ++ ':' :: (n ++ (b ++ (w ++ v)))) = scan f (u ++ ':' :: (n ++ (b ++ v))) := by
  have hprefix : n <+: numberText (n ++ (b ++ v)) := by
    rw [hn]
  have hself : numberText n = n := numberText_of_prefix hprefix
  have hn' : numberText (n ++ (b ++ (w ++ v))) = n := by
    cases b with
    | cons c b => rw [numberText_append_of_stop (stop_of_blanks hb _), hself]
    | nil =>
      cases w with
      | cons c w => rw [List.nil_append, numberText_append_of_stop (stop_of_blanks hw _), hself]
      | nil => exact hn
  apply scan_congr (endsText_colon _) (endsText_colon _)
  · rw [suffix_number hn, suffix_number hn']
  · intro g
    rw [suffix_number hn, suffix_number hn', scan_append_blanks g hb, scan_append_blanks g hw,
      scan_append_blanks g hb]

/-! ## 4. Places where blanks count -/

/-- Between two texts stands a weight, or the colon in front of one: the digits behind the last
colon of the first text go on in the second. -/
def InWeight (u v : List Char) : Prop :=
  ∃ front digits, u = front ++ ':' :: digits ∧ digits.length < (numberText (digits ++ v)).length

/-- Behind `front`, the text `cs` is read as text of a tag: at the start of a prompt, behind a comma
or a parenthesis, and where a weight ends. -/
def StartsText (front cs : List Char) : Prop :=
  front = [] ∨ (∃ c ∈ front.getLast?, c = ',' ∨ c = '(' ∨ c = ')') ∨
    ∃ first number, front = first ++ ':' :: number ∧ numberText (number ++ cs) = number

/-- Between two texts stands the text of a tag: some of it that is not blank is in the first text,
and it goes on in the second with a character that is neither blank nor a delimiter, behind blanks
or not. -/
def InTagText (u v : List Char) : Prop :=
  (∃ c ∈ (skipBlanks v).head?, isDelimiter c = false) ∧
    ∃ front text, u = front ++ text ∧ StartsText front (text ++ v) ∧ NoDelimiter text ∧
      ¬ AllBlank text

theorem not_endsText_iff : ¬ EndsText v ↔ ∃ c ∈ (skipBlanks v).head?, isDelimiter c = false := by
  simp [EndsText, DelimiterFirst]

/-- Every text is cut in two behind its last delimiter. -/
theorem exists_last_delimiter (cs : List Char) :
    ∃ front text, cs = front ++ text ∧ NoDelimiter text ∧
      (front = [] ∨ ∃ first d, front = first ++ [d] ∧ isDelimiter d = true) := by
  obtain ⟨text, after, htext, hafter, hcs⟩ := exists_text_delimiter cs.reverse
  refine ⟨after.reverse, text.reverse, ?_, ?_, ?_⟩
  · rw [← List.reverse_append, ← hcs, List.reverse_reverse]
  · intro c hc
    exact htext c (List.mem_reverse.mp hc)
  · cases after with
    | nil => exact Or.inl rfl
    | cons d r => exact Or.inr ⟨r.reverse, d, List.reverse_cons, hafter d rfl⟩

/-- **Blanks in all other places are passed over.** -/
theorem scan_blanks (hw : AllBlank w) (hweight : ¬ InWeight u v) (htext : ¬ InTagText u v)
    (f : Frames) : scan f (u ++ (w ++ v)) = scan f (u ++ v) := by
  by_cases hv : EndsText v
  · exact scan_blanks_before hw hv f u
  -- Text goes on behind the blanks, so what stands in front of them is no text of a tag.
  have hblank : ∀ {front text : List Char}, u = front ++ text → NoDelimiter text →
      StartsText front (text ++ v) → AllBlank text := by
    intro front text hu hnone hstart
    by_contra hb
    exact htext ⟨not_endsText_iff.mp hv, front, text, hu, hstart, hnone, hb⟩
  obtain ⟨front, text, rfl, hnone, hfront⟩ := exists_last_delimiter u
  rcases hfront with rfl | ⟨first, d, rfl, hd⟩
  · have hb := hblank rfl hnone (Or.inl rfl)
    rw [List.nil_append, scan_append_blanks f hb, scan_append_blanks f hb, scan_append_blanks f hw]
  · by_cases hcolon : d = ':'
    · subst hcolon
      -- The digits behind the colon are all in the first text.
      have hprefix : numberText (text ++ v) <+: text := by
        have hlen : (numberText (text ++ v)).length ≤ text.length := by
          by_contra hlt
          exact hweight ⟨first, text, by simp, by omega⟩
        exact List.prefix_of_prefix_length_le (numberText_spec _).1 (List.prefix_append text v) hlen
      obtain ⟨rest, hrest⟩ := hprefix
      generalize hnumber : numberText (text ++ v) = number at hrest
      subst hrest
      rw [List.append_assoc] at hnumber
      have hcut : first ++ [':'] ++ (number ++ rest) = first ++ ':' :: number ++ rest := by simp
      have hb : AllBlank rest := by
        apply hblank hcut
        · intro c hc
          exact hnone c (List.mem_append_right number hc)
        · exact Or.inr (Or.inr ⟨first, number, rfl, hnumber⟩)
      simp only [List.append_assoc, List.cons_append, List.nil_append]
      exact scan_blanks_behind_number hb hw hnumber f first
    · have hd' : d = ',' ∨ d = '(' ∨ d = ')' := by
        simp only [isDelimiter, Bool.or_eq_true, beq_iff_eq] at hd
        tauto
      have hb := hblank rfl hnone (Or.inr (Or.inl ⟨d, by simp, hd'⟩))
      simp only [List.append_assoc, List.cons_append, List.nil_append]
      rw [scan_blanks_behind hd' hb, scan_blanks_behind hd' hb, scan_blanks_behind hd' hw]

/-! ## 5. Blanks that are read -/

/-- In the text of a tag, the first character that is not blank is no colon. -/
theorem not_colon_of_text {text : List Char} (hnone : NoDelimiter text) (hblank : ¬ AllBlank text)
    (t : List Char) : (skipBlanks (text ++ t)).head? ≠ some ':' := by
  rw [skipBlanks_append_of_not_allBlank hblank]
  cases hs : skipBlanks text with
  | nil => exact absurd (skipBlanks_eq_nil_iff.mp hs) hblank
  | cons c r =>
    intro hc
    obtain rfl := Option.some.inj hc
    have hmem : ':' ∈ skipBlanks text := by
      rw [hs]
      exact List.mem_cons_self
    have hdelimiter := hnone ':' ((List.dropWhile_suffix isBlank).subset hmem)
    exact absurd hdelimiter (by decide)

/-- Where a tag's text starts, the scan goes on with it, whatever stands behind. -/
theorem exists_frames_of_startsText {front text : List Char} (hstart : StartsText front (text ++ v))
    (hnone : NoDelimiter text) (hblank : ¬ AllBlank text) (f : Frames) :
    ∃ g, ∀ t, scan f (front ++ (text ++ t)) = scan g (text ++ t) := by
  rcases hstart with rfl | ⟨d, hd, hdelimiter⟩ | ⟨first, number, rfl, hnumber⟩
  · exact ⟨f, fun t => rfl⟩
  · obtain ⟨first, rfl⟩ := List.getLast?_eq_some_iff.mp hd
    have hcut : ∀ t, scan f (first ++ [d] ++ (text ++ t))
        = scan (after f first) (d :: (text ++ t)) := by
      intro t
      rw [List.append_assoc, List.singleton_append, scan_append (breaksOff_cons hdelimiter _)]
    rcases hdelimiter with rfl | rfl | rfl
    · refine ⟨after f first, fun t => ?_⟩
      rw [hcut, scan_comma]
    · refine ⟨(after f first).opened, fun t => ?_⟩
      rw [hcut, scan_open]
    · by_cases hdepth : (after f first).depth = 0
      · refine ⟨after f first, fun t => ?_⟩
        rw [hcut, scan_stray_close hdepth]
      · refine ⟨(after f first).closed none, fun t => ?_⟩
        rw [hcut, scan_close (Nat.pos_of_ne_zero hdepth),
          suffix_of_no_colon (not_colon_of_text hnone hblank t)]
  · obtain ⟨g, -, hscan⟩ := cuts f first
    cases text with
    | nil => exact absurd allBlank_nil hblank
    | cons c text =>
      refine ⟨g (some (writtenWeight number)), fun t => ?_⟩
      have hnumber' : numberText (number ++ (c :: text ++ t)) = number :=
        numberText_append_cons hnumber _
      rw [List.append_assoc, List.cons_append, hscan _ (endsText_colon _), suffix_number hnumber']

/-- The tag that a text starts with comes first, and what is read behind the text does not depend
on it. -/
theorem names_scan_text {text after : List Char} (hnone : NoDelimiter text)
    (hafter : DelimiterFirst after) (hblank : ¬ AllBlank text) (f : Frames) :
    namesOf (scan f (text ++ after))
      = namesOf f.tags ++ trimmed text :: namesOf (scan {} after) := by
  rw [scan_text hnone hafter hblank, names_scan, names_tags_add, scan_suffix]
  simp [namesOf]

/-- **Blanks in a tag's text belong to its name.** -/
theorem ne_of_inTagText (hw : AllBlank w) (hne : w ≠ []) (h : InTagText u v) (f : Frames) :
    scan f (u ++ (w ++ v)) ≠ scan f (u ++ v) := by
  obtain ⟨hv, front, text, rfl, hstart, hnone, hblank⟩ := h
  obtain ⟨g, hg⟩ := exists_frames_of_startsText hstart hnone hblank f
  obtain ⟨more, after, hmore, hafter, rfl⟩ := exists_text_delimiter v
  have hmoreBlank : ¬ AllBlank more := by
    intro hb
    apply not_endsText_iff.mpr hv
    apply endsText_blanks_append hb
    cases after with
    | nil => exact hafter
    | cons d r => exact endsText_delimiter (hafter d rfl) r
  have hnames : ∀ {b : List Char}, AllBlank b →
      namesOf (scan f (front ++ text ++ (b ++ (more ++ after))))
        = namesOf g.tags ++ trimmed (text ++ (b ++ more)) :: namesOf (scan {} after) := by
    intro b hb
    have hbmore : NoDelimiter (b ++ more) :=
      List.forall_mem_append.mpr ⟨noDelimiter_of_allBlank hb, hmore⟩
    have hall : NoDelimiter (text ++ (b ++ more)) := List.forall_mem_append.mpr ⟨hnone, hbmore⟩
    have hallBlank : ¬ AllBlank (text ++ (b ++ more)) := by
      intro h
      exact hblank (List.forall_mem_append.mp h).1
    rw [List.append_assoc, hg, ← names_scan_text hall hafter hallBlank]
    simp only [List.append_assoc]
  intro heq
  have hsame := congrArg namesOf heq
  have hnone' := hnames allBlank_nil
  rw [List.nil_append, List.nil_append] at hnone'
  rw [hnames hw, hnone'] at hsame
  -- The names differ by the blanks, and so they are not equally long.
  have hname : trimmed (text ++ (w ++ more)) = trimmed (text ++ more) := by
    simpa using hsame
  have hlen := congrArg List.length hname
  have hwmore : ¬ AllBlank (w ++ more) := by
    intro h
    exact hmoreBlank (List.forall_mem_append.mp h).2
  have hpos := List.length_pos_of_ne_nil hne
  have hreverse : ¬ AllBlank more.reverse := by
    rw [allBlank_reverse_iff]
    exact hmoreBlank
  rw [length_trimmed_append hblank hwmore, length_trimmed_append hblank hmoreBlank,
    List.reverse_append, skipBlanks_append_of_not_allBlank hreverse, List.length_append,
    List.length_reverse] at hlen
  omega

/-- The rest of a weight that was cut off is a tag, or the start of one. -/
theorem names_number_append_ne {m : List Char} (hm : m ≠ [])
    (hnumber : ∀ c ∈ m, c.isDigit = true ∨ c = '.') (cs : List Char) :
    namesOf (scan {} (m ++ cs)) ≠ namesOf (scan {} cs) := by
  have hplain : ∀ c ∈ m, isBlank c = false ∧ isDelimiter c = false := by
    intro c hc
    rcases hnumber c hc with hdigit | rfl
    · exact ⟨not_blank_of_isDigit hdigit, not_isDelimiter_of_isDigit hdigit⟩
    · decide
  have hblank : ¬ AllBlank m := by
    obtain ⟨c, hc⟩ := List.exists_mem_of_ne_nil m hm
    intro h
    exact absurd (h c hc) (by simp [(hplain c hc).1])
  obtain ⟨text, after, htext, hafter, rfl⟩ := exists_text_delimiter cs
  have hall : NoDelimiter (m ++ text) :=
    List.forall_mem_append.mpr ⟨fun c hc => (hplain c hc).2, htext⟩
  have hallBlank : ¬ AllBlank (m ++ text) := by
    intro h
    exact hblank (List.forall_mem_append.mp h).1
  rw [← List.append_assoc, names_scan_text hall hafter hallBlank]
  intro heq
  by_cases htextBlank : AllBlank text
  · rw [scan_append_blanks _ htextBlank] at heq
    simp [namesOf, Frames.tags] at heq
  · rw [names_scan_text htext hafter htextBlank] at heq
    have hname : trimmed (m ++ text) = trimmed text := by
      simpa using heq
    have hlen := congrArg List.length hname
    have hle := length_trimmed_le text
    have hpos := List.length_pos_of_ne_nil hm
    have hskip : skipBlanks m = m := by
      cases m with
      | nil => rfl
      | cons c r => exact skipBlanks_cons_of_not_blank (hplain c List.mem_cons_self).1 r
    rw [length_trimmed_append hblank htextBlank, hskip] at hlen
    omega

/-- **Blanks in a weight end it**, and what is left of it becomes a tag. -/
theorem ne_of_inWeight (hw : AllBlank w) (hne : w ≠ []) (h : InWeight u v) (f : Frames) :
    scan f (u ++ (w ++ v)) ≠ scan f (u ++ v) := by
  obtain ⟨front, digits, rfl, hlt⟩ := h
  obtain ⟨hstart, hplain⟩ := numberText_spec (digits ++ v)
  obtain ⟨more, hmore⟩ : digits <+: numberText (digits ++ v) :=
    List.prefix_of_prefix_length_le (List.prefix_append digits v) hstart (Nat.le_of_lt hlt)
  obtain ⟨rest, hrest⟩ := hstart
  rw [← hmore, List.append_assoc] at hrest
  obtain rfl := List.append_cancel_left hrest
  have hnumber : numberText (digits ++ more ++ rest) = digits ++ more := by
    rw [List.append_assoc]
    exact hmore.symm
  have hnumber' : numberText (digits ++ (w ++ (more ++ rest))) = digits := by
    cases w with
    | nil => exact absurd rfl hne
    | cons b w =>
      have hprefix : digits <+: numberText (digits ++ (more ++ rest)) := by
        rw [← hmore]
        exact List.prefix_append digits more
      rw [numberText_append_of_stop (stop_of_blanks hw _)]
      exact numberText_of_prefix hprefix
  have hne' : more ≠ [] := by
    rintro rfl
    rw [← hmore, List.append_nil] at hlt
    exact Nat.lt_irrefl _ hlt
  obtain ⟨g, hg, hscan⟩ := cuts f front
  have hblanks : scan f (front ++ ':' :: digits ++ (w ++ (more ++ rest)))
      = scan (g (some (writtenWeight digits))) (more ++ rest) := by
    rw [List.append_assoc, List.cons_append, hscan _ (endsText_colon _), suffix_number hnumber',
      scan_append_blanks _ hw]
  have hnone : scan f (front ++ ':' :: digits ++ (more ++ rest))
      = scan (g (some (writtenWeight (digits ++ more)))) rest := by
    rw [List.append_assoc, List.cons_append, ← List.append_assoc digits,
      hscan _ (endsText_colon _), suffix_number hnumber]
  intro heq
  have hnames := congrArg namesOf heq
  rw [hblanks, hnone, names_scan, names_scan _ rest, hg _ (some (writtenWeight (digits ++ more)))]
    at hnames
  have hmorePlain : ∀ c ∈ more, c.isDigit = true ∨ c = '.' := by
    intro c hc
    exact hplain c (hmore ▸ List.mem_append_right digits hc)
  exact names_number_append_ne hne' hmorePlain rest (List.append_cancel_left hnames)

/-! ## 6. Prompts -/

/-- **Layout does not matter next to delimiters.** Blanks can be put in front of a delimiter and
behind a comma or a parenthesis, and at both ends of a prompt. Wherever they are put, they make no
difference but in two places: in a weight, or between it and its colon, and in the text of a tag. In
these they always do. -/
theorem layout_next_to_delimiters {w : String} (hw : AllBlank w.toList) (u v : String) :
    ((u = "" ∨ v = "" ∨ (∃ c ∈ u.toList.getLast?, c = ',' ∨ c = '(' ∨ c = ')') ∨
        (∃ c ∈ v.toList.head?, c = ',' ∨ c = '(' ∨ c = ')' ∨ c = ':')) →
      parse (u ++ w ++ v) = parse (u ++ v)) ∧
    (w ≠ "" → (parse (u ++ w ++ v) = parse (u ++ v) ↔
      ¬ InWeight u.toList v.toList ∧ ¬ InTagText u.toList v.toList)) := by
  have hparse : ∀ x : String, parse (u ++ x) = scan {} (u.toList ++ x.toList) := by
    intro x
    rw [parse_eq_scanText, scanText, String.toList_append]
  rw [String.append_assoc, hparse, hparse, String.toList_append]
  constructor
  · rintro (rfl | rfl | ⟨c, hc, hdelimiter⟩ | ⟨c, hc, hdelimiter⟩)
    · exact scan_append_blanks {} hw v.toList
    · apply scan_blanks_before hw
      exact fun c hc => absurd hc (by simp [skipBlanks])
    · obtain ⟨first, hu⟩ := List.getLast?_eq_some_iff.mp hc
      simp only [hu, List.append_assoc, List.singleton_append]
      exact scan_blanks_behind hdelimiter hw {} first v.toList
    · apply scan_blanks_before hw
      obtain ⟨r, hr⟩ := List.head?_eq_some_iff.mp hc
      have hd : isDelimiter c = true := by
        simp only [isDelimiter, Bool.or_eq_true, beq_iff_eq]
        tauto
      rw [hr]
      exact endsText_delimiter hd r
  · intro hne
    have hne' : w.toList ≠ [] := by simpa using hne
    constructor
    · intro heq
      constructor
      · exact fun h => ne_of_inWeight hw hne' h {} heq
      · exact fun h => ne_of_inTagText hw hne' h {} heq
    · rintro ⟨hweight, htext⟩
      exact scan_blanks hw hweight htext {}

/-- Blanks between a tag and its weight are passed over, and in the weight they are not. -/
theorem layout_next_to_delimiters_weight :
    AllBlank " \n".toList ∧
      parse ("(long hair" ++ " \n" ++ ":1.5), b") = parse ("(long hair" ++ ":1.5), b") ∧
      parse ("(long hair:1" ++ " \n" ++ ".5), b") ≠ parse ("(long hair:1" ++ ".5), b") := by
  have hblank : AllBlank " \n".toList := by decide
  refine ⟨hblank, ?_, ?_⟩
  · apply (layout_next_to_delimiters hblank "(long hair" ":1.5), b").1
    exact Or.inr (Or.inr (Or.inr ⟨':', rfl, by decide⟩))
  · intro heq
    have hplaces := ((layout_next_to_delimiters hblank "(long hair:1" ".5), b").2 (by decide)).mp heq
    apply hplaces.1
    exact ⟨"(long hair".toList, ['1'], rfl, by decide⟩

end PromptTags.Prompt
