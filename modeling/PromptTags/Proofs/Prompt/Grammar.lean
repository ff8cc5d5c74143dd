/-
The meaning of prompt text.

An expression is a tag or a group of expressions, and either may have a weight, as it is written.
`Renders` and `RendersAll` say which texts stand for it: a group stands in parentheses, members are
parted by commas, a weight follows a colon, and blanks may stand anywhere around these parts but
not behind a colon. Segments between commas may be empty. `Expr.leaves` is what an expression means
on its own, without any text: its tags from left to right, each with its weight multiplied by those
of the groups around it, from the inside out.

Reading a text gives the meaning of every expression that it renders (`parse_rendering`). The proof
goes through the scan: behind a rendering, the scan goes on as if it had just added the leaves.
-/
import PromptTags.Proofs.Prompt.ReaderScan

set_option autoImplicit false

namespace PromptTags.Prompt

open Text
open Decimal (AllDigits NoDigitFirst)

/-! ## 1. Expressions -/

/-- The name of a tag. -/
structure Name where
  chars : List Char
  plain : IsPlain chars

/-- A weight as it is written: digits with at most one point, perhaps nothing at all. -/
structure Literal where
  chars : List Char
  digits : ∀ c ∈ chars, c.isDigit = true ∨ c = '.'
  point : chars.count '.' ≤ 1

def Literal.weight (l : Literal) : Float := writtenWeight l.chars

/-- A tag or a group, with the weight that is written behind it. -/
inductive Expr where
  | tag (name : Name) (weight? : Option Literal)
  | group (members : List Expr) (weight? : Option Literal)

mutual
/-- How many groups are nested in each other. -/
def Expr.depth : Expr → Nat
  | .tag _ _ => 0
  | .group es _ => depthAll es + 1

/-- The same for several expressions beside each other. -/
def depthAll : List Expr → Nat
  | [] => 0
  | e :: es => max e.depth (depthAll es)
end

mutual
/-- The tags of an expression from left to right. The weights of the groups around it are `around`,
from the inside out; each is multiplied in before the next one. -/
def Expr.leaves (around : List Float) : Expr → List Tag
  | .tag name weight? =>
    [⟨String.ofList name.chars,
      around.foldl scaled ((weight?.map Literal.weight).getD defaultWeight)⟩]
  | .group es weight? => leavesAll ((weight?.map Literal.weight).toList ++ around) es

def leavesAll (around : List Float) : List Expr → List Tag
  | [] => []
  | e :: es => e.leaves around ++ leavesAll around es
end

/-! ## 2. Renderings -/

/-- The text of a weight behind a tag or a group. -/
inductive RendersWeight : Option Literal → List Char → Prop where
  | none : RendersWeight none []
  | some {w : List Char} (l : Literal) (hw : AllBlank w) :
      RendersWeight (some l) (w ++ ':' :: l.chars)

mutual
/-- The text of one expression, from its first to its last character. -/
inductive Renders : Expr → List Char → Prop where
  | tag {weight? : Option Literal} {s : List Char} (name : Name) (hs : RendersWeight weight? s) :
      Renders (.tag name weight?) (name.chars ++ s)
  | group {es : List Expr} {weight? : Option Literal} {body s : List Char}
      (hbody : RendersAll es body) (hs : RendersWeight weight? s) :
      Renders (.group es weight?) ('(' :: body ++ ')' :: s)

/-- The text of several expressions between commas; a segment without an expression is blank. -/
inductive RendersAll : List Expr → List Char → Prop where
  | blank {w : List Char} (hw : AllBlank w) : RendersAll [] w
  | last {e : Expr} {v t w : List Char} (hv : AllBlank v) (ht : Renders e t) (hw : AllBlank w) :
      RendersAll [e] (v ++ t ++ w)
  | skip {es : List Expr} {w u : List Char} (hw : AllBlank w) (hu : RendersAll es u) :
      RendersAll es (w ++ ',' :: u)
  | cons {e : Expr} {es : List Expr} {v t w u : List Char} (hv : AllBlank v) (ht : Renders e t)
      (hw : AllBlank w) (hu : RendersAll es u) : RendersAll (e :: es) (v ++ t ++ w ++ ',' :: u)
end

/-! ## 3. Weights of groups -/

mutual
/-- One more group around an expression multiplies its weight into every leaf, last of all. -/
theorem Expr.leaves_append (around : List Float) (w : Float) :
    (e : Expr) → e.leaves (around ++ [w]) = (e.leaves around).map (Tag.scale w)
  | .tag name weight? => by
    rw [Expr.leaves, Expr.leaves, List.foldl_append]
    rfl
  | .group es weight? => by
    rw [Expr.leaves, Expr.leaves, ← List.append_assoc, leavesAll_append]

theorem leavesAll_append (around : List Float) (w : Float) :
    (es : List Expr) → leavesAll (around ++ [w]) es = (leavesAll around es).map (Tag.scale w)
  | [] => rfl
  | e :: es => by
    rw [leavesAll, leavesAll, List.map_append, Expr.leaves_append, leavesAll_append]
end

theorem leaves_group (es : List Expr) (weight? : Option Literal) :
    (Expr.group es weight?).leaves []
      = Tag.scaleAll (weight?.map Literal.weight) (leavesAll [] es) := by
  cases weight? with
  | none => rfl
  | some l => exact leavesAll_append [] l.weight es

/-! ## 4. Scanning a rendering -/

/-- What may follow an expression: blanks, and then the end of the segment. -/
def EndsSegment (cs : List Char) : Prop := ∀ c ∈ (skipBlanks cs).head?, c = ',' ∨ c = ')'

theorem endsSegment_append {w : List Char} (hw : AllBlank w) {cs : List Char}
    (h : EndsSegment cs) : EndsSegment (w ++ cs) := by
  rw [EndsSegment, skipBlanks_append hw]
  exact h

theorem endsSegment_cons {c : Char} (h : c = ',' ∨ c = ')') (cs : List Char) :
    EndsSegment (c :: cs) := by
  have hb : isBlank c = false := by
    obtain rfl | rfl := h <;> decide
  rw [EndsSegment, skipBlanks_cons_of_not_blank hb]
  intro d hd
  rw [← Option.some.inj hd]
  exact h

theorem endsSegment_nil : EndsSegment [] := by
  intro c hc
  exact absurd hc (by simp [skipBlanks])

theorem head_of_endsSegment {cs : List Char} (h : EndsSegment cs) :
    ∀ c ∈ cs.head?, isBlank c = true ∨ c = ',' ∨ c = ')' := by
  cases cs with
  | nil => exact fun c hc => absurd hc (by simp)
  | cons c r =>
    intro d hd
    rw [← Option.some.inj hd]
    cases hb : isBlank c with
    | true => exact Or.inl rfl
    | false =>
      refine Or.inr (h c ?_)
      rw [skipBlanks_cons_of_not_blank hb]
      rfl

/-- No weight is longer for what stands behind its segment. -/
theorem not_number_of_endsSegment {cs : List Char} (h : EndsSegment cs) :
    NoDigitFirst cs ∧ cs.head? ≠ some '.' := by
  constructor
  · intro c hc
    cases hd : c.isDigit with
    | false => rfl
    | true =>
      obtain hb | rfl | rfl := head_of_endsSegment h c hc
      · rw [not_blank_of_isDigit hd] at hb
        exact absurd hb Bool.false_ne_true
      · exact absurd hd (by decide)
      · exact absurd hd (by decide)
  · intro hp
    obtain hb | hc | hc := head_of_endsSegment h '.' hp
    · exact absurd hb (by decide)
    · exact absurd hc (by decide)
    · exact absurd hc (by decide)

theorem literal_cases (l : Literal) :
    AllDigits l.chars ∨ ∃ whole fraction, AllDigits whole ∧ AllDigits fraction ∧
      l.chars = whole ++ '.' :: fraction := by
  obtain ⟨whole, r, hwhole, hr, hpoint, hl⟩ | ⟨whole, fraction, r, hwhole, hfraction, hr, hl⟩ :=
    number_cases l.chars
  · cases r with
    | nil => exact Or.inl (by rw [hl, List.append_nil]; exact hwhole)
    | cons c r =>
      obtain hc | rfl := l.digits c (by rw [hl]; exact List.mem_append_right _ List.mem_cons_self)
      · rw [hr c rfl] at hc
        exact absurd hc Bool.false_ne_true
      · exact absurd rfl hpoint
  · cases r with
    | nil => exact Or.inr ⟨whole, fraction, hwhole, hfraction, by rw [hl, List.append_nil]⟩
    | cons c r =>
      have hmem : c ∈ l.chars := by
        rw [hl]
        exact List.mem_append_right _
          (List.mem_cons_of_mem _ (List.mem_append_right _ List.mem_cons_self))
      obtain hc | rfl := l.digits c hmem
      · rw [hr c rfl] at hc
        exact absurd hc Bool.false_ne_true
      · -- A point behind the fraction would be the second one.
        have hcount := l.point
        rw [hl, List.count_append, List.count_cons_self, List.count_append,
          List.count_cons_self] at hcount
        omega

/-- A literal is cut off as a whole at the end of its segment. -/
theorem numberText_literal (l : Literal) {cs : List Char} (hcs : EndsSegment cs) :
    numberText (l.chars ++ cs) = l.chars := by
  obtain ⟨hdigit, hpoint⟩ := not_number_of_endsSegment hcs
  obtain hl | ⟨whole, fraction, hwhole, hfraction, hl⟩ := literal_cases l
  · exact numberText_whole hl hdigit hpoint
  · rw [hl, List.append_assoc, List.cons_append, numberText_fraction hwhole hfraction hdigit]

theorem suffix_rendering {weight? : Option Literal} {s cs : List Char}
    (hs : RendersWeight weight? s) (hcs : EndsSegment cs) :
    suffix (s ++ cs) = (weight?.map Literal.weight, cs) := by
  cases hs with
  | none =>
    refine suffix_of_no_colon fun hcolon => ?_
    obtain h | h := hcs ':' hcolon
    · exact absurd h (by decide)
    · exact absurd h (by decide)
  | @some w l hw =>
    have hskip : skipBlanks (w ++ ':' :: l.chars ++ cs) = ':' :: (l.chars ++ cs) := by
      rw [List.append_assoc, skipBlanks_append hw]
      rfl
    rw [suffix_of_colon hskip, numberText_literal l hcs, List.drop_left]
    rfl

/-- Behind a name stand blanks, and then its weight or the end of the segment. -/
theorem delimiterFirst_rendering {weight? : Option Literal} {s cs : List Char}
    (hs : RendersWeight weight? s) (hcs : EndsSegment cs) :
    DelimiterFirst (skipBlanks (s ++ cs)) := by
  cases hs with
  | none =>
    intro c hc
    obtain rfl | rfl := hcs c hc <;> rfl
  | some l hw =>
    rw [List.append_assoc, skipBlanks_append hw]
    intro c hc
    rw [← Option.some.inj hc]
    rfl

mutual
/-- Behind an expression, the scan goes on as if it had added its leaves. -/
theorem scan_renders : {e : Expr} → {t : List Char} → Renders e t → (f : Frames) →
    f.depth + e.depth ≤ maxDepth → {cs : List Char} → EndsSegment cs →
    scan f (t ++ cs) = scan (f.add (e.leaves [])) cs
  | _, _, .tag name hs, f, _, cs, hcs => by
    rw [List.append_assoc, scan_name name.plain (delimiterFirst_rendering hs hcs),
      suffix_rendering hs hcs]
    rfl
  | _, _, @Renders.group es _ body s hbody hs, f, hdepth, cs, hcs => by
    rw [Expr.depth] at hdepth
    have hlt : f.depth < maxDepth := by omega
    have hopened : f.opened.depth = f.depth + 1 := Frames.depth_opened_of_lt hlt
    -- The members are added to a group of their own, and then this is closed.
    have hinner := scan_rendersAll hbody f.opened (by rw [hopened]; omega)
      (endsSegment_cons (Or.inr rfl) (s ++ cs))
    have hclose : 0 < (f.opened.add (leavesAll [] es)).depth := by
      rw [Frames.depth_add, hopened]
      exact Nat.succ_pos _
    rw [List.cons_append, List.cons_append, List.append_assoc, List.cons_append, scan_open, hinner,
      scan_close hclose, suffix_rendering hs hcs, Frames.closed_add_opened hlt, leaves_group]

/-- The same for several expressions between commas. -/
theorem scan_rendersAll : {es : List Expr} → {t : List Char} → RendersAll es t → (f : Frames) →
    f.depth + depthAll es ≤ maxDepth → {cs : List Char} → EndsSegment cs →
    scan f (t ++ cs) = scan (f.add (leavesAll [] es)) cs
  | _, _, .blank hw, f, _, cs, _ => by
    rw [scan_append_blanks f hw, leavesAll, Frames.add_nil]
  | _, _, .last hv ht hw, f, hdepth, cs, hcs => by
    rw [depthAll, depthAll] at hdepth
    rw [List.append_assoc, List.append_assoc, scan_append_blanks f hv,
      scan_renders ht f (by omega) (endsSegment_append hw hcs), scan_append_blanks _ hw, leavesAll,
      leavesAll, List.append_nil]
  | _, _, .skip hw hu, f, hdepth, cs, hcs => by
    rw [List.append_assoc, scan_append_blanks f hw, List.cons_append, scan_comma,
      scan_rendersAll hu f hdepth hcs]
  | _, _, @RendersAll.cons _ _ _ _ _ u hv ht hw hu, f, hdepth, cs, hcs => by
    rw [depthAll] at hdepth
    rw [List.append_assoc, List.append_assoc, List.append_assoc, scan_append_blanks f hv,
      List.cons_append, scan_renders ht f (by omega)
        (endsSegment_append hw (endsSegment_cons (Or.inl rfl) (u ++ cs))),
      scan_append_blanks _ hw, scan_comma,
      scan_rendersAll hu _ (by rw [Frames.depth_add]; omega) hcs, Frames.add_add, leavesAll]
end

/-! ## 5. Reading a rendering -/

theorem depthAll_le {es : List Expr} {n : Nat} (h : ∀ e ∈ es, e.depth ≤ n) : depthAll es ≤ n := by
  induction es with
  | nil => exact Nat.zero_le n
  | cons e es ih =>
    exact Nat.max_le.mpr
      ⟨h e List.mem_cons_self, ih fun x hx => h x (List.mem_cons_of_mem e hx)⟩

/-- **The meaning of prompt text.** A text that renders some expressions is read as their leaves
from left to right, whatever its layout. -/
theorem parse_rendering {es : List Expr} {text : String} (htext : RendersAll es text.toList)
    (hdepth : ∀ e ∈ es, e.depth ≤ maxDepth) : parse text = leavesAll [] es := by
  have hroom : ({} : Frames).depth + depthAll es ≤ maxDepth := by
    show 0 + depthAll es ≤ maxDepth
    rw [Nat.zero_add]
    exact depthAll_le hdepth
  have hscan := scan_rendersAll htext {} hroom endsSegment_nil
  rw [List.append_nil, scan_nil] at hscan
  rw [parse_eq_scanText, scanText, hscan]
  rfl

/-- Two nested groups with weights, with blanks of two kinds and an empty segment. The weights are
2 · 3 · 0.5 and 1 · 3 · 0.5 inside, and 1 outside. -/
theorem parse_rendering_nested :
    let a : Expr := .tag ⟨['a'], by decide⟩ (some ⟨['2'], by decide, by decide⟩)
    let b : Expr := .tag ⟨['b', ' ', 'c'], by decide⟩ none
    let inner : Expr := .group [a, b] (some ⟨['3', '.'], by decide, by decide⟩)
    let es : List Expr := [.group [inner] (some ⟨['.', '5'], by decide, by decide⟩), b]
    let text := "( (a :2, b c ):3.\t) :.5 ,, b c"
    RendersAll es text.toList ∧ (∀ e ∈ es, e.depth ≤ maxDepth) ∧
      parse text = leavesAll [] es ∧
      parse text = [⟨"a", 3.0⟩, ⟨"b c", 1.5⟩, ⟨"b c", 1.0⟩] := by
  intro a b inner es text
  have ha : Renders a (['a'] ++ ([' '] ++ ':' :: ['2'])) := .tag _ (.some _ (by decide))
  have hb : Renders b (['b', ' ', 'c'] ++ []) := .tag _ .none
  have hnil : AllBlank [] := allBlank_nil
  have hsp : AllBlank [' '] := by decide
  have htab : AllBlank ['\t'] := by decide
  have hinner : Renders inner _ :=
    .group (.cons hnil ha hnil (.last hsp hb hsp)) (.some _ hnil)
  have hes : RendersAll es _ :=
    .cons hnil (.group (.last hsp hinner htab) (.some _ hsp)) hsp
      (.skip hnil (.last hsp hb hnil))
  have htext : RendersAll es text.toList := by
    convert hes using 1
    decide
  have hdepth : ∀ e ∈ es, e.depth ≤ maxDepth := by decide
  have hparse := parse_rendering htext hdepth
  have hleaves : leavesAll [] es = [⟨"a", 3.0⟩, ⟨"b c", 1.5⟩, ⟨"b c", 1.0⟩] := by decide +kernel
  exact ⟨htext, hdepth, hparse, hparse.trans hleaves⟩

end PromptTags.Prompt
