/-
What every tag that is read is like.

A name that is read is never empty, has no blanks at its ends and no delimiter in it. A weight that
is read is finite, because a number out of range counts as 1.0, and so does a product of weights;
and it has no sign, because none is read and products of weights without a sign have none. So every
tag that is read can be written and read again. Each step of the scan keeps this for all open groups
(`step_readable`), so it holds of all tags of a prompt (`parse_readable`).
-/
import PromptTags.Proofs.Decimal.Products
import PromptTags.Proofs.Prompt.PrintedWeight

set_option autoImplicit false

namespace PromptTags.Prompt

open Text Decimal

/-- A tag that reads back under its name: its name could have been read, and its weight is printed
as a number. -/
structure Readable (t : Tag) : Prop where
  plain : IsPlain t.name.toList
  printable : Printable t.weight

theorem readable_iff {t : Tag} : Readable t ↔ IsPlain t.name.toList ∧ Printable t.weight :=
  ⟨fun h => ⟨h.plain, h.printable⟩, fun h => ⟨h.1, h.2⟩⟩

instance (t : Tag) : Decidable (Readable t) := decidable_of_iff _ readable_iff.symm

/-- The tags of all open groups are readable. -/
def Frames.Readable (f : Frames) : Prop :=
  (∀ t ∈ f.top, Prompt.Readable t) ∧ ∀ ts ∈ f.below, ∀ t ∈ ts, Prompt.Readable t

/-! ## 1. Names and weights -/

/-- Text that is cut at a delimiter and trimmed is a name, if anything is left of it. -/
theorem isPlain_trimmed {text : List Char} (htext : NoDelimiter text) (hblank : ¬ AllBlank text) :
    IsPlain (trimmed text) :=
  ⟨fun h => hblank (trimmed_eq_nil_iff.mp h), trimmed_trimmed text,
    fun c hc => htext c (mem_of_mem_trimmed hc)⟩

theorem printable_defaultWeight : Printable defaultWeight := by decide +kernel

theorem printable_writtenWeight (cs : List Char) : Printable (writtenWeight cs) := by
  rw [writtenWeight, finiteNumber?]
  split_ifs with h
  · exact ⟨(Bool.and_eq_true_iff.mp h).2, isNegative_nearest _ _⟩
  · exact printable_defaultWeight

theorem printable_suffix (cs : List Char) : ∀ w ∈ (suffix cs).1, Printable w := by
  intro w hw
  by_cases h : (skipBlanks cs).head? = some ':'
  · obtain ⟨r, hr⟩ := List.head?_eq_some_iff.mp h
    rw [suffix_of_colon hr] at hw
    obtain rfl := Option.some.inj hw
    exact printable_writtenWeight _
  · rw [suffix_of_no_colon h] at hw
    cases hw

theorem printable_suffix_getD (cs : List Char) :
    Printable ((suffix cs).1.getD defaultWeight) := by
  have hall := printable_suffix cs
  cases hw : (suffix cs).1 with
  | none => exact printable_defaultWeight
  | some w => exact hall w hw

theorem printable_scaled {a b : Float} (ha : Printable a) (hb : Printable b) :
    Printable (scaled a b) := by
  rw [scaled]
  split_ifs with h
  · exact ⟨h, isNegative_mul ha.unsigned hb.unsigned⟩
  · exact printable_defaultWeight

/-- A weight on a group leaves the names of its members, and makes weights that can be printed. -/
theorem readable_scaleAll {ts : List Tag} {weight? : Option Float}
    (hweight : ∀ w ∈ weight?, Printable w) (h : ∀ t ∈ ts, Readable t) :
    ∀ t ∈ Tag.scaleAll weight? ts, Readable t := by
  cases weight? with
  | none => exact h
  | some w =>
    intro t ht
    obtain ⟨u, hu, rfl⟩ := List.mem_map.mp ht
    exact ⟨(h u hu).plain, printable_scaled (h u hu).printable (hweight w rfl)⟩

/-! ## 2. One step -/

namespace Frames

theorem readable_add {f : Frames} {t : Tag} (hf : f.Readable) (ht : Prompt.Readable t) :
    (f.add [t]).Readable := by
  refine ⟨fun u hu => ?_, hf.2⟩
  obtain hu | hu := List.mem_append.mp hu
  · exact hf.1 u hu
  · rw [List.mem_singleton.mp hu]
    exact ht

theorem readable_opened {f : Frames} (hf : f.Readable) : f.opened.Readable := by
  rw [opened]
  split_ifs
  · exact ⟨fun _ hu => absurd hu List.not_mem_nil, List.forall_mem_cons.mpr ⟨hf.1, hf.2⟩⟩
  · exact hf

theorem readable_closed {f : Frames} {weight? : Option Float}
    (hweight : ∀ w ∈ weight?, Printable w) (hf : f.Readable) : (f.closed weight?).Readable := by
  rw [closed]
  split
  · exact hf
  · next outer below hbelow =>
    have hall := hf.2
    rw [hbelow, List.forall_mem_cons] at hall
    exact ⟨List.forall_mem_append.mpr ⟨hall.1, readable_scaleAll hweight hf.1⟩, hall.2⟩

theorem readable_tags {f : Frames} (hf : f.Readable) : ∀ t ∈ f.tags, Prompt.Readable t := by
  obtain ⟨top, below⟩ := f
  induction below generalizing top with
  | nil => exact hf.1
  | cons outer below ih =>
    have hall := List.forall_mem_cons.mp hf.2
    exact ih (outer ++ top) ⟨List.forall_mem_append.mpr ⟨hall.1, hf.1⟩, hall.2⟩

end Frames

/-- A step keeps all tags readable. -/
theorem step_readable {f : Frames} (hf : f.Readable) (c : Char) (cs : List Char) :
    (step f c cs).1.Readable := by
  unfold step
  split_ifs with hskip hopen hclose hdepth hcolon
  · exact hf
  · exact Frames.readable_opened hf
  · exact hf
  · exact Frames.readable_closed (printable_suffix cs) hf
  · exact hf
  · simp only [Bool.or_eq_true, beq_iff_eq, not_or, Bool.not_eq_true] at hskip
    -- A name is cut off at a delimiter, and its first character is not blank.
    obtain ⟨hblank, hcomma⟩ := hskip
    refine Frames.readable_add hf ⟨?_, printable_suffix_getD _⟩
    show IsPlain (String.ofList _).toList
    rw [String.toList_ofList]
    refine isPlain_trimmed ?_ fun hall => ?_
    · intro a ha
      obtain rfl | ha := List.mem_cons.mp ha
      · simp [isDelimiter, hcomma, hopen, hclose, hcolon]
      · simpa using List.mem_takeWhile_imp ha
    · rw [hall c List.mem_cons_self] at hblank
      exact absurd hblank Bool.noConfusion

/-! ## 3. A whole scan -/

theorem scan_readable {f : Frames} (hf : f.Readable) (cs : List Char) :
    ∀ t ∈ scan f cs, Readable t := by
  induction f, cs using scan.induct with
  | case1 f =>
    rw [scan_nil]
    exact Frames.readable_tags hf
  | case2 f c cs ih =>
    rw [scan]
    exact ih (step_readable hf c cs)

/-- **Every tag that is read** has a name that reads back as itself, and a weight that is printed as
a number. -/
theorem parse_readable (text : String) : ∀ t ∈ parse text, Readable t := by
  rw [parse_eq_scanText, scanText]
  exact scan_readable ⟨fun _ h => absurd h List.not_mem_nil, fun _ h => absurd h List.not_mem_nil⟩ _

end PromptTags.Prompt
