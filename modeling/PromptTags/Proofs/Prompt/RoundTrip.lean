/-
Written text, read again.

`serialize` writes names as they are and parts the tags by commas, so what is read again depends on
each tag alone. A name that reads back as itself gives one tag for a weight that is 1.0 or printed
as a number, and one tag more for any other weight, because what is printed for it stands behind
the colon as a name (`scan_text_tag`). A name that does not read back is not among the tags of any
text at all. Together: just the tags with a readable name and a printable weight keep their names
(`parse_serialize`).
-/
import PromptTags.Proofs.Prompt.ReadTags

set_option autoImplicit false

namespace PromptTags.Prompt

open Text Decimal

/-! ## 1. One tag -/

/-- A weight is written only if it is another one than 1.0. -/
theorem beq_defaultWeight_iff (w : Float) : (w == defaultWeight) = true ↔ w = defaultWeight := by
  have hnan : defaultWeight ≠ Float.nan := by decide +kernel
  have hzero : defaultWeight ≠ 0 := by decide +kernel
  have hminus : defaultWeight ≠ -0 := by decide +kernel
  rw [Float.beq_iff_ne_nan_and_eq]
  constructor
  · rintro ⟨-, -, h | ⟨-, h⟩ | ⟨-, h⟩⟩
    · exact h
    · exact absurd h hminus
    · exact absurd h hzero
  · rintro rfl
    exact ⟨hnan, hnan, Or.inl rfl⟩

theorem text_of_default {t : Tag} (h : t.weight = defaultWeight) : t.text = t.name := by
  rw [Tag.text, if_pos ((beq_defaultWeight_iff _).mpr h)]

theorem toList_text_of_weight {t : Tag} (h : t.weight ≠ defaultWeight) :
    t.text.toList = t.name.toList ++ ':' :: printed t.weight := by
  rw [Tag.text, if_neg fun hbeq => h ((beq_defaultWeight_iff _).mp hbeq), String.toList_append,
    String.toList_append, List.append_assoc]
  show _ ++ ([':'] ++ (String.ofList (printed t.weight)).toList) = _
  rw [String.toList_ofList]
  rfl

/-- The tags that are read where a tag with a readable name was written. -/
def reread (t : Tag) : List Tag :=
  if t.weight = defaultWeight then [t]
  else if Printable t.weight then [⟨t.name, rereadWeight t.weight⟩]
  else [⟨t.name, defaultWeight⟩, ⟨String.ofList (printed t.weight), defaultWeight⟩]

theorem reread_of_default {t : Tag} (h : t.weight = defaultWeight) : reread t = [t] := if_pos h

theorem reread_of_printable {t : Tag} (h : t.weight ≠ defaultWeight) (hw : Printable t.weight) :
    reread t = [⟨t.name, rereadWeight t.weight⟩] := by
  rw [reread, if_neg h, if_pos hw]

theorem reread_of_not_printable {t : Tag} (hw : ¬ Printable t.weight) :
    reread t = [⟨t.name, defaultWeight⟩, ⟨String.ofList (printed t.weight), defaultWeight⟩] := by
  have h : t.weight ≠ defaultWeight := fun h => hw (by rw [h]; exact printable_defaultWeight)
  rw [reread, if_neg h, if_neg hw]

theorem delimiterFirst_colon (cs : List Char) : DelimiterFirst (skipBlanks (':' :: cs)) := by
  intro c hc
  rw [← Option.some.inj hc]
  rfl

/-- A name without a weight behind it has the weight 1.0. -/
theorem scan_bare_name {name cs : List Char} (hname : IsPlain name) (hcs : EndsSegment cs)
    (f : Frames) :
    scan f (name ++ cs) = scan (f.add [⟨String.ofList name, defaultWeight⟩]) cs := by
  have hfirst : DelimiterFirst (skipBlanks cs) := delimiterFirst_rendering .none hcs
  have hnone : suffix cs = (none, cs) := suffix_rendering .none hcs
  rw [scan_name hname hfirst, hnone]
  rfl

/-- **A written tag.** Behind it, the scan goes on as if it had added what is read again. -/
theorem scan_text_tag {t : Tag} (hname : IsPlain t.name.toList) {cs : List Char}
    (hcs : EndsSegment cs) (f : Frames) :
    scan f (t.text.toList ++ cs) = scan (f.add (reread t)) cs := by
  by_cases hdefault : t.weight = defaultWeight
  · rw [text_of_default hdefault, scan_bare_name hname hcs, reread_of_default hdefault,
      String.ofList_toList, ← hdefault]
  rw [toList_text_of_weight hdefault, List.append_assoc, List.cons_append,
    scan_name hname (delimiterFirst_colon _), String.ofList_toList]
  by_cases hweight : Printable t.weight
  · rw [suffix_printed hweight hcs, reread_of_printable hdefault hweight]
    rfl
  · -- The colon is read without a weight, and what was printed is the next name.
    rw [suffix_not_printed hweight, scan_bare_name (isPlain_printed hweight) hcs,
      reread_of_not_printable hweight, Frames.add_add]
    rfl

/-! ## 2. A list of tags -/

theorem scan_serialize {es : List Tag} (h : ∀ e ∈ es, IsPlain e.name.toList) (f : Frames) :
    scan f (serialize es).toList = (f.add (es.flatMap reread)).tags := by
  induction es generalizing f with
  | nil =>
    rw [serialize_nil, List.flatMap_nil, Frames.add_nil]
    exact scan_nil f
  | cons e es ih =>
    obtain ⟨he, hes⟩ := List.forall_mem_cons.mp h
    cases es with
    | nil =>
      have hlast := scan_text_tag he endsSegment_nil f
      rw [List.append_nil, scan_nil] at hlast
      rw [serialize_singleton, hlast, List.flatMap_singleton]
    | cons d es =>
      have hsplit : (serialize (e :: d :: es)).toList
          = e.text.toList ++ ',' :: ' ' :: (serialize (d :: es)).toList := by
        rw [serialize_cons_cons, String.toList_append, String.toList_append, List.append_assoc]
        rfl
      rw [hsplit, scan_text_tag he (endsSegment_cons (Or.inl rfl) _), scan_comma,
        scan_blank _ (by decide), ih hes, Frames.add_add, List.flatMap_cons (x := e)]

/-- With readable names, what is written reads as what each tag reads as. -/
theorem parse_serialize_eq {es : List Tag} (h : ∀ e ∈ es, IsPlain e.name.toList) :
    parse (serialize es) = es.flatMap reread := by
  rw [parse_eq_scanText, scanText, scan_serialize h]
  rfl

/-! ## 3. Names and weights that are kept -/

/-- The tag that is read where a readable tag was written. -/
def rereadTag (t : Tag) : Tag :=
  if t.weight = defaultWeight then t else ⟨t.name, rereadWeight t.weight⟩

theorem rereadTag_name (t : Tag) : (rereadTag t).name = t.name := by
  rw [rereadTag]
  split_ifs <;> rfl

theorem reread_eq_singleton {t : Tag} (h : Printable t.weight) : reread t = [rereadTag t] := by
  rw [rereadTag]
  split_ifs with hdefault
  · exact reread_of_default hdefault
  · exact reread_of_printable hdefault h

theorem length_reread_pos (t : Tag) : 1 ≤ (reread t).length := by
  rw [reread]
  split_ifs <;> exact Nat.le_add_left 1 _

/-- Where no tag more is read than was written, all weights are printed as numbers. -/
theorem printable_of_length_flatMap {es : List Tag}
    (h : (es.flatMap reread).length ≤ es.length) : ∀ e ∈ es, Printable e.weight := by
  -- No tag reads as nothing, so none that reads as two can be made up for by another.
  have hlong : ∀ ds : List Tag, ds.length ≤ (ds.flatMap reread).length := by
    intro ds
    induction ds with
    | nil => exact Nat.le_refl 0
    | cons d ds ih =>
      have := length_reread_pos d
      rw [List.flatMap_cons, List.length_append, List.length_cons]
      omega
  induction es with
  | nil => exact fun e he => absurd he List.not_mem_nil
  | cons d ds ih =>
    have hd := length_reread_pos d
    have hds := hlong ds
    rw [List.flatMap_cons, List.length_append, List.length_cons] at h
    refine List.forall_mem_cons.mpr ⟨?_, ih (by omega)⟩
    by_contra hweight
    rw [reread_of_not_printable hweight, List.length_cons, List.length_singleton] at h
    omega

theorem parse_serialize_of_readable {es : List Tag} (h : ∀ e ∈ es, Readable e) :
    parse (serialize es) = es.map rereadTag := by
  rw [parse_serialize_eq fun e he => (h e he).plain, ← List.flatMap_pure_eq_map]
  exact List.flatMap_congr fun e he => reread_eq_singleton (h e he).printable

/-- All names are kept just where every tag is readable. -/
theorem names_parse_serialize_iff (es : List Tag) :
    (parse (serialize es)).map Tag.name = es.map Tag.name ↔ ∀ e ∈ es, Readable e := by
  constructor
  · intro hnames
    -- Every name has been read, so it can be; then only weights are left to add or lose tags.
    have hplain : ∀ e ∈ es, IsPlain e.name.toList := by
      intro e he
      have hmem : e.name ∈ (parse (serialize es)).map Tag.name := by
        rw [hnames]
        exact List.mem_map_of_mem he
      obtain ⟨t, ht, hname⟩ := List.mem_map.mp hmem
      rw [← hname]
      exact (parse_readable _ t ht).plain
    have hlength := congrArg List.length hnames
    rw [List.length_map, List.length_map, parse_serialize_eq hplain] at hlength
    have hweight := printable_of_length_flatMap (Nat.le_of_eq hlength)
    exact fun e he => ⟨hplain e he, hweight e he⟩
  · intro h
    rw [parse_serialize_of_readable h, List.map_map]
    exact List.map_congr_left fun e _ => rereadTag_name e

/-- The weight that is read keeps to the one that was written: 1.0 stays 1.0, and any other weight
becomes the double nearest to what is printed for it. -/
def KeepsWeight (written read : Tag) : Prop :=
  if written.weight = defaultWeight then read.weight = defaultWeight
  else IsNearest read.weight (decimalValue (printed written.weight))

theorem keepsWeight_rereadTag {t : Tag} (h : Printable t.weight) : KeepsWeight t (rereadTag t) := by
  rw [KeepsWeight, rereadTag]
  split_ifs with hdefault
  · exact hdefault
  · exact isNearest_rereadWeight h

/-- **Written text, read again.** The names are kept, in order and number, just where every name is
one that can be read and every weight is finite and without a sign; and where they are kept, each
weight is as it was printed. -/
theorem parse_serialize (es : List Tag) :
    ((parse (serialize es)).map Tag.name = es.map Tag.name ↔ ∀ e ∈ es, Readable e)
      ∧ ((∀ e ∈ es, Readable e) → List.Forall₂ KeepsWeight es (parse (serialize es))) := by
  refine ⟨names_parse_serialize_iff es, fun h => ?_⟩
  rw [parse_serialize_of_readable h, List.forall₂_map_right_iff, List.forall₂_same]
  exact fun e he => keepsWeight_rereadTag (h e he).printable

/-- A weight of 1.0, one that is printed exactly, and one that is rounded. -/
theorem parse_serialize_three :
    let es : List Tag := [⟨"long hair", 1.0⟩, ⟨"smile", 1.25⟩, ⟨"x_x", 0.3333⟩]
    (∀ e ∈ es, Readable e) ∧ List.Forall₂ KeepsWeight es (parse (serialize es)) := by
  intro es
  have hreadable : ∀ e ∈ es, Readable e := by decide +kernel
  exact ⟨hreadable, (parse_serialize es).2 hreadable⟩

end PromptTags.Prompt
