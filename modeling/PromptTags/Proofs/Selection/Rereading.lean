/-
A selection that is written and read again.

A selection whose tags are all readable comes back tag by tag (`tags_ofText_text`), and every
selection that was read from text is such a one (`readable_ofText`). Its weights are rounded to what
is printed for them by the first writing, and stay as they are from then on (`rereadTag_rereadTag`).
So the text settles with the second writing at the latest. The first one is not the last just where
a weight is rounded to 1.0: it is written with its two decimals then, and left out the next time
(`normalize_settles`).
-/
import PromptTags.Proofs.Prompt.RoundTrip
import PromptTags.Proofs.Selection.Import

set_option autoImplicit false

namespace PromptTags

open Text Prompt Decimal

/-! ## 1. What comes back -/

namespace Selection

variable {s : Selection}

theorem names_tags (s : Selection) : s.tags.map Tag.name = s.names := by
  rw [tags, names, List.map_map]
  rfl

/-- What is read is an entry with the name and the weight of a tag of the text. -/
theorem mem_ofText {text : String} {e : Entry} (he : e ∈ (ofText text).entries) :
    ∃ t ∈ parse text, e.name = t.name ∧ e.weight = t.weight := by
  rw [ofText_eq] at he
  rcases mem_importTags he with hold | ⟨t, ht, hname, hweight⟩
  · exact absurd hold List.not_mem_nil
  · have hkey := isKey_of_isPlain (parse_readable text t ht).plain
    rw [hkey.trim_eq] at hname
    exact ⟨t, ht, hname, hweight⟩

/-- Every selection that was read can be written and read again. -/
theorem readable_ofText (text : String) : ∀ t ∈ (ofText text).tags, Readable t := by
  intro t ht
  obtain ⟨e, he, rfl⟩ := List.mem_map.mp ht
  obtain ⟨u, hu, hname, hweight⟩ := mem_ofText he
  have hsame : e.tag = u := by rw [Entry.tag, hname, hweight]
  rw [hsame]
  exact parse_readable text u hu

/-- The tags that are read have different names, so each of them becomes an entry. -/
theorem entries_ofText_text (hnodup : s.names.Nodup) (h : ∀ t ∈ s.tags, Readable t) :
    (ofText s.text).entries = (s.tags.map rereadTag).map fun t => ⟨t.name, none, t.weight⟩ := by
  have hparse : parse s.text = s.tags.map rereadTag := parse_serialize_of_readable h
  have hnames : (parse s.text).map Tag.name = s.names := by
    rw [hparse, List.map_map, ← names_tags]
    exact List.map_congr_left fun t _ => rereadTag_name t
  have hkeys : ∀ t ∈ parse s.text, IsKey t.name := fun t ht =>
    isKey_of_isPlain (parse_readable s.text t ht).plain
  have hdistinct : (empty.names ++ (parse s.text).map Tag.name).Nodup := by
    rw [hnames]
    exact hnodup
  rw [ofText_eq, importTags_new hkeys hdistinct, hparse]
  rfl

/-- **A selection comes back** with the weights as they are read where they were printed. -/
theorem tags_ofText_text (hnodup : s.names.Nodup) (h : ∀ t ∈ s.tags, Readable t) :
    (ofText s.text).tags = s.tags.map rereadTag := by
  rw [tags, entries_ofText_text hnodup h, List.map_map]
  exact List.map_id _

end Selection

/-! ## 2. Weights that are printed again -/

namespace Prompt

theorem printed_defaultWeight : printed defaultWeight = ['1', '.', '0', '0'] := by decide +kernel

theorem rereadWeight_defaultWeight : rereadWeight defaultWeight = defaultWeight := by
  decide +kernel

/-- What is printed says which weight is read. -/
theorem rereadWeight_eq_of_printed_eq {v w : Float} (hv : Printable v) (hw : Printable w)
    (h : printed v = printed w) : rereadWeight v = rereadWeight w := by
  obtain ⟨_, _, _, _, _, hreadv, _⟩ := printed_spec hv
  obtain ⟨_, _, _, _, _, hreadw, _⟩ := printed_spec hw
  rw [← hreadv, ← hreadw, h]

/-- A weight is read as 1.0 just where it is printed like it. -/
theorem rereadWeight_eq_defaultWeight_iff {w : Float} (h : Printable w) :
    rereadWeight w = defaultWeight ↔ printed w = printed defaultWeight := by
  constructor
  · intro hread
    rw [← printed_rereadWeight h, hread]
  · intro hprinted
    rw [rereadWeight_eq_of_printed_eq h printable_defaultWeight hprinted,
      rereadWeight_defaultWeight]

theorem rereadTag_of_default {t : Tag} (h : t.weight = defaultWeight) : rereadTag t = t := if_pos h

theorem rereadTag_of_weight {t : Tag} (h : t.weight ≠ defaultWeight) :
    rereadTag t = ⟨t.name, rereadWeight t.weight⟩ := if_neg h

/-- What has been read once is read the same again. -/
theorem rereadTag_rereadTag {t : Tag} (h : Printable t.weight) :
    rereadTag (rereadTag t) = rereadTag t := by
  by_cases hdefault : t.weight = defaultWeight
  · rw [rereadTag_of_default hdefault, rereadTag_of_default hdefault]
  rw [rereadTag_of_weight hdefault]
  by_cases hread : rereadWeight t.weight = defaultWeight
  · exact rereadTag_of_default hread
  · rw [rereadTag_of_weight hread]
    show (⟨t.name, rereadWeight (rereadWeight t.weight)⟩ : Tag) = _
    rw [rereadWeight_eq_of_printed_eq (printable_rereadWeight h) h (printed_rereadWeight h)]

/-! ## 3. Texts that are written again -/

/-- A weight that is none, but is printed like 1.0. -/
def LooksDefault (w : Float) : Prop := w ≠ defaultWeight ∧ fixed weightPlaces w = "1.00"

theorem looksDefault_iff {w : Float} :
    LooksDefault w ↔ w ≠ defaultWeight ∧ printed w = printed defaultWeight := by
  rw [LooksDefault, printed_defaultWeight, ← String.toList_inj, fixed, String.toList_ofList]
  rfl

theorem text_rereadTag {t : Tag} (h : Printable t.weight) (hlooks : ¬ LooksDefault t.weight) :
    (rereadTag t).text = t.text := by
  by_cases hdefault : t.weight = defaultWeight
  · rw [rereadTag_of_default hdefault]
  rw [looksDefault_iff, not_and, ← rereadWeight_eq_defaultWeight_iff h] at hlooks
  have hread : (rereadTag t).weight ≠ defaultWeight := by
    rw [rereadTag_of_weight hdefault]
    exact hlooks hdefault
  rw [← String.toList_inj, toList_text_of_weight hread, toList_text_of_weight hdefault,
    rereadTag_of_weight hdefault, printed_rereadWeight h]

/-- The decimals of a weight that looks like 1.0 are not written a second time. -/
theorem length_text_rereadTag_lt {t : Tag} (h : Printable t.weight)
    (hlooks : LooksDefault t.weight) : (rereadTag t).text.length < t.text.length := by
  obtain ⟨hweight, hprinted⟩ := looksDefault_iff.mp hlooks
  have hread : (rereadTag t).weight = defaultWeight := by
    rw [rereadTag_of_weight hweight]
    exact (rereadWeight_eq_defaultWeight_iff h).mpr hprinted
  rw [text_of_default hread, rereadTag_name, ← String.length_toList, ← String.length_toList,
    toList_text_of_weight hweight, List.length_append, List.length_cons]
  omega

theorem length_text_rereadTag_le {t : Tag} (h : Printable t.weight) :
    (rereadTag t).text.length ≤ t.text.length := by
  by_cases hlooks : LooksDefault t.weight
  · exact Nat.le_of_lt (length_text_rereadTag_lt h hlooks)
  · rw [text_rereadTag h hlooks]

/-- The text of some tags is as long as what is written for each of them, and what stands
between. -/
theorem length_serialize (ts : List Tag) :
    (serialize ts).length = (ts.map fun t => t.text.length).sum + 2 * (ts.length - 1) := by
  induction ts with
  | nil => rfl
  | cons t ts ih =>
    cases ts with
    | nil => rw [serialize_singleton]; simp
    | cons u ts =>
      have hcomma : ", ".length = 2 := rfl
      rw [serialize_cons_cons, String.length_append, String.length_append, ih]
      simp only [List.map_cons, List.sum_cons, List.length_cons]
      omega

theorem serialize_congr {ts us : List Tag} (h : ts.map Tag.text = us.map Tag.text) :
    serialize ts = serialize us := by
  rw [serialize, serialize, h]

/-- Where no tag is written longer, the same text is written just where no tag is written
shorter. -/
theorem serialize_map_rereadTag_iff {ts : List Tag} (h : ∀ t ∈ ts, Printable t.weight) :
    serialize (ts.map rereadTag) = serialize ts ↔ ∀ t ∈ ts, ¬ LooksDefault t.weight := by
  constructor
  · intro heq t ht hlooks
    have hlt : ((ts.map rereadTag).map fun t => t.text.length).sum
        < (ts.map fun t => t.text.length).sum := by
      rw [List.map_map]
      exact List.sum_lt_sum _ _ (fun u hu => length_text_rereadTag_le (h u hu))
        ⟨t, ht, length_text_rereadTag_lt (h t ht) hlooks⟩
    have hlength := congrArg String.length heq
    rw [length_serialize, length_serialize, List.length_map] at hlength
    omega
  · intro hlooks
    refine serialize_congr ?_
    rw [List.map_map]
    exact List.map_congr_left fun t ht => text_rereadTag (h t ht) (hlooks t ht)

/-! ## 4. The flat form -/

/-- Reading a text, writing it and reading it again. -/
theorem tags_ofText_normalize (text : String) :
    (Selection.ofText (normalize text)).tags = (Selection.ofText text).tags.map rereadTag :=
  Selection.tags_ofText_text (Selection.wellFormed_ofText text).nodup
    (Selection.readable_ofText text)

/-- **The flat form settles.** A prompt that is put into flat form twice stays as it is, and once is
enough just where no weight that is not 1.0 is printed like it. -/
theorem normalize_settles (text : String) :
    normalize (normalize (normalize text)) = normalize (normalize text) ∧
      (normalize text = normalize (normalize text) ↔
        ∀ e ∈ (Selection.ofText text).entries,
          ¬ (e.weight ≠ defaultWeight ∧ fixed weightPlaces e.weight = "1.00")) := by
  have hprintable : ∀ t ∈ (Selection.ofText text).tags, Printable t.weight := fun t ht =>
    (Selection.readable_ofText text t ht).printable
  have hfirst : normalize (normalize text)
      = serialize ((Selection.ofText text).tags.map rereadTag) := by
    rw [normalize, Selection.text, tags_ofText_normalize]
  constructor
  · -- The second time, the weights are those that are read where they were printed.
    have hsecond : normalize (normalize (normalize text))
        = serialize (((Selection.ofText text).tags.map rereadTag).map rereadTag) := by
      rw [normalize, Selection.text, tags_ofText_normalize, tags_ofText_normalize]
    rw [hsecond, hfirst, List.map_map]
    exact congrArg serialize (List.map_congr_left fun t ht => rereadTag_rereadTag (hprintable t ht))
  · rw [hfirst, eq_comm]
    refine (serialize_map_rereadTag_iff hprintable).trans ?_
    exact List.forall_mem_map

/-- A product next to 1.0 is written with its decimals once. -/
example : normalize "(a:0.9999):1.0001" = "a:1.00" ∧ normalize "a:1.00" = "a" := by decide +kernel

end Prompt

end PromptTags
