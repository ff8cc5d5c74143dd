/-
Tags that are read into a selection.

Importing a tag picks its name if it is new, and gives it the weight of the tag in any case. So
every entry afterwards is one from before or has the name and the weight of an imported tag
(`mem_importTags`), and tags that are all new and different simply come last (`importTags_new`).
A selection that was read from text is well formed and has finite weights.
-/
import PromptTags.Proofs.Selection.Invariant

set_option autoImplicit false

namespace PromptTags

open Text

namespace Selection

variable {s : Selection}

/-! ## 1. One tag -/

theorem importTag_eq (s : Selection) (t : Tag) :
    s.importTag t = (s.add t.name none).2.updateWeight t.name fun _ => t.weight := rfl

theorem wellFormed_importTag (h : s.WellFormed) (t : Tag) : (s.importTag t).WellFormed :=
  wellFormed_updateWeight (wellFormed_add h t.name none) t.name _

theorem finiteWeights_importTag (h : s.FiniteWeights) {t : Tag} (ht : t.weight.isFinite = true) :
    (s.importTag t).FiniteWeights :=
  finiteWeights_updateWeight (finiteWeights_add h t.name none) t.name fun _ _ => ht

/-- An entry is the imported one, or it was there before. -/
theorem mem_importTag {t : Tag} {e : Entry} (he : e ∈ (s.importTag t).entries) :
    e ∈ s.entries ∨ e.name = trim t.name ∧ e.weight = t.weight := by
  simp only [importTag_eq, updateWeight, List.mem_map] at he
  obtain ⟨d, hd, rfl⟩ := he
  by_cases hname : d.hasName (trim t.name) = true
  · rw [Entry.reweigh, if_pos hname]
    exact Or.inr ⟨eq_of_beq hname, rfl⟩
  · -- An entry of another name is not the one that was added.
    rw [Entry.reweigh, if_neg hname]
    rcases mem_add hd with hold | hnew
    · exact Or.inl hold
    · exact absurd (beq_iff_eq.mpr (congrArg Entry.name hnew)) hname

theorem reweigh_of_ne {name : String} {e : Entry} (h : e.name ≠ name) (change : Float → Float) :
    e.reweigh name change = e := by
  rw [Entry.reweigh, if_neg]
  exact fun hname => h (eq_of_beq hname)

theorem reweigh_of_not_mem {name : String} {es : List Entry} (h : name ∉ es.map Entry.name)
    (change : Float → Float) : es.map (Entry.reweigh name change) = es := by
  conv_rhs => rw [← List.map_id es]
  apply List.map_congr_left
  intro e he
  apply reweigh_of_ne
  rintro rfl
  exact h (List.mem_map_of_mem he)

/-- A tag with a new name comes last. -/
theorem importTag_new {t : Tag} (hkey : IsKey t.name) (hnew : t.name ∉ s.names) :
    (s.importTag t).entries = s.entries ++ [⟨t.name, none, t.weight⟩] := by
  have hadd : (s.add t.name none).2.entries = s.entries ++ [⟨t.name, none, defaultWeight⟩] := by
    have hpicked : s.IsNew t.name := by
      unfold IsNew
      rw [hkey.trim_eq]
      exact ⟨hkey.ne_empty, hnew⟩
    rw [add_of_isNew hpicked, picked, hkey.trim_eq]
  -- Only the entry that was just added has the name.
  have hold : s.entries.map (Entry.reweigh t.name fun _ => t.weight) = s.entries :=
    reweigh_of_not_mem hnew _
  have hself : Entry.reweigh t.name (fun _ => t.weight) ⟨t.name, none, defaultWeight⟩
      = ⟨t.name, none, t.weight⟩ := if_pos (beq_self_eq_true t.name)
  rw [importTag_eq, updateWeight, hkey.trim_eq, hadd, List.map_append, hold, List.map_singleton,
    hself]

/-! ## 2. All tags of a text -/

/-- Every tag of some tags, one after the other. -/
def importTags (s : Selection) (ts : List Tag) : Selection := ts.foldl importTag s

theorem importTags_nil (s : Selection) : s.importTags [] = s := List.foldl_nil

theorem importTags_cons (s : Selection) (t : Tag) (ts : List Tag) :
    s.importTags (t :: ts) = (s.importTag t).importTags ts := by
  rw [importTags, List.foldl_cons, importTags]

theorem importTags_append (s : Selection) (ts us : List Tag) :
    s.importTags (ts ++ us) = (s.importTags ts).importTags us := by
  rw [importTags, List.foldl_append, importTags, importTags]

theorem wellFormed_importTags (h : s.WellFormed) (ts : List Tag) :
    (s.importTags ts).WellFormed := by
  induction ts generalizing s with
  | nil =>
    rw [importTags_nil]
    exact h
  | cons t ts ih =>
    rw [importTags_cons]
    exact ih (wellFormed_importTag h t)

theorem finiteWeights_importTags (h : s.FiniteWeights) {ts : List Tag}
    (hts : ∀ t ∈ ts, t.weight.isFinite = true) : (s.importTags ts).FiniteWeights := by
  induction ts generalizing s with
  | nil =>
    rw [importTags_nil]
    exact h
  | cons t ts ih =>
    obtain ⟨ht, hrest⟩ := List.forall_mem_cons.mp hts
    rw [importTags_cons]
    exact ih (finiteWeights_importTag h ht) hrest

theorem mem_importTags {ts : List Tag} {e : Entry} (he : e ∈ (s.importTags ts).entries) :
    e ∈ s.entries ∨ ∃ t ∈ ts, e.name = trim t.name ∧ e.weight = t.weight := by
  induction ts generalizing s with
  | nil =>
    rw [importTags_nil] at he
    exact Or.inl he
  | cons t ts ih =>
    rw [importTags_cons] at he
    rcases ih he with hfirst | ⟨u, hu, hentry⟩
    · rcases mem_importTag hfirst with hold | hentry
      · exact Or.inl hold
      · exact Or.inr ⟨t, List.mem_cons_self, hentry⟩
    · exact Or.inr ⟨u, List.mem_cons_of_mem t hu, hentry⟩

/-- **New and different tags** come last, in their order. -/
theorem importTags_new {ts : List Tag} (hkeys : ∀ t ∈ ts, IsKey t.name)
    (hnodup : (s.names ++ ts.map Tag.name).Nodup) :
    (s.importTags ts).entries = s.entries ++ ts.map fun t => ⟨t.name, none, t.weight⟩ := by
  induction ts generalizing s with
  | nil => rw [importTags_nil, List.map_nil, List.append_nil]
  | cons t ts ih =>
    obtain ⟨hkey, hrest⟩ := List.forall_mem_cons.mp hkeys
    have hnew : t.name ∉ s.names := fun hmem =>
      (List.nodup_append.mp hnodup).2.2 _ hmem _ List.mem_cons_self rfl
    have hfirst := importTag_new hkey hnew
    have hnames : (s.importTag t).names ++ ts.map Tag.name = s.names ++ (t :: ts).map Tag.name := by
      rw [names, hfirst, List.map_append, List.append_assoc]
      rfl
    rw [importTags_cons, ih hrest (by rw [hnames]; exact hnodup), hfirst, List.append_assoc]
    rfl

/-- What a text is read into: its tags, one after the other. -/
theorem ofText_eq (text : String) : ofText text = empty.importTags (Prompt.parse text) := by
  obtain ⟨htokens, hparse⟩ :
      Prompt.parseTokens text = (Prompt.scanText text).map Tag.token
        ∧ Prompt.parse text = Prompt.scanText text :=
    ⟨Prompt.parseTokens_eq_map_scanText text, Prompt.parse_eq_scanText text⟩
  have hleaves : ((Prompt.scanText text).map Tag.token).flatMap Prompt.Token.leaves
      = Prompt.scanText text := by
    rw [List.flatMap_map]
    show (Prompt.scanText text).flatMap (fun t => Prompt.Token.leaves (.plain t.name t.weight)) = _
    simp only [Prompt.Token.leaves_plain]
    exact List.flatMap_singleton' _
  rw [ofText, importTokens, htokens, hleaves, hparse, importTags]

theorem wellFormed_ofText (text : String) : (ofText text).WellFormed := by
  rw [ofText_eq]
  exact wellFormed_importTags wellFormed_empty _

theorem finiteWeights_ofText (text : String) : (ofText text).FiniteWeights := by
  rw [ofText_eq]
  exact finiteWeights_importTags finiteWeights_empty
    fun t ht => (Prompt.parse_readable text t ht).printable.finite

end Selection

end PromptTags
