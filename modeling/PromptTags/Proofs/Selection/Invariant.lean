/-
What holds of every selection.

Two things are kept by all operations, and so by every run of them. The names are keys: each is
trimmed and not empty, and no two entries have the same one (`WellFormed`). And as long as only
finite weights come in, all weights are finite, however often they are raised or lowered
(`FiniteWeights`). Removing entries, moving one and sorting them only rearrange what is there, so
they keep both for one reason, that the entries are a part of those before (`of_subperm`). Picking
a name is the only operation that brings one in, and it is either refused or does so at the end
(`add_of_not_isNew`, `add_of_isNew`).
-/
import PromptTags.Proofs.Decimal.Sums
import PromptTags.Proofs.Prompt.ReadTags
import PromptTags.Selection

set_option autoImplicit false

namespace PromptTags

open Text

/-! ## 1. Keys -/

/-- A name as it is kept in a selection. -/
structure IsKey (name : String) : Prop where
  ne_empty : name ≠ ""
  trim_eq : trim name = name

theorem trim_trim (name : String) : trim (trim name) = trim name := by
  rw [trim, trim, String.toList_ofList, trimmed_trimmed]

/-- A name that was read is a key. -/
theorem isKey_of_isPlain {name : String} (h : Prompt.IsPlain name.toList) : IsKey name := by
  constructor
  · rintro rfl
    exact h.ne_nil rfl
  · rw [trim, h.trimmed_eq, String.ofList_toList]

namespace Selection

variable {s t : Selection}

/-- The names are keys, and each is there once. -/
structure WellFormed (s : Selection) : Prop where
  keys : ∀ n ∈ s.names, IsKey n
  nodup : s.names.Nodup

/-- No weight is infinite, and none is not a number. -/
def FiniteWeights (s : Selection) : Prop := ∀ e ∈ s.entries, e.weight.isFinite = true

theorem wellFormed_empty : empty.WellFormed :=
  ⟨fun _ h => absurd h List.not_mem_nil, List.nodup_nil⟩

theorem finiteWeights_empty : empty.FiniteWeights := fun _ h => absurd h List.not_mem_nil

theorem WellFormed.of_names_eq (h : s.WellFormed) (heq : t.names = s.names) : t.WellFormed := by
  obtain ⟨hkeys, hnodup⟩ := h
  rw [← heq] at hkeys hnodup
  exact ⟨hkeys, hnodup⟩

/-- A part of the entries, in any order. -/
theorem WellFormed.of_subperm (h : s.WellFormed) (hpart : t.entries.Subperm s.entries) :
    t.WellFormed := by
  obtain ⟨l, hperm, hsub⟩ := hpart
  have hnames : t.names.Perm (l.map Entry.name) := (hperm.map Entry.name).symm
  have hsubnames : (l.map Entry.name).Sublist s.names := hsub.map Entry.name
  refine ⟨fun n hn => h.keys n (hsubnames.subset (hnames.subset hn)), ?_⟩
  exact hnames.nodup_iff.mpr (hsubnames.nodup h.nodup)

theorem FiniteWeights.of_subperm (h : s.FiniteWeights) (hpart : t.entries.Subperm s.entries) :
    t.FiniteWeights := fun e he => h e (hpart.subset he)

/-- What is asked for by name is asked for by trimmed name. -/
theorem contains_iff (s : Selection) (name : String) :
    s.contains name = true ↔ trim name ∈ s.names := by
  rw [contains, List.any_eq_true, names, List.mem_map]
  constructor
  · rintro ⟨e, he, hname⟩
    exact ⟨e, he, eq_of_beq hname⟩
  · rintro ⟨e, he, hname⟩
    exact ⟨e, he, beq_iff_eq.mpr hname⟩

variable {name : String}

theorem contains_of_not_mem (h : trim name ∉ s.names) : s.contains name = false := by
  rw [← Bool.not_eq_true, contains_iff]
  exact h

/-! ## 2. Names that are picked -/

/-- A name that would be picked: it is not blank, and not picked yet. -/
def IsNew (s : Selection) (name : String) : Prop := trim name ≠ "" ∧ trim name ∉ s.names

/-- The selection with a name picked under a label. -/
def picked (s : Selection) (name : String) (display? : Option String) : Selection :=
  { entries := s.entries ++ [⟨trim name, display?, defaultWeight⟩] }

theorem mem_picked {display? : Option String} {e : Entry} :
    e ∈ (s.picked name display?).entries ↔
      e ∈ s.entries ∨ e = ⟨trim name, display?, defaultWeight⟩ := by
  simp [picked]

theorem names_picked (s : Selection) (name : String) (display? : Option String) :
    (s.picked name display?).names = s.names ++ [trim name] := by
  simp [picked, names]

theorem add_of_isNew (h : s.IsNew name) (display? : Option String) :
    s.add name display? = (true, s.picked name display?) := by
  unfold add picked
  simp [contains_of_not_mem h.2, h.1]

theorem add_of_not_isNew (h : ¬ s.IsNew name) (display? : Option String) :
    s.add name display? = (false, s) := by
  have hrefused : ((trim name).isEmpty || s.contains name) = true := by
    by_contra hno
    simp only [Bool.or_eq_true, not_or, contains_iff] at hno
    apply h
    exact ⟨by simpa using hno.1, hno.2⟩
  unfold add
  rw [hrefused, if_pos rfl]

/-- A name is there after it was added if it was there before, or was picked. -/
theorem mem_names_add_iff (s : Selection) (name : String) (display? : Option String) :
    trim name ∈ (s.add name display?).2.names ↔ trim name ∈ s.names ∨ s.IsNew name := by
  by_cases hnew : s.IsNew name
  · rw [add_of_isNew hnew, names_picked]
    simp [hnew]
  · rw [add_of_not_isNew hnew]
    simp [hnew]

theorem toggle_of_mem (h : trim name ∈ s.names) (display? : Option String) :
    s.toggle name display? = (false, (s.remove name).2) := by
  unfold toggle
  rw [if_pos ((contains_iff s name).mpr h)]

theorem toggle_of_not_mem (h : trim name ∉ s.names) (display? : Option String) :
    s.toggle name display? = s.add name display? := by
  unfold toggle
  rw [contains_of_not_mem h, if_neg Bool.false_ne_true]

theorem toggle_of_isNew (h : s.IsNew name) (display? : Option String) :
    s.toggle name display? = (true, s.picked name display?) := by
  rw [toggle_of_not_mem h.2, add_of_isNew h]

/-- Where no name is picked, the label does not matter. -/
theorem toggle_of_not_isNew (h : ¬ s.IsNew name) (d e : Option String) :
    s.toggle name d = s.toggle name e := by
  unfold toggle
  rw [add_of_not_isNew h, add_of_not_isNew h]

/-! ## 3. Entries that come and go -/

theorem wellFormed_picked (h : s.WellFormed) (hnew : s.IsNew name) (display? : Option String) :
    (s.picked name display?).WellFormed := by
  constructor
  · intro n hn
    rw [names_picked, List.mem_append, List.mem_singleton] at hn
    rcases hn with hn | rfl
    · exact h.keys n hn
    · exact ⟨hnew.1, trim_trim name⟩
  · rw [names_picked]
    refine List.nodup_append.mpr ⟨h.nodup, List.nodup_singleton _, ?_⟩
    intro a ha b hb hab
    rw [List.mem_singleton.mp hb] at hab
    exact hnew.2 (hab ▸ ha)

theorem wellFormed_add (h : s.WellFormed) (name : String) (display? : Option String) :
    (s.add name display?).2.WellFormed := by
  by_cases hnew : s.IsNew name
  · rw [add_of_isNew hnew]
    exact wellFormed_picked h hnew display?
  · rw [add_of_not_isNew hnew]
    exact h

theorem mem_add {display? : Option String} {e : Entry}
    (he : e ∈ (s.add name display?).2.entries) :
    e ∈ s.entries ∨ e = ⟨trim name, display?, defaultWeight⟩ := by
  by_cases hnew : s.IsNew name
  · rw [add_of_isNew hnew] at he
    exact mem_picked.mp he
  · rw [add_of_not_isNew hnew] at he
    exact Or.inl he

theorem finiteWeights_add (h : s.FiniteWeights) (name : String) (display? : Option String) :
    (s.add name display?).2.FiniteWeights := by
  intro e he
  rcases mem_add he with hold | rfl
  · exact h e hold
  · exact Prompt.printable_defaultWeight.finite

theorem subperm_remove (s : Selection) (name : String) :
    (s.remove name).2.entries.Subperm s.entries := List.eraseP_sublist.subperm

theorem wellFormed_toggle (h : s.WellFormed) (name : String) (display? : Option String) :
    (s.toggle name display?).2.WellFormed := by
  rw [toggle]
  split_ifs
  · exact h.of_subperm (subperm_remove s name)
  · exact wellFormed_add h name display?

theorem finiteWeights_toggle (h : s.FiniteWeights) (name : String) (display? : Option String) :
    (s.toggle name display?).2.FiniteWeights := by
  rw [toggle]
  split_ifs
  · exact h.of_subperm (subperm_remove s name)
  · exact finiteWeights_add h name display?

/-! ## 4. Weights -/

theorem name_reweigh (name : String) (change : Float → Float) (e : Entry) :
    (e.reweigh name change).name = e.name := by
  rw [Entry.reweigh]
  split_ifs <;> rfl

theorem names_updateWeight (s : Selection) (name : String) (change : Float → Float) :
    (s.updateWeight name change).names = s.names := by
  rw [names, updateWeight, List.map_map]
  exact List.map_congr_left fun e _ => name_reweigh _ change e

theorem wellFormed_updateWeight (h : s.WellFormed) (name : String) (change : Float → Float) :
    (s.updateWeight name change).WellFormed := h.of_names_eq (names_updateWeight s name change)

/-- A change that keeps weights finite keeps all of them finite. -/
theorem finiteWeights_updateWeight (h : s.FiniteWeights) (name : String) {change : Float → Float}
    (hchange : ∀ w : Float, w.isFinite = true → (change w).isFinite = true) :
    (s.updateWeight name change).FiniteWeights := by
  intro e he
  obtain ⟨d, hd, rfl⟩ := List.mem_map.mp he
  rw [Entry.reweigh]
  split_ifs
  · exact hchange d.weight (h d hd)
  · exact h d hd

theorem isFinite_weightStep : weightStep.isFinite = true := rfl

theorem magnitude_weightStep_lt : Decimal.magnitude weightStep < Decimal.twoTo 2044 := by
  decide +kernel

/-- One step up or down leads from a finite weight to a finite one. -/
theorem isFinite_step {w : Float} (hw : w.isFinite = true) (up : Bool) :
    (if up then w + weightStep else w - weightStep).isFinite = true := by
  cases up with
  | true => exact Decimal.isFinite_add hw isFinite_weightStep magnitude_weightStep_lt
  | false => exact Decimal.isFinite_sub hw isFinite_weightStep magnitude_weightStep_lt

theorem wellFormed_adjust (h : s.WellFormed) (name : String) (up : Bool) :
    (s.adjust name up).2.WellFormed := wellFormed_updateWeight h name _

theorem finiteWeights_adjust (h : s.FiniteWeights) (name : String) (up : Bool) :
    (s.adjust name up).2.FiniteWeights :=
  finiteWeights_updateWeight h name fun _ hw => isFinite_step hw up

/-! ## 5. Order -/

/-- The position of a name is in range, and its entry stands there. -/
theorem position?_spec {name : String} {i : Nat} (h : s.position? name = some i) :
    ∃ e, s.entries[i]? = some e ∧ e.name = trim name := by
  obtain ⟨hi, hname, -⟩ := List.findIdx?_eq_some_iff_getElem.mp h
  exact ⟨_, List.getElem?_eq_getElem hi, eq_of_beq hname⟩

theorem isSome_position? (s : Selection) (name : String) :
    (s.position? name).isSome = s.contains name := List.findIdx?_isSome

/-- Different names stand at different positions. -/
theorem position?_ne {name target : String} {source anchor : Nat}
    (hne : trim name ≠ trim target) (hsource : s.position? name = some source)
    (hanchor : s.position? target = some anchor) :
    source ≠ anchor := by
  rintro rfl
  obtain ⟨e, he, hname⟩ := position?_spec hsource
  obtain ⟨d, hd, htarget⟩ := position?_spec hanchor
  obtain rfl := Option.some.inj (he.symm.trans hd)
  exact hne (hname.symm.trans htarget)

/-- What a move that is asked for by name comes to. -/
theorem reorder_cases (s : Selection) (name : String) (place : Placement) :
    (s.reorder name place = (false, s) ∧
      ¬ (trim name ≠ trim place.target ∧ s.contains name = true ∧
        s.contains place.target = true)) ∨
    (trim name ≠ trim place.target ∧ ∃ source anchor, s.position? name = some source ∧
      s.position? place.target = some anchor ∧
      s.reorder name place = (true, s.moveIndex source (landing source anchor place))) := by
  unfold reorder
  by_cases hsame : trim name = trim place.target
  · left
    rw [if_pos hsame]
    exact ⟨rfl, fun h => h.1 hsame⟩
  · rw [if_neg hsame]
    rw [← isSome_position?, ← isSome_position?]
    cases hsource : s.position? name with
    | none => exact Or.inl ⟨rfl, by simp⟩
    | some source =>
      cases hanchor : s.position? place.target with
      | none => exact Or.inl ⟨rfl, by simp⟩
      | some anchor => exact Or.inr ⟨hsame, source, anchor, rfl, rfl, rfl⟩

/-- The place next to another entry is in range. -/
theorem landing_lt {source anchor n : Nat} (hsource : source < n) (hanchor : anchor < n)
    (hne : source ≠ anchor) (place : Placement) : landing source anchor place < n := by
  cases place with
  | before t => rw [landing]; split_ifs <;> omega
  | after t => rw [landing]; split_ifs <;> omega

theorem perm_moveIndex {source target : Nat} (hsource : source < s.entries.length)
    (htarget : target < s.entries.length) :
    (s.moveIndex source target).entries.Perm s.entries := by
  rw [moveIndex, List.getElem?_eq_getElem hsource]
  have hroom : target ≤ (s.entries.eraseIdx source).length := by
    rw [List.length_eraseIdx_of_lt hsource]
    omega
  exact (List.perm_insertIdx _ _ hroom).trans (List.getElem_cons_eraseIdx_perm hsource)

theorem perm_reorder (s : Selection) (name : String) (place : Placement) :
    (s.reorder name place).2.entries.Perm s.entries := by
  rcases reorder_cases s name place with
    ⟨hrefused, -⟩ | ⟨hne, source, anchor, hsource, hanchor, hmoved⟩
  · rw [hrefused]
  · obtain ⟨e, he, -⟩ := position?_spec hsource
    obtain ⟨d, hd, -⟩ := position?_spec hanchor
    have hi : source < s.entries.length := (List.getElem?_eq_some_iff.mp he).1
    have hj : anchor < s.entries.length := (List.getElem?_eq_some_iff.mp hd).1
    rw [hmoved]
    exact perm_moveIndex hi (landing_lt hi hj (position?_ne hne hsource hanchor) place)

theorem perm_sortBy (s : Selection) (ranking : Ranking) :
    (s.sortBy ranking).entries.Perm s.entries := List.mergeSort_perm _ _

end Selection

end PromptTags
