/-
One name at a time: what an operation changes, and what it answers.

An operation that is given a name leaves the entries of all other names alone, in their order; this
holds of every list of entries (`others_apply`). What it does to the entry of the name itself is told
by cutting the list there. The names of a well-formed selection are different, so the entry stands
between entries of other names only (`exists_between`). A removal closes the gap and a new weight
fills it again (`remove_of_between`, `updateWeight_of_between`), and for a name that is not picked
there is nothing to cut at and nothing happens. The answers are read off from these two cases
(`truthful`, `refusing`).
-/
import PromptTags.Proofs.Selection.Moving
import PromptTags.Proofs.Selection.Operations

set_option autoImplicit false

namespace PromptTags.Selection

open Text

variable {s : Selection} {name : String}

/-! ## 1. The entries of other names -/

theorem not_hasName_of_not_mem {es : List Entry} (h : name ∉ es.map Entry.name) :
    ∀ d ∈ es, ¬ d.hasName name = true := by
  intro d hd hname
  exact h (hasName_iff.mp hname ▸ List.mem_map_of_mem hd)

/-- The entries that have another name than this one. -/
def others (s : Selection) (name : String) : List Entry :=
  s.entries.filter fun e => e.name ≠ trim name

/-- An entry of the name can stand anywhere. -/
theorem others_of_split {e : Entry} {front back : List Entry} (hname : e.name = trim name)
    (hsplit : s.entries = front ++ e :: back) :
    s.others name = others ⟨front ++ back⟩ name := by
  have hskipped : ¬ decide (e.name ≠ trim name) = true := by simp [hname]
  rw [others, others, hsplit, List.filter_append, List.filter_append, List.filter_cons,
    if_neg hskipped]

theorem others_picked (s : Selection) (name : String) (display? : Option String) :
    (s.picked name display?).others name = s.others name := by
  simp [others, picked]

theorem others_add (s : Selection) (name : String) (display? : Option String) :
    (s.add name display?).2.others name = s.others name := by
  by_cases hnew : s.IsNew name
  · rw [add_of_isNew hnew]
    exact others_picked s name display?
  · rw [add_of_not_isNew hnew]

theorem others_remove (s : Selection) (name : String) :
    (s.remove name).2.others name = s.others name := by
  unfold remove
  rcases List.exists_or_eq_self_of_eraseP (Entry.hasName (trim name)) s.entries with
    hsame | ⟨e, front, back, -, hname, hsplit, herased⟩
  · rw [hsame]
  · rw [others_of_split (hasName_iff.mp hname) hsplit, herased]

theorem others_toggle (s : Selection) (name : String) (display? : Option String) :
    (s.toggle name display?).2.others name = s.others name := by
  unfold toggle
  split_ifs
  · exact others_remove s name
  · exact others_add s name display?

theorem others_updateWeight (s : Selection) (name : String) (change : Float → Float) :
    (s.updateWeight name change).others name = s.others name := by
  have hnames : (fun e : Entry => decide (e.name ≠ trim name)) ∘ Entry.reweigh (trim name) change
      = fun e => decide (e.name ≠ trim name) := by
    funext e
    rw [Function.comp_apply, name_reweigh]
  unfold others updateWeight
  rw [List.filter_map, hnames]
  apply reweigh_of_not_mem
  intro hmem
  obtain ⟨e, he, hname⟩ := List.mem_map.mp hmem
  exact of_decide_eq_true (List.mem_filter.mp he).2 hname

/-- The entry that is taken out and put back elsewhere is the one of the name. -/
theorem others_reorder (s : Selection) (name : String) (place : Placement) :
    (s.reorder name place).2.others name = s.others name := by
  rcases reorder_cases s name place with
    ⟨hrefused, -⟩ | ⟨hne, source, anchor, hsource, hanchor, hmoved⟩
  · rw [hrefused]
  · obtain ⟨e, he, hname⟩ := position?_spec hsource
    obtain ⟨target, htarget, -⟩ := position?_spec hanchor
    obtain ⟨l₁, l₂, front, back, hold, hrest, hnew⟩ :=
      moveIndex_landing he htarget (position?_ne hne hsource hanchor) place
    rw [hmoved, others_of_split hname hold, hrest]
    cases place with
    | before _ => exact others_of_split hname hnew
    | after _ =>
      have hsplit := hnew.trans (List.append_assoc front [target] (e :: back)).symm
      rw [others_of_split hname hsplit, List.append_assoc, List.singleton_append]

/-- The name that an operation is given, if it is about one. -/
def Operation.name? : Operation → Option String
  | .add name _ => some name
  | .toggle name _ => some name
  | .remove name => some name
  | .adjust name _ => some name
  | .setWeight name _ => some name
  | .reorder name _ => some name
  | .importTokens _ => none
  | .clear => none
  | .sortBy _ => none

/-- **Frame.** An operation on a name leaves the entries of all other names as they are. -/
theorem others_apply (s : Selection) {o : Operation} (ho : o.name? = some name) :
    (s.apply o).others name = s.others name := by
  cases o with
  | importTokens tokens => cases ho
  | clear => cases ho
  | sortBy ranking => cases ho
  | add n display? =>
    obtain rfl := Option.some.inj ho
    exact others_add s n display?
  | toggle n display? =>
    obtain rfl := Option.some.inj ho
    exact others_toggle s n display?
  | remove n =>
    obtain rfl := Option.some.inj ho
    exact others_remove s n
  | adjust n up =>
    obtain rfl := Option.some.inj ho
    exact others_updateWeight s n _
  | setWeight n weight =>
    obtain rfl := Option.some.inj ho
    exact others_updateWeight s n _
  | reorder n place =>
    obtain rfl := Option.some.inj ho
    exact others_reorder s n place

/-! ## 2. Cutting at a name -/

/-- The entry of a name, with what stands in front of it and behind it. -/
structure Between (s : Selection) (name : String) (front : List Entry) (e : Entry)
    (back : List Entry) : Prop where
  entries : s.entries = front ++ e :: back
  name_eq : e.name = trim name
  not_mem_front : trim name ∉ front.map Entry.name
  not_mem_back : trim name ∉ back.map Entry.name

theorem exists_between (h : s.WellFormed) (hmem : trim name ∈ s.names) :
    ∃ front e back, Between s name front e back := by
  obtain ⟨e, he, hname⟩ := List.mem_map.mp hmem
  obtain ⟨front, back, hsplit⟩ := List.append_of_mem he
  have hnodup := h.nodup
  rw [names, hsplit, List.map_append, List.map_cons, List.nodup_middle, List.nodup_cons,
    List.mem_append, not_or, hname] at hnodup
  exact ⟨front, e, back, hsplit, hname, hnodup.1.1, hnodup.1.2⟩

variable {front back : List Entry} {e : Entry}

theorem mem_names_of_between (h : Between s name front e back) : trim name ∈ s.names := by
  rw [names, h.entries, List.map_append, List.map_cons, h.name_eq]
  simp

theorem find?_of_between (h : Between s name front e back) : s.find? name = some e := by
  rw [find?, h.entries, List.find?_append,
    List.find?_eq_none.mpr (not_hasName_of_not_mem h.not_mem_front),
    List.find?_cons_of_pos (hasName_iff.mpr h.name_eq), Option.none_or]

/-- The gap is closed. -/
theorem remove_of_between (h : Between s name front e back) :
    s.remove name = (true, ⟨front ++ back⟩) := by
  unfold remove
  rw [(contains_iff s name).mpr (mem_names_of_between h), h.entries,
    List.eraseP_append_right _ (not_hasName_of_not_mem h.not_mem_front),
    List.eraseP_cons_of_pos (hasName_iff.mpr h.name_eq)]

/-- The gap is filled with the same entry under another weight. -/
theorem updateWeight_of_between (h : Between s name front e back) (change : Float → Float) :
    s.updateWeight name change = ⟨front ++ { e with weight := change e.weight } :: back⟩ := by
  rw [updateWeight, h.entries, List.map_append, List.map_cons, reweigh_of_not_mem h.not_mem_front,
    reweigh_of_not_mem h.not_mem_back, Entry.reweigh, if_pos (hasName_iff.mpr h.name_eq)]

/-! ## 3. Names that are not picked -/

theorem remove_of_not_mem (h : trim name ∉ s.names) : s.remove name = (false, s) := by
  unfold remove
  rw [contains_of_not_mem h, List.eraseP_of_forall_not (not_hasName_of_not_mem h)]

theorem updateWeight_of_not_mem (h : trim name ∉ s.names) (change : Float → Float) :
    s.updateWeight name change = s := by
  unfold updateWeight
  rw [reweigh_of_not_mem h]

theorem isSome_adjust (s : Selection) (name : String) (up : Bool) :
    (s.adjust name up).1.isSome = s.contains name := by
  rw [adjust, Option.isSome_map, find?, List.isSome_find?, contains]

/-! ## 4. Answers -/

/-- The selection `r` is `s` with another weight for a name: the entry of the name has its place and
its label as before, and the weight that is found under the name is the new one. -/
structure Reweighed (s : Selection) (name : String) (weight : Float) (r : Selection) : Prop where
  placed : ∃ front e back, s.entries = front ++ e :: back ∧ e.name = trim name ∧
    r.entries = front ++ { e with weight := weight } :: back
  stored : (r.find? name).map Entry.weight = some weight

theorem reweighed_of_between (h : Between s name front e back) (weight : Float) :
    Reweighed s name weight ⟨front ++ { e with weight := weight } :: back⟩ where
  placed := ⟨front, e, back, h.entries, h.name_eq, rfl⟩
  stored := by
    have hcut : Between ⟨front ++ { e with weight := weight } :: back⟩ name front
        { e with weight := weight } back :=
      ⟨rfl, h.name_eq, h.not_mem_front, h.not_mem_back⟩
    rw [find?_of_between hcut, Option.map_some]

/-- What an operation answers about a name is so. Picking it is answered with yes just where it is
not blank and not there yet, and then it comes last, with the default weight. Taking it out is
answered with yes just where it was there, and it is gone in any case. Toggling tells whether it is
there afterwards, and that is the opposite of before unless it is blank. A weight is stepped or set
just where the name is there, and the weight that is answered or given is the one that it has then. -/
structure Truthful (s : Selection) (name : String) : Prop where
  add_iff : ∀ d, (s.add name d).1 = true ↔ trim name ≠ "" ∧ trim name ∉ s.names
  add_last : ∀ d, (s.add name d).1 = true →
    (s.add name d).2.entries = s.entries ++ [⟨trim name, d, defaultWeight⟩]
  remove_iff : (s.remove name).1 = true ↔ trim name ∈ s.names
  remove_gone : trim name ∉ (s.remove name).2.names
  toggle_iff : ∀ d, (s.toggle name d).1 = true ↔ trim name ∈ (s.toggle name d).2.names
  toggle_opposite : ∀ d, trim name ≠ "" → ((s.toggle name d).1 = true ↔ trim name ∉ s.names)
  adjust_iff : ∀ up, (s.adjust name up).1.isSome = true ↔ trim name ∈ s.names
  adjust_weight : ∀ up w, (s.adjust name up).1 = some w → Reweighed s name w (s.adjust name up).2
  setWeight_iff : ∀ w, (s.setWeight name w).1 = true ↔ trim name ∈ s.names
  setWeight_weight : ∀ w, (s.setWeight name w).1 = true →
    Reweighed s name w (s.setWeight name w).2

/-- What is refused changes nothing. -/
structure Refusing (s : Selection) (name : String) : Prop where
  add : ∀ d, (s.add name d).1 = false → (s.add name d).2 = s
  remove : (s.remove name).1 = false → (s.remove name).2 = s
  adjust : ∀ up, (s.adjust name up).1 = none → (s.adjust name up).2 = s
  setWeight : ∀ w, (s.setWeight name w).1 = false → (s.setWeight name w).2 = s
  reorder : ∀ place, (s.reorder name place).1 = false → (s.reorder name place).2 = s

theorem add_answer_iff (s : Selection) (name : String) (d : Option String) :
    (s.add name d).1 = true ↔ s.IsNew name := by
  by_cases hnew : s.IsNew name
  · rw [add_of_isNew hnew]
    exact ⟨fun _ => hnew, fun _ => rfl⟩
  · rw [add_of_not_isNew hnew]
    exact ⟨fun h => absurd h Bool.false_ne_true, fun h => absurd h hnew⟩

theorem not_mem_names_remove (h : s.WellFormed) (name : String) :
    trim name ∉ (s.remove name).2.names := by
  by_cases hmem : trim name ∈ s.names
  · obtain ⟨front, e, back, hcut⟩ := exists_between h hmem
    rw [remove_of_between hcut, names, List.map_append, List.mem_append, not_or]
    exact ⟨hcut.not_mem_front, hcut.not_mem_back⟩
  · rw [remove_of_not_mem hmem]
    exact hmem

theorem truthful (h : s.WellFormed) (name : String) : s.Truthful name where
  add_iff := add_answer_iff s name
  add_last := by
    intro d hyes
    rw [add_of_isNew ((add_answer_iff s name d).mp hyes), picked]
  remove_iff := contains_iff s name
  remove_gone := not_mem_names_remove h name
  toggle_iff := by
    intro d
    by_cases hmem : trim name ∈ s.names
    · rw [toggle_of_mem hmem]
      exact ⟨fun hno => absurd hno Bool.false_ne_true,
        fun hthere => absurd hthere (not_mem_names_remove h name)⟩
    · rw [toggle_of_not_mem hmem, add_answer_iff, mem_names_add_iff, or_iff_right hmem]
  toggle_opposite := by
    intro d hne
    by_cases hmem : trim name ∈ s.names
    · rw [toggle_of_mem hmem]
      exact ⟨fun hno => absurd hno Bool.false_ne_true, fun hnot => absurd hmem hnot⟩
    · rw [toggle_of_not_mem hmem, add_answer_iff]
      exact and_iff_right hne
  adjust_iff := by
    intro up
    rw [isSome_adjust]
    exact contains_iff s name
  adjust_weight := by
    intro up w hw
    have hmem : trim name ∈ s.names := by
      rw [← contains_iff, ← isSome_adjust s name up, hw, Option.isSome_some]
    obtain ⟨front, e, back, hcut⟩ := exists_between h hmem
    simp only [adjust, find?_of_between hcut, Option.map_some, Option.some.injEq] at hw
    simp only [adjust, updateWeight_of_between hcut, hw]
    exact reweighed_of_between hcut w
  setWeight_iff _ := contains_iff s name
  setWeight_weight := by
    intro w hyes
    obtain ⟨front, e, back, hcut⟩ := exists_between h ((contains_iff s name).mp hyes)
    unfold setWeight
    rw [updateWeight_of_between hcut]
    exact reweighed_of_between hcut w

theorem refusing (s : Selection) (name : String) : s.Refusing name where
  add := by
    intro d hno
    by_cases hnew : s.IsNew name
    · rw [add_of_isNew hnew] at hno
      cases hno
    · rw [add_of_not_isNew hnew]
  remove := by
    intro hno
    by_cases hmem : trim name ∈ s.names
    · rw [remove, (contains_iff s name).mpr hmem] at hno
      cases hno
    · rw [remove_of_not_mem hmem]
  adjust := by
    intro up hnone
    by_cases hmem : trim name ∈ s.names
    · have hsome := isSome_adjust s name up
      rw [(contains_iff s name).mpr hmem, hnone] at hsome
      cases hsome
    · exact updateWeight_of_not_mem hmem _
  setWeight := by
    intro w hno
    by_cases hmem : trim name ∈ s.names
    · rw [setWeight, (contains_iff s name).mpr hmem] at hno
      cases hno
    · exact updateWeight_of_not_mem hmem _
  reorder := by
    intro place hno
    rcases reorder_cases s name place with ⟨hrefused, -⟩ | ⟨-, _, _, -, -, hmoved⟩
    · rw [hrefused]
    · rw [hmoved] at hno
      cases hno

/-- **One name at a time.** After any operations on an empty selection, an operation that is given a
name leaves the entries of all other names as they are, with their labels and weights and in their
order; what it answers is so; and where it refuses, nothing is changed. -/
theorem operations_frame_and_answers (before : List Operation) (name : String) :
    (∀ o : Operation, o.name? = some name →
      ((empty.run before).apply o).others name = (empty.run before).others name) ∧
    (empty.run before).Truthful name ∧ (empty.run before).Refusing name := by
  have hformed : (empty.run before).WellFormed := wellFormed_run wellFormed_empty before
  exact ⟨fun _ ho => others_apply _ ho, truthful hformed name, refusing _ name⟩

end PromptTags.Selection
