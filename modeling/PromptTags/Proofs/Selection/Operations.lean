/-
Selections over whole runs of operations.

Every operation takes a name as it was typed and trims it on its own, and an import adds a name and
then sets its weight, also where the name is blank. That none of them files an entry under another
name than its own shows in the lookups: in a well-formed selection each entry is found under its
name, and under no other (`find?_eq_some_iff`), and what is counted, asked for or listed are the
same entries (`WellFormed.coherent`). One step keeps a selection well formed (`wellFormed_apply`),
and so does every run (`wellFormed_run`).
-/
import PromptTags.Proofs.Selection.Import

set_option autoImplicit false

namespace PromptTags.Selection

open Text

variable {s : Selection}

/-! ## 1. Lookups -/

theorem hasName_iff {name : String} {e : Entry} : e.hasName name = true ↔ e.name = name :=
  beq_iff_eq

theorem mem_names_of_mem {e : Entry} (he : e ∈ s.entries) : e.name ∈ s.names :=
  List.mem_map_of_mem he

/-- An entry is found under a name just where the trimmed name is its own. -/
theorem find?_eq_some_iff (h : s.WellFormed) {name : String} {e : Entry} :
    s.find? name = some e ↔ e ∈ s.entries ∧ e.name = trim name := by
  have hfound : ∀ d, s.find? name = some d → d ∈ s.entries ∧ d.name = trim name := by
    intro d hd
    rw [find?] at hd
    exact ⟨List.mem_of_find?_eq_some hd, hasName_iff.mp (List.find?_some hd)⟩
  refine ⟨hfound e, ?_⟩
  rintro ⟨he, hname⟩
  cases hd : s.find? name with
  | none => exact absurd (hasName_iff.mpr hname) (List.find?_eq_none.mp hd e he)
  | some d =>
    -- The entry that comes first has the same name, and so it is this one.
    obtain ⟨hmem, hsame⟩ := hfound d hd
    rw [List.inj_on_of_nodup_map h.nodup hmem he (hsame.trans hname.symm)]

/-- What is counted, asked for and listed are the same entries, each of them under its own name. -/
structure Coherent (s : Selection) : Prop where
  size : s.size = s.entries.length
  isEmpty : s.isEmpty = true ↔ s.entries = []
  contains : ∀ name, s.contains name = true ↔ ∃ e ∈ s.entries, e.name = trim name
  find? : ∀ name e, s.find? name = some e ↔ e ∈ s.entries ∧ e.name = trim name
  filed : ∀ e ∈ s.entries, s.find? e.name = some e
  tags : ∀ i : Nat, s.tags[i]? = s.entries[i]?.map Entry.tag

theorem WellFormed.coherent (h : s.WellFormed) : s.Coherent where
  size := rfl
  isEmpty := List.isEmpty_iff
  contains name := by rw [contains_iff, names, List.mem_map]
  find? _ _ := find?_eq_some_iff h
  filed e he := (find?_eq_some_iff h).mpr ⟨he, (h.keys e.name (mem_names_of_mem he)).trim_eq.symm⟩
  tags _ := List.getElem?_map

/-! ## 2. Runs -/

/-- Everything that changes a selection. -/
inductive Operation where
  | add (name : String) (display? : Option String)
  | toggle (name : String) (display? : Option String)
  | remove (name : String)
  | adjust (name : String) (up : Bool)
  | setWeight (name : String) (weight : Float)
  | reorder (name : String) (place : Placement)
  | importTokens (tokens : List Prompt.Token)
  | clear
  | sortBy (ranking : Ranking)

def apply (s : Selection) : Operation → Selection
  | .add name display? => (s.add name display?).2
  | .toggle name display? => (s.toggle name display?).2
  | .remove name => (s.remove name).2
  | .adjust name up => (s.adjust name up).2
  | .setWeight name weight => (s.setWeight name weight).2
  | .reorder name place => (s.reorder name place).2
  | .importTokens tokens => s.importTokens tokens
  | .clear => empty
  | .sortBy ranking => s.sortBy ranking

def run (s : Selection) (operations : List Operation) : Selection := operations.foldl apply s

theorem run_cons (s : Selection) (o : Operation) (operations : List Operation) :
    s.run (o :: operations) = (s.apply o).run operations := by
  rw [run, List.foldl_cons, run]

theorem wellFormed_importTokens (h : s.WellFormed) (tokens : List Prompt.Token) :
    (s.importTokens tokens).WellFormed := wellFormed_importTags h _

/-- **Each operation keeps a selection well formed.** -/
theorem wellFormed_apply (h : s.WellFormed) (o : Operation) : (s.apply o).WellFormed := by
  cases o with
  | add name display? => exact wellFormed_add h name display?
  | toggle name display? => exact wellFormed_toggle h name display?
  | remove name => exact h.of_subperm (subperm_remove s name)
  | adjust name up => exact wellFormed_adjust h name up
  | setWeight name weight => exact wellFormed_updateWeight h name _
  | reorder name place =>
    rw [apply]
    exact h.of_subperm (perm_reorder s name place).subperm
  | importTokens tokens => exact wellFormed_importTokens h tokens
  | clear => exact wellFormed_empty
  | sortBy ranking => exact h.of_subperm (perm_sortBy s ranking).subperm

theorem wellFormed_run (h : s.WellFormed) (operations : List Operation) :
    (s.run operations).WellFormed := by
  induction operations generalizing s with
  | nil => exact h
  | cons o operations ih =>
    rw [run_cons]
    exact ih (wellFormed_apply h o)

end PromptTags.Selection
