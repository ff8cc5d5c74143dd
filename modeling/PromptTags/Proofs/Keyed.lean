/-
Entries under keys.

A lookup goes through a list of entries from the front and takes the first one with the key. Where
no key stands twice there is no other one, so what is found under a key is what stands there
(`lookup_eq_some_iff`). Nothing here asks for an order of the entries.
-/
import Mathlib.Data.List.Nodup

set_option autoImplicit false

namespace PromptTags.Keyed

variable {α : Type} {es : List (String × α)} {key : String} {a : α}

theorem lookup_cons_ite (key other : String) (a : α) (es : List (String × α)) :
    List.lookup key ((other, a) :: es) = if key = other then some a else es.lookup key := by
  rw [List.lookup_cons]
  by_cases hkey : key = other
  · rw [if_pos hkey, beq_iff_eq.mpr hkey]
  · rw [if_neg hkey, beq_eq_false_iff_ne.mpr hkey]

theorem mem_of_lookup (h : es.lookup key = some a) : (key, a) ∈ es := by
  obtain ⟨before, behind, rfl, -⟩ := List.lookup_eq_some_iff.mp h
  exact List.mem_append_right _ List.mem_cons_self

/-- **Where each key stands once, what stands under a key is found there.** -/
theorem lookup_eq_some_iff (h : (es.map Prod.fst).Nodup) :
    es.lookup key = some a ↔ (key, a) ∈ es := by
  refine ⟨mem_of_lookup, fun hmem => ?_⟩
  induction es with
  | nil => exact absurd hmem List.not_mem_nil
  | cons e es ih =>
    obtain ⟨hfirst, hrest⟩ := List.nodup_cons.mp h
    rcases List.mem_cons.mp hmem with rfl | hmem
    · exact List.lookup_cons_self
    · have hne : key ≠ e.1 := by
        rintro rfl
        exact hfirst (List.mem_map.mpr ⟨_, hmem, rfl⟩)
      rw [lookup_cons_ite, if_neg hne]
      exact ih hrest hmem

end PromptTags.Keyed
