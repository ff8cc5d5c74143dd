/-
Toggling a name twice.

The first toggle of a name that is not picked picks it, and the second one takes it out again, so
nothing is left of it (`toggledTwice_of_not_mem`). The other way round something is lost. A name that
is picked is taken out by the first toggle, and what the second one picks is a new entry: it comes
last, with the default weight and the label that is given (`toggledTwice_of_between`). The names are
the same as before in either case, but the selection is the same only if the entry was such a one
already, in its place and in its weight and label (`entries_moved_last_iff`).
-/
import PromptTags.Proofs.Selection.Answers

set_option autoImplicit false

namespace PromptTags.Selection

open Text

variable {s : Selection} {name : String} {front back : List Entry} {e : Entry}

/-- The selection after two toggles of a name. -/
def toggledTwice (s : Selection) (name : String) (display? : Option String) : Selection :=
  ((s.toggle name display?).2.toggle name display?).2

/-- What was picked last is taken out again. -/
theorem toggledTwice_of_isNew (h : s.IsNew name) (d : Option String) :
    s.toggledTwice name d = s := by
  have hcut : Between (s.picked name d) name s.entries ⟨trim name, d, defaultWeight⟩ [] :=
    ⟨rfl, rfl, h.2, List.not_mem_nil⟩
  rw [toggledTwice, toggle_of_isNew h, toggle_of_mem (mem_names_of_between hcut),
    remove_of_between hcut, List.append_nil]

theorem toggledTwice_of_not_mem (h : trim name ∉ s.names) (d : Option String) :
    s.toggledTwice name d = s := by
  by_cases hnew : s.IsNew name
  · exact toggledTwice_of_isNew hnew d
  · -- A blank name is not picked, either time.
    have hrefused : s.toggle name d = (false, s) := by
      rw [toggle_of_not_mem h, add_of_not_isNew hnew]
    rw [toggledTwice, hrefused, hrefused]

/-- The entry of a name goes to the end, under the label that is given. -/
theorem toggledTwice_of_between (h : s.WellFormed) (hcut : Between s name front e back)
    (d : Option String) :
    (s.toggledTwice name d).entries = front ++ back ++ [⟨trim name, d, defaultWeight⟩] := by
  have hmem := mem_names_of_between hcut
  have hnew : IsNew ⟨front ++ back⟩ name := by
    refine ⟨(h.keys _ hmem).ne_empty, ?_⟩
    rw [names, List.map_append, List.mem_append, not_or]
    exact ⟨hcut.not_mem_front, hcut.not_mem_back⟩
  rw [toggledTwice, toggle_of_mem hmem, remove_of_between hcut, toggle_of_isNew hnew, picked]

/-- An entry that is put at the end is where it was only if it was there. -/
theorem entries_moved_last_iff (hcut : Between s name front e back) {x : Entry}
    (hx : x.name = trim name) :
    front ++ back ++ [x] = s.entries ↔ s.entries.getLast? = some x := by
  constructor
  · intro heq
    rw [← heq, List.getLast?_concat]
  · intro hlast
    rcases List.eq_nil_or_concat' back with rfl | ⟨rest, y, rfl⟩
    · rw [hcut.entries, List.getLast?_concat] at hlast
      obtain rfl := Option.some.inj hlast
      rw [hcut.entries, List.append_nil]
    · -- An entry behind the one of the name has another name.
      rw [hcut.entries, ← List.cons_append, ← List.append_assoc, List.getLast?_concat] at hlast
      obtain rfl := Option.some.inj hlast
      refine absurd ?_ hcut.not_mem_back
      rw [← hx]
      simp

theorem mem_names_toggledTwice_iff (h : s.WellFormed) (name : String) (d : Option String)
    (n : String) : n ∈ (s.toggledTwice name d).names ↔ n ∈ s.names := by
  by_cases hmem : trim name ∈ s.names
  · obtain ⟨front, e, back, hcut⟩ := exists_between h hmem
    rw [names, names, toggledTwice_of_between h hcut, hcut.entries]
    simp only [List.map_append, List.map_cons, List.map_nil, List.mem_append, List.mem_cons,
      hcut.name_eq, List.not_mem_nil, or_false]
    tauto
  · rw [toggledTwice_of_not_mem hmem]

/-- **Toggling twice.** After any operations on an empty selection, two toggles of a name keep the
names that are picked. They leave the selection as it was just where the name is blank, or was not
picked, or was last, with the default weight and the label that is given. The entry of a name that
was picked is moved to the end, and has that weight and that label there. -/
theorem toggle_twice (before : List Operation) (name : String) (d : Option String) :
    let s := empty.run before
    (∀ n, n ∈ (s.toggledTwice name d).names ↔ n ∈ s.names) ∧
    (s.toggledTwice name d = s ↔
      trim name = "" ∨ trim name ∉ s.names ∨
        s.entries.getLast? = some ⟨trim name, d, defaultWeight⟩) ∧
    (trim name ∈ s.names →
      ∃ front e back, s.entries = front ++ e :: back ∧ e.name = trim name ∧
        (s.toggledTwice name d).entries = front ++ back ++ [⟨trim name, d, defaultWeight⟩]) := by
  intro s
  have h : s.WellFormed := wellFormed_run wellFormed_empty before
  refine ⟨mem_names_toggledTwice_iff h name d, ?_⟩
  by_cases hmem : trim name ∈ s.names
  · obtain ⟨front, e, back, hcut⟩ := exists_between h hmem
    have hne : trim name ≠ "" := (h.keys _ hmem).ne_empty
    have htwice := toggledTwice_of_between h hcut d
    refine ⟨?_, fun _ => ⟨front, e, back, hcut.entries, hcut.name_eq, htwice⟩⟩
    rw [or_iff_right hne, or_iff_right (not_not_intro hmem), ← entries_moved_last_iff hcut rfl,
      ← htwice]
    constructor
    · intro hsame
      rw [hsame]
    · intro hsame
      exact congrArg Selection.mk hsame
  · have hsame := toggledTwice_of_not_mem hmem d
    exact ⟨⟨fun _ => Or.inr (Or.inl hmem), fun _ => hsame⟩, fun hthere => absurd hthere hmem⟩

end PromptTags.Selection
