/-
Names with blanks around them.

A selection takes the blanks off every name that it is given, so to it a name means the same with
blanks around it and without (section 1). A session asks the catalog besides, for the label of the
name that it picks, and the catalog is asked for the name as it was typed. A record answers letter
by letter, so it need not answer to a name with blanks around it.

So a step of editing does the same with padded names as with trimmed ones, up to one label. The
answer is the same, and so are the names and weights in their order. The label of a name that was
not picked before is the one that the catalog has for the name as it was typed, and just where this
is another label than that of the trimmed name, the two steps differ (`padded_step_same_iff`). The
difference shows in the labels at any number of places.
-/
import PromptTags.Proofs.Session.Isolation

set_option autoImplicit false

namespace PromptTags

open Text

/-- The same place, with the target trimmed. -/
def Placement.trimmed : Placement → Placement
  | .before target => .before (trim target)
  | .after target => .after (trim target)

/-! ## 1. Selections -/

namespace Selection

theorem contains_trim (s : Selection) (name : String) :
    s.contains (trim name) = s.contains name := by
  unfold contains
  rw [trim_trim]

theorem add_trim (s : Selection) (name : String) (display? : Option String) :
    s.add (trim name) display? = s.add name display? := by
  unfold add
  rw [contains_trim, trim_trim]

theorem remove_trim (s : Selection) (name : String) : s.remove (trim name) = s.remove name := by
  unfold remove
  rw [contains_trim, trim_trim]

theorem toggle_trim (s : Selection) (name : String) (display? : Option String) :
    s.toggle (trim name) display? = s.toggle name display? := by
  unfold toggle
  rw [contains_trim, remove_trim, add_trim]

theorem adjust_trim (s : Selection) (name : String) (up : Bool) :
    s.adjust (trim name) up = s.adjust name up := by
  unfold adjust find? updateWeight
  rw [trim_trim]

theorem position?_trim (s : Selection) (name : String) :
    s.position? (trim name) = s.position? name := by
  unfold position?
  rw [trim_trim]

theorem reorder_trimmed (s : Selection) (name : String) (place : Placement) :
    s.reorder (trim name) place.trimmed = s.reorder name place := by
  have htarget : place.trimmed.target = trim place.target := by
    cases place <;> rfl
  have hlanding : ∀ source anchor, landing source anchor place.trimmed
      = landing source anchor place := by
    intro source anchor
    cases place <;> rfl
  unfold reorder
  simp only [htarget, hlanding, trim_trim, position?_trim]

end Selection

/-! ## 2. Labels -/

/-- Two labels of one name look different in every line that shows it. -/
theorem Entry.label_inj {places : Nat} {name : String} {weight : Float} {d e : Option String}
    (h : label places ⟨name, d, weight⟩ = label places ⟨name, e, weight⟩) : d = e := by
  -- A label makes a line longer than none does.
  have hlonger : ∀ t : String, name ≠ name ++ " - " ++ t := by
    intro t heq
    have hlength := congrArg String.length heq
    have hdash : " - ".length = 3 := rfl
    rw [String.length_append, String.length_append] at hlength
    omega
  unfold label at h
  simp only [String.append_left_inj] at h
  cases d with
  | none =>
    cases e with
    | none => rfl
    | some u => exact absurd h (hlonger u)
  | some t =>
    cases e with
    | none => exact absurd h.symm (hlonger t)
    | some u => rw [(String.append_right_inj _).mp h]

namespace Selection

variable {s : Selection} {name : String} {d e : Option String}

theorem label_of_labels_picked {places : Nat}
    (h : (s.picked name d).labels places = (s.picked name e).labels places) : d = e := by
  unfold labels picked at h
  simp only [List.map_append, List.map_cons, List.map_nil, List.append_cancel_left_eq,
    List.cons.injEq, and_true] at h
  exact Entry.label_inj h

theorem tags_picked : (s.picked name d).tags = (s.picked name e).tags := by
  unfold tags picked
  simp [Entry.tag]

end Selection

namespace Session

/-! ## 3. Steps -/

/-- The same step, with its names trimmed. -/
def Step.trimmed : Step → Step
  | .add name => .add (trim name)
  | .like name => .like (trim name)
  | .remove name => .remove (trim name)
  | .adjust name up => .adjust (trim name) up
  | .reorder name place => .reorder (trim name) place.trimmed
  | .sortByCatalog => .sortByCatalog

/-- The name that a step picks, if it is new. -/
def Step.picks? : Step → Option String
  | .add name => some name
  | .like name => some name
  | _ => none

/-- The session with a name picked under a label. -/
def picked (s : Session) (name : String) (display? : Option String) : Session :=
  { s with selection := s.selection.picked name display? }

/-- **What blanks around a name can do.** Nothing, or else a new name is picked, once under the
label that the catalog has for it as it was typed, and once under that of the trimmed name. -/
theorem padded_step_cases (s : Session) (a : Step) :
    ((∀ name ∈ a.picks?, ¬ s.selection.IsNew name) ∧
      s.stepAnswer a = s.stepAnswer a.trimmed ∧ s.step a = s.step a.trimmed) ∨
    ∃ name, a.picks? = some name ∧ s.selection.IsNew name ∧
      s.stepAnswer a = s.stepAnswer a.trimmed ∧
      s.step a = s.picked name (s.catalog.displayName? name) ∧
      s.step a.trimmed = s.picked name (s.catalog.displayName? (trim name)) := by
  cases a with
  | add name =>
    simp only [Step.trimmed, Step.picks?, stepAnswer, step, add, keep, Selection.add_trim]
    by_cases hnew : s.selection.IsNew name
    · right
      refine ⟨name, rfl, hnew, ?_⟩
      rw [Selection.add_of_isNew hnew, Selection.add_of_isNew hnew]
      exact ⟨rfl, rfl, rfl⟩
    · left
      rw [Selection.add_of_not_isNew hnew, Selection.add_of_not_isNew hnew]
      simpa using hnew
  | like name =>
    simp only [Step.trimmed, Step.picks?, stepAnswer, step, like, keep, Selection.toggle_trim]
    by_cases hnew : s.selection.IsNew name
    · right
      refine ⟨name, rfl, hnew, ?_⟩
      rw [Selection.toggle_of_isNew hnew, Selection.toggle_of_isNew hnew]
      exact ⟨rfl, rfl, rfl⟩
    · left
      rw [Selection.toggle_of_not_isNew hnew _ (s.catalog.displayName? (trim name))]
      simpa using hnew
  | remove name =>
    left
    simp [Step.trimmed, Step.picks?, stepAnswer, step, remove, Selection.remove_trim]
  | adjust name up =>
    left
    simp [Step.trimmed, Step.picks?, stepAnswer, step, adjust, Selection.adjust_trim]
  | reorder name place =>
    left
    simp [Step.trimmed, Step.picks?, stepAnswer, step, reorder, Selection.reorder_trimmed]
  | sortByCatalog =>
    left
    simp [Step.trimmed, Step.picks?]

/-- **Blanks around names make no difference but in the label of a new name.** A step with padded
names answers what the step with trimmed names answers, and leaves the same names and weights in the
same order. It leaves the same session, and the same labels at any number of places, just where the
catalog has one label for the name as it was typed and for the trimmed name, or no name is picked
that was not picked before. -/
theorem padded_step_same_iff (s : Session) (a : Step) :
    s.stepAnswer a = s.stepAnswer a.trimmed ∧
    (s.step a).selection.tags = (s.step a.trimmed).selection.tags ∧
    (s.step a = s.step a.trimmed ↔ ∀ name ∈ a.picks?, s.selection.IsNew name →
      s.catalog.displayName? name = s.catalog.displayName? (trim name)) ∧
    ∀ places, (s.step a).labels places = (s.step a.trimmed).labels places ↔
      s.step a = s.step a.trimmed := by
  rcases padded_step_cases s a with ⟨hold, hanswer, hsame⟩ | ⟨name, hname, hnew, hanswer, hs, ht⟩
  · refine ⟨hanswer, by rw [hsame], ?_, ?_⟩
    · simp only [hsame, true_iff]
      intro name hname hnew
      exact absurd hnew (hold name hname)
    · intro places
      simp only [hsame]
  · have hlabels : ∀ places, (s.step a).labels places = (s.step a.trimmed).labels places →
        s.catalog.displayName? name = s.catalog.displayName? (trim name) := by
      intro places h
      rw [hs, ht] at h
      exact Selection.label_of_labels_picked h
    have hstep : s.catalog.displayName? name = s.catalog.displayName? (trim name) →
        s.step a = s.step a.trimmed := by
      intro h
      rw [hs, ht, h]
    refine ⟨hanswer, ?_, ?_, ?_⟩
    · rw [hs, ht]
      exact Selection.tags_picked
    · constructor
      · intro h n hn _
        obtain rfl : name = n := Option.some.inj (hname.symm.trans hn)
        exact hlabels 0 (by rw [h])
      · intro h
        exact hstep (h name hname hnew)
    · intro places
      constructor
      · intro h
        exact hstep (hlabels places h)
      · intro h
        rw [h]

/-- A catalog knows the label of a name, but not under the name with blanks around it. The entry of
the same name is left without a label. -/
theorem padded_name_unlabelled :
    let s : Session := detached [{ name := "Smile", aliases := ["smile"] }]
    (s.add " smile ").2.labels 3 = ["smile ×1.000"] ∧
      (s.add (trim " smile ")).2.labels 3 = ["smile - Smile ×1.000"] ∧
      (s.like " smile ").2.selection ≠ (s.like (trim " smile ")).2.selection := by
  decide +kernel

end Session

end PromptTags
