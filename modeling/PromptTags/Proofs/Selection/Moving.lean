/-
Moving an entry next to another one.

The entry is taken out at one position and put back at another. Taking it out moves everything
behind it one place forward, so the place next to the target depends on which of the two entries
stands first, and on the side. All four cases are the same once the target is looked for among the
entries that are left: it stands at `landing` there, or one place in front of it
(`getElem?_eraseIdx_anchor`), and the list is cut in two at the target (`moveIndex_landing`).

Nothing is assumed about the selection. The entry of a name is the first one that has it.
-/
import PromptTags.Proofs.Selection.Invariant

set_option autoImplicit false

namespace PromptTags

open Text

/-! ## 1. Lists cut at a position -/

section Lists

variable {α : Type*}

theorem exists_cut_of_getElem? {l : List α} {i : ℕ} {a : α} (h : l[i]? = some a) :
    ∃ front back, l = front ++ a :: back ∧ front.length = i := by
  obtain ⟨hi, ha⟩ := List.getElem?_eq_some_iff.mp h
  refine ⟨l.take i, l.drop (i + 1), ?_, ?_⟩
  · rw [← ha, List.getElem_cons_drop, List.take_append_drop]
  · rw [List.length_take]
    omega

theorem eraseIdx_cut (front back : List α) (a : α) :
    (front ++ a :: back).eraseIdx front.length = front ++ back := by
  rw [List.eraseIdx_append_of_length_le (Nat.le_refl _), Nat.sub_self, List.eraseIdx_cons_zero]

theorem insertIdx_cut (front back : List α) (a : α) :
    (front ++ back).insertIdx front.length a = front ++ a :: back := by
  induction front with
  | nil => rw [List.nil_append, List.length_nil, List.insertIdx_zero, List.nil_append]
  | cons b front ih =>
    rw [List.cons_append, List.length_cons, List.insertIdx_succ_cons, ih, List.cons_append]

end Lists

/-! ## 2. The target, when the entry is out -/

/-- An entry and the one that it stands next to, in the order that a placement asks for. -/
def Placement.pair (e target : Entry) : Placement → List Entry
  | before _ => [e, target]
  | after _ => [target, e]

namespace Selection

variable {s : Selection} {source anchor : ℕ}

/-- Where the target stands among the entries that are left. -/
theorem getElem?_eraseIdx_anchor (hne : source ≠ anchor) (l : List Entry) :
    (l.eraseIdx source)[if source < anchor then anchor - 1 else anchor]? = l[anchor]? := by
  rw [List.getElem?_eraseIdx]
  by_cases h : source < anchor
  · have hge : ¬ anchor - 1 < source := by omega
    have hsucc : anchor - 1 + 1 = anchor := by omega
    rw [if_pos h, if_neg hge, hsucc]
  · have hlt : anchor < source := by omega
    rw [if_neg h, if_pos hlt]

/-- An entry is taken out, and put back next to another one. -/
def MovesNextTo (place : Placement) (e target : Entry) (old new : List Entry) : Prop :=
  ∃ l₁ l₂ front back, old = l₁ ++ e :: l₂ ∧ l₁ ++ l₂ = front ++ target :: back ∧
    new = front ++ (place.pair e target ++ back)

/-- **An entry lands next to the target.** -/
theorem moveIndex_landing {e target : Entry} (hsource : s.entries[source]? = some e)
    (hanchor : s.entries[anchor]? = some target) (hne : source ≠ anchor) (place : Placement) :
    MovesNextTo place e target s.entries
      (s.moveIndex source (landing source anchor place)).entries := by
  obtain ⟨l₁, l₂, hs, hlen⟩ := exists_cut_of_getElem? hsource
  have hrest : s.entries.eraseIdx source = l₁ ++ l₂ := by
    rw [hs, ← hlen, eraseIdx_cut]
  have hmove : ∀ i, (s.moveIndex source i).entries = (l₁ ++ l₂).insertIdx i e := by
    intro i
    rw [moveIndex, hsource, ← hrest]
  rw [← getElem?_eraseIdx_anchor hne, hrest] at hanchor
  obtain ⟨front, back, hcut, hfront⟩ := exists_cut_of_getElem? hanchor
  refine ⟨l₁, l₂, front, back, hs, hcut, ?_⟩
  rw [hmove, hcut]
  cases place with
  | before t =>
    rw [landing, ← hfront, insertIdx_cut]
    rfl
  | after t =>
    have hlanding : landing source anchor (.after t) = (front ++ [target]).length := by
      rw [landing, ← hfront, List.length_append, List.length_singleton]
    rw [hlanding, List.append_cons, insertIdx_cut]
    simp [Placement.pair]

/-! ## 3. Moving by name -/

/-- At the position of a name stands the entry that is found under it. -/
theorem getElem?_of_position? {name : String} {i : ℕ} (h : s.position? name = some i) :
    ∃ e, s.entries[i]? = some e ∧ s.find? name = some e := by
  obtain ⟨hi, hname, hfirst⟩ := List.findIdx?_eq_some_iff_getElem.mp h
  have hentry := List.getElem?_eq_getElem hi
  refine ⟨s.entries[i], hentry, ?_⟩
  obtain ⟨front, back, hs, hlen⟩ := exists_cut_of_getElem? hentry
  rw [find?, List.find?_eq_some_iff_append]
  refine ⟨hname, front, back, hs, ?_⟩
  intro d hd
  obtain ⟨j, hj, rfl⟩ := List.getElem_of_mem hd
  have hsame : s.entries[j]? = some front[j] := by
    rw [hs, List.getElem?_append_left hj, List.getElem?_eq_getElem hj]
  obtain ⟨hlt, heq⟩ := List.getElem?_eq_some_iff.mp hsame
  have hnot := hfirst j (by omega)
  rw [heq] at hnot
  simpa using hnot

/-- **What a move does.** It is carried out just where the names differ, blanks at their ends aside,
and both are picked. Then the two positions are in range, and the entry of the name, with its label
and its weight, is taken out and put back right before or behind the entry of the target, while all
others keep their order. A move that is refused changes nothing. -/
theorem reorder_moves_next_to (s : Selection) (name : String) (place : Placement) :
    ((s.reorder name place).1 = true ↔
      trim name ≠ trim place.target ∧ s.contains name = true ∧
        s.contains place.target = true) ∧
    ((s.reorder name place).1 = true →
      ∃ source anchor e target, s.position? name = some source ∧
        s.position? place.target = some anchor ∧
        source < s.size ∧ landing source anchor place < s.size ∧
        (s.reorder name place).2 = s.moveIndex source (landing source anchor place) ∧
        s.find? name = some e ∧ s.find? place.target = some target ∧
        MovesNextTo place e target s.entries (s.reorder name place).2.entries) ∧
    ((s.reorder name place).1 = false → (s.reorder name place).2 = s) := by
  rcases reorder_cases s name place with
    ⟨hrefused, hno⟩ | ⟨hne, source, anchor, hsource, hanchor, hmoved⟩
  · rw [hrefused]
    exact ⟨⟨fun h => absurd h Bool.false_ne_true, fun h => absurd h hno⟩,
      fun h => absurd h Bool.false_ne_true, fun _ => rfl⟩
  · obtain ⟨e, he, hfind⟩ := getElem?_of_position? hsource
    obtain ⟨target, htarget, hfindTarget⟩ := getElem?_of_position? hanchor
    have hdiffer := position?_ne hne hsource hanchor
    have hi : source < s.size := (List.getElem?_eq_some_iff.mp he).1
    have hj : anchor < s.size := (List.getElem?_eq_some_iff.mp htarget).1
    have hpicked : s.contains name = true ∧ s.contains place.target = true := by
      rw [← isSome_position?, ← isSome_position?, hsource, hanchor]
      exact ⟨rfl, rfl⟩
    rw [hmoved]
    refine ⟨⟨fun _ => ⟨hne, hpicked⟩, fun _ => rfl⟩, fun _ => ?_, fun h => absurd h (by simp)⟩
    exact ⟨source, anchor, e, target, hsource, hanchor, hi, landing_lt hi hj hdiffer place, rfl,
      hfind, hfindTarget, moveIndex_landing he htarget hdiffer place⟩

end Selection

end PromptTags
