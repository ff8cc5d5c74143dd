/-
Cutting text at a separator, and putting it together.

Text that stands on both sides of a separator is cut on each side for itself (`pieces_append_cons`).
So pieces that do not hold the separator are found again when they have been put together
(`pieces_intercalate`). A cut at the first separator is the same for two parts, of which only the
second one can hold the separator (`cutFirst_eq_some_iff`). A run of characters of one kind ends in
front of the first one of another kind (`takeWhile_run`).
-/
import Mathlib.Data.List.Basic
import PromptTags.Text.Pieces

set_option autoImplicit false

namespace PromptTags.Text

variable {sep : Char}

theorem pieces_cons_self (sep : Char) (cs : List Char) :
    pieces sep (sep :: cs) = [] :: pieces sep cs := if_pos rfl

theorem pieces_cons_of_ne {c : Char} (h : c ≠ sep) (cs : List Char) :
    pieces sep (c :: cs) = extendFirst c (pieces sep cs) := if_neg h

theorem extendFirst_append (c : Char) {ps : List (List Char)} (hne : ps ≠ [])
    (qs : List (List Char)) : extendFirst c (ps ++ qs) = extendFirst c ps ++ qs := by
  obtain ⟨p, rest, rfl⟩ := List.exists_cons_of_ne_nil hne
  rfl

theorem pieces_append_cons (sep : Char) (as bs : List Char) :
    pieces sep (as ++ sep :: bs) = pieces sep as ++ pieces sep bs := by
  induction as with
  | nil => exact pieces_cons_self sep bs
  | cons a as ih =>
    by_cases ha : a = sep
    · subst ha
      rw [List.cons_append, pieces_cons_self, pieces_cons_self, ih, List.cons_append]
    · rw [List.cons_append, pieces_cons_of_ne ha, pieces_cons_of_ne ha, ih,
        extendFirst_append a (pieces_ne_nil sep as)]

theorem pieces_of_not_mem {cs : List Char} (h : sep ∉ cs) : pieces sep cs = [cs] := by
  induction cs with
  | nil => rfl
  | cons c cs ih =>
    rw [List.mem_cons, not_or] at h
    rw [pieces_cons_of_ne (Ne.symm h.1), ih h.2]
    rfl

/-- Pieces without the separator are found again. -/
theorem pieces_intercalate {ps : List (List Char)} (hne : ps ≠ []) (h : ∀ p ∈ ps, sep ∉ p) :
    pieces sep ([sep].intercalate ps) = ps := by
  induction ps with
  | nil => exact absurd rfl hne
  | cons p ps ih =>
    obtain ⟨hp, hps⟩ := List.forall_mem_cons.mp h
    cases ps with
    | nil => rw [List.intercalate_singleton, pieces_of_not_mem hp]
    | cons q qs =>
      rw [List.intercalate_cons_cons, List.append_assoc, List.singleton_append, pieces_append_cons,
        pieces_of_not_mem hp, ih (List.cons_ne_nil q qs) hps, List.singleton_append]

/-- The part in front of the cut is the one without the separator. -/
theorem cutFirst_eq_some_iff {cs front rest : List Char} :
    cutFirst sep cs = (front, some rest) ↔ sep ∉ front ∧ cs = front ++ sep :: rest := by
  induction cs generalizing front with
  | nil => simp [cutFirst]
  | cons c cs ih =>
    rw [cutFirst]
    split_ifs with hc
    · -- The cut is here: a longer front would hold the separator.
      subst hc
      cases front with
      | nil => simp
      | cons d front => simp +contextual [eq_comm]
    · cases front with
      | nil => simp [hc]
      | cons d front =>
        have hrest : cutFirst sep cs = (front, some rest) ↔
            (cutFirst sep cs).1 = front ∧ (cutFirst sep cs).2 = some rest := Prod.ext_iff
        rw [Prod.mk.injEq, List.cons.injEq, and_assoc, ← hrest, ih, List.cons_append,
          List.cons.injEq, List.mem_cons, not_or]
        constructor
        · rintro ⟨rfl, hfront, rfl⟩
          exact ⟨⟨Ne.symm hc, hfront⟩, rfl, rfl⟩
        · rintro ⟨⟨-, hfront⟩, rfl, rfl⟩
          exact ⟨rfl, hfront, rfl⟩

section Runs

variable {α : Type} {p : α → Bool} {run rest : List α}

theorem takeWhile_run (hrun : ∀ a ∈ run, p a = true) (hrest : ∀ a ∈ rest.head?, p a = false) :
    (run ++ rest).takeWhile p = run := by
  rw [List.takeWhile_append_of_pos hrun]
  cases rest with
  | nil => rw [List.takeWhile_nil, List.append_nil]
  | cons a rest => rw [List.takeWhile_cons_of_neg (by simp [hrest a rfl]), List.append_nil]

theorem dropWhile_run (hrun : ∀ a ∈ run, p a = true) (hrest : ∀ a ∈ rest.head?, p a = false) :
    (run ++ rest).dropWhile p = rest := by
  rw [List.dropWhile_append_of_pos hrun]
  cases rest with
  | nil => rfl
  | cons a rest => exact List.dropWhile_cons_of_neg (by simp [hrest a rfl])

end Runs

end PromptTags.Text
