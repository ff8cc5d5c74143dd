/-
Sorting a selection by a ranking.

Sorting only rearranges the entries, so that ranks never go down, and it is stable. Stability is said
of all entries that have something in common at once: whatever they are picked out by, they come out
in their old order as long as they are of one rank (`filter_sortBy`). From that follow the order
among entries of equal rank and among those of unknown names, and also that the entry of a name is
still found, because entries of one name are of one rank.

A list that is in order of rank is left as it is, so sorting twice is sorting once. Where no two
entries have the same rank, there is only one such order, and so the order from before is forgotten
(`sortBy_eq_of_perm`).
-/
import PromptTags.Proofs.Selection.Operations

set_option autoImplicit false

namespace PromptTags

open Text

/-! ## 1. Ranks -/

namespace Ranking

variable {ranking : Ranking} {name : String}

theorem rank_of_known {i : ℕ} (h : ranking.lookup name = some i) : ranking.rank name = i := by
  rw [rank, h, Option.getD_some]

theorem rank_of_unknown (h : ranking.lookup name = none) : ranking.rank name = lastRank := by
  rw [rank, h, Option.getD_none]

/-- No name ranks behind those that are unknown, as long as the positions fit in a word. -/
theorem rank_le_lastRank (hfit : ∀ p ∈ ranking, p.2 ≤ lastRank) (name : String) :
    ranking.rank name ≤ lastRank := by
  cases hlookup : ranking.lookup name with
  | none => rw [rank_of_unknown hlookup]
  | some i =>
    obtain ⟨front, back, hsplit, -⟩ := List.lookup_eq_some_iff.mp hlookup
    have hmem : (name, i) ∈ ranking := by
      rw [hsplit]
      simp
    rw [rank_of_known hlookup]
    exact hfit _ hmem

end Ranking

namespace Selection

variable {s t : Selection} {ranking : Ranking}

/-! ## 2. Order -/

/-- What comes before in order of rank, equal ranks included. -/
theorem rank_trans (ranking : Ranking) (a b c : Entry)
    (hab : decide (ranking.rank a.name ≤ ranking.rank b.name) = true)
    (hbc : decide (ranking.rank b.name ≤ ranking.rank c.name) = true) :
    decide (ranking.rank a.name ≤ ranking.rank c.name) = true := by
  rw [decide_eq_true_eq] at hab hbc ⊢
  omega

theorem rank_total (ranking : Ranking) (a b : Entry) :
    (decide (ranking.rank a.name ≤ ranking.rank b.name) ||
      decide (ranking.rank b.name ≤ ranking.rank a.name)) = true := by
  rw [Bool.or_eq_true, decide_eq_true_eq, decide_eq_true_eq]
  omega

theorem pairwise_sortBy (s : Selection) (ranking : Ranking) :
    (s.sortBy ranking).entries.Pairwise fun a b =>
      decide (ranking.rank a.name ≤ ranking.rank b.name) = true :=
  List.pairwise_mergeSort (rank_trans ranking) (rank_total ranking) s.entries

/-- Ranks never go down. -/
theorem ranks_sortBy (s : Selection) (ranking : Ranking) :
    (s.sortBy ranking).entries.Pairwise fun a b => ranking.rank a.name ≤ ranking.rank b.name :=
  (pairwise_sortBy s ranking).imp of_decide_eq_true

/-- A selection in order of rank stays as it is. -/
theorem sortBy_sortBy (s : Selection) (ranking : Ranking) :
    (s.sortBy ranking).sortBy ranking = s.sortBy ranking :=
  congrArg Selection.mk (List.mergeSort_of_pairwise (pairwise_sortBy s ranking))

/-- Where no two entries have the same rank, there is one order only. -/
theorem sortBy_eq_of_perm (hperm : t.entries.Perm s.entries)
    (hdiffer : ∀ a ∈ s.entries, ∀ b ∈ s.entries, ranking.rank a.name = ranking.rank b.name → a = b) :
    t.sortBy ranking = s.sortBy ranking := by
  have hsorted : (t.sortBy ranking).entries.Perm (s.sortBy ranking).entries :=
    ((perm_sortBy t ranking).trans hperm).trans (perm_sortBy s ranking).symm
  have heq : (t.sortBy ranking).entries = (s.sortBy ranking).entries := by
    refine List.Perm.eq_of_pairwise ?_ (ranks_sortBy t ranking) (ranks_sortBy s ranking) hsorted
    intro a b ha hb hab hba
    have ha' : a ∈ s.entries := (perm_sortBy s ranking).subset (hsorted.subset ha)
    have hb' : b ∈ s.entries := (perm_sortBy s ranking).subset hb
    exact hdiffer a ha' b hb' (Nat.le_antisymm hab hba)
  exact congrArg Selection.mk heq

/-! ## 3. Stability -/

/-- **Stability.** Entries of one rank come out in their old order, whatever they are picked out
by. -/
theorem filter_sortBy {p : Entry → Bool} {k : ℕ}
    (h : ∀ e ∈ s.entries, p e = true → ranking.rank e.name = k) :
    (s.sortBy ranking).entries.filter p = s.entries.filter p := by
  have hpairwise : (s.entries.filter p).Pairwise fun a b =>
      decide (ranking.rank a.name ≤ ranking.rank b.name) = true := by
    apply List.pairwise_of_forall_mem_list
    intro a ha b hb
    rw [List.mem_filter] at ha hb
    rw [decide_eq_true_eq, h a ha.1 ha.2, h b hb.1 hb.2]
  have hkept : (s.entries.filter p).Sublist (s.sortBy ranking).entries :=
    List.sublist_mergeSort (rank_trans ranking) (rank_total ranking) hpairwise List.filter_sublist
  -- They are all there is: sorting brings no other entry that could stand between them.
  have hsublist := hkept.filter p
  simp only [List.filter_filter, Bool.and_self] at hsublist
  have hlength := ((perm_sortBy s ranking).filter p).length_eq
  exact (hsublist.eq_of_length hlength.symm).symm

/-- The entry of a name is found as before, because all entries of a name are of one rank. -/
theorem find?_sortBy (s : Selection) (ranking : Ranking) (name : String) :
    (s.sortBy ranking).find? name = s.find? name := by
  have hsame : (s.sortBy ranking).entries.filter (Entry.hasName (trim name))
      = s.entries.filter (Entry.hasName (trim name)) := by
    apply filter_sortBy
    intro e _ hname
    rw [hasName_iff.mp hname]
  unfold find?
  rw [← List.head?_filter, ← List.head?_filter, hsame]

/-! ## 4. What sorting gives -/

/-- The selection `r` is `s`, sorted by a ranking. It holds the same entries, and each name leads to
the same one. Ranks never go down; behind a name that the ranking does not know stand only names
that rank last. Entries of equal rank are in their old order, and so are those of unknown names. -/
structure SortedBy (ranking : Ranking) (s r : Selection) : Prop where
  perm : r.entries.Perm s.entries
  found : ∀ name, r.find? name = s.find? name
  filed : s.WellFormed → ∀ e ∈ r.entries, r.find? e.name = some e
  ranks : r.entries.Pairwise fun a b => ranking.rank a.name ≤ ranking.rank b.name
  unknown_last : (∀ p ∈ ranking, p.2 ≤ lastRank) → r.entries.Pairwise fun a b =>
    ranking.lookup a.name = none → ranking.rank b.name = lastRank
  stable : ∀ k, r.entries.filter (fun e => ranking.rank e.name = k)
    = s.entries.filter fun e => ranking.rank e.name = k
  stable_unknown : r.entries.filter (fun e => ranking.lookup e.name = none)
    = s.entries.filter fun e => ranking.lookup e.name = none

theorem sortedBy_sortBy (s : Selection) (ranking : Ranking) :
    SortedBy ranking s (s.sortBy ranking) where
  perm := perm_sortBy s ranking
  found := find?_sortBy s ranking
  filed := by
    intro h e he
    rw [find?_sortBy]
    exact h.coherent.filed e ((perm_sortBy s ranking).subset he)
  ranks := ranks_sortBy s ranking
  unknown_last := by
    intro hfit
    refine (ranks_sortBy s ranking).imp ?_
    intro a b hab hunknown
    rw [Ranking.rank_of_unknown hunknown] at hab
    exact Nat.le_antisymm (Ranking.rank_le_lastRank hfit b.name) hab
  stable := by
    intro k
    apply filter_sortBy
    intro e _ hrank
    exact of_decide_eq_true hrank
  stable_unknown := by
    apply filter_sortBy
    intro e _ hunknown
    exact Ranking.rank_of_unknown (of_decide_eq_true hunknown)

/-- **Sorting by a ranking is stable, and settles the order.** A sorted selection is sorted into
itself. Two selections with the same entries are sorted into the same one if no two entries have the
same rank, as when all names are known and have different positions. -/
theorem sortBy_sorts_stably (s : Selection) (ranking : Ranking) :
    SortedBy ranking s (s.sortBy ranking) ∧
    (s.sortBy ranking).sortBy ranking = s.sortBy ranking ∧
    ∀ t : Selection, t.entries.Perm s.entries →
      (∀ a ∈ s.entries, ∀ b ∈ s.entries, ranking.rank a.name = ranking.rank b.name → a = b) →
      t.sortBy ranking = s.sortBy ranking :=
  ⟨sortedBy_sortBy s ranking, sortBy_sortBy s ranking, fun _ => sortBy_eq_of_perm⟩

/-- A name that is not known, in front at first, and a ranking that has names for which there is no
entry. -/
theorem sortBy_sorts_stably_shuffled :
    let ranking : Ranking := [("a", 0), ("z", 0), ("b", 1)]
    let a : Entry := ⟨"a", some "A", 1.0⟩
    let b : Entry := ⟨"b", none, -0.5⟩
    let u : Entry := ⟨"u", none, 2.0⟩
    let s : Selection := ⟨[u, b, a]⟩
    let t : Selection := ⟨[a, b, u]⟩
    t.entries.Perm s.entries ∧
      (∀ a ∈ s.entries, ∀ b ∈ s.entries, ranking.rank a.name = ranking.rank b.name → a = b) ∧
      SortedBy ranking s (s.sortBy ranking) ∧ s.sortBy ranking = t := by
  intro ranking a b u s t
  have hperm : t.entries.Perm s.entries := (List.reverse_perm t.entries).symm
  have hdiffer : ∀ a ∈ s.entries, ∀ b ∈ s.entries,
      ranking.rank a.name = ranking.rank b.name → a = b := by decide +kernel
  have hordered : t.entries.Pairwise fun a b =>
      decide (ranking.rank a.name ≤ ranking.rank b.name) = true := by decide +kernel
  obtain ⟨hsorted, -, hshuffled⟩ := sortBy_sorts_stably s ranking
  refine ⟨hperm, hdiffer, hsorted, ?_⟩
  rw [← hshuffled t hperm hdiffer]
  exact congrArg Selection.mk (List.mergeSort_of_pairwise hordered)

end Selection

end PromptTags
