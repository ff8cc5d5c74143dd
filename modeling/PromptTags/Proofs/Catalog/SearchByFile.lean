/-
A search through everything, and one through file after file.

Both routes go through the store of the library, and each call may add to it. On a disk that stays
as it is this makes no difference: no call changes what is answered for a file (`answer_callsOn`).
So the catalog is the answers for the listed files one behind the other, and since a search looks at
one record after another, it may as well be made in each of them (`Catalog.search_flatMap`).
-/
import PromptTags.Proofs.Catalog.Loading

set_option autoImplicit false

namespace PromptTags

/-! ## 1. Hits -/

namespace Catalog

theorem search_sublist (c : Catalog) (term : String) : (c.search term).Sublist c :=
  List.filter_sublist

/-- What is found is among the hits as often as it is there. -/
theorem count_search {r : Record} {term : String} (h : r.foundBy term = true) (c : Catalog) :
    (c.search term).count r = c.count r :=
  List.count_filter h

theorem search_empty (c : Catalog) : c.search "" = c :=
  List.filter_eq_self.mpr fun _ _ => rfl

/-- A search through the records of several files is one through those of each file. -/
theorem search_flatMap (paths : List String) (records : String → Catalog) (term : String) :
    search (paths.flatMap records) term = paths.flatMap fun path => (records path).search term :=
  List.filter_flatMap

end Catalog

namespace Library

variable (l : Library) (d : Disk)

/-! ## 2. Calls on one disk -/

/-- The library after some calls while the disk stays as it is. -/
def callsOn (cs : List Call) : Library := l.calls (cs.map fun c => (d, c))

theorem callsOn_cons (c : Call) (cs : List Call) :
    l.callsOn d (c :: cs) = (l.call d c).2.callsOn d cs := by
  rw [callsOn, List.map_cons, calls_cons, callsOn]

theorem tree_callsOn (cs : List Call) : (l.callsOn d cs).tree = l.tree :=
  (sameDirectory_calls l _).2

/-- While the disk stays as it is, the answers do. -/
theorem answer_callsOn (cs : List Call) (path : String) :
    (l.callsOn d cs).answer d path = l.answer d path := by
  induction cs generalizing l with
  | nil => rfl
  | cons c cs ih => rw [callsOn_cons, ih, library_call, answer_tagsOfAll]

theorem tags_callsOn (cs : List Call) (path : String) :
    ((l.callsOn d cs).tags d path).1 = l.answer d path := by
  rw [tags_eq_answer, answer_callsOn]

/-- The catalog is made of the answers for the listed files; where there is none, of nothing. -/
theorem index_callsOn (cs : List Call) :
    ((l.callsOn d cs).index d).1
      = l.tree.files.flatMap fun path => (l.answer d path).toOption.getD [] := by
  rw [index, allTags, tagsOfAll_eq, tree_callsOn]
  simp only [answer_callsOn]
  induction l.tree.files with
  | nil => rfl
  | cons path paths ih =>
    rw [List.flatMap_cons, ← ih, List.filterMap_cons]
    cases (l.answer d path).toOption with
    | none => rw [Option.getD_none, List.nil_append]
    | some records => rw [Option.getD_some, List.flatten_cons]

/-- **Searching everything is searching file by file.** While the disk stays as it is, a search in
the catalog of a library finds what a search in each of the listed files finds, one behind the other
in the order of the listing, where files that fail are passed over. It does not matter what else the
library is asked for before the catalog is built and before each file. The hits are in the order of
the catalog; none is there more often than in the catalog, and each as often as there; and the empty
term finds everything. -/
theorem search_file_by_file (before : List Call) (beforeFile : String → List Call)
    (term : String) :
    let catalog := ((l.callsOn d before).index d).1
    (catalog.search term = l.tree.files.flatMap fun path =>
      match ((l.callsOn d (beforeFile path)).tags d path).1 with
      | .ok records => Catalog.search records term
      | .error _ => []) ∧
    (catalog.search term).Sublist catalog ∧
    (∀ r, (catalog.search term).count r ≤ catalog.count r) ∧
    (∀ r, r.foundBy term = true → (catalog.search term).count r = catalog.count r) ∧
    catalog.search "" = catalog := by
  intro catalog
  have hsublist := Catalog.search_sublist catalog term
  refine ⟨?_, hsublist, fun r => hsublist.count_le r, fun r hr => Catalog.count_search hr catalog,
    Catalog.search_empty catalog⟩
  rw [show catalog = _ from index_callsOn l d before, Catalog.search_flatMap]
  refine List.flatMap_congr fun path _ => ?_
  rw [tags_callsOn]
  cases l.answer d path with
  | ok records => rfl
  | error fault => rfl

end Library

end PromptTags
