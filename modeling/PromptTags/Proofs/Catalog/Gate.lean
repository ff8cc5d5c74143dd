/-
Which paths a library reads.

A request passes three tests of different kinds: the form of the path, the lookup in the tree, and
the files that have been loaded before, which are found without the other two. On the tree of a
directory all of them come down to the listing. A listed path is made of names, so its form is in
order (`checkPath_eq_ok_iff`); and only listed paths are ever loaded, whatever the requests and
whatever becomes of the disk between them (`guarded_run`).

So the answer to a request depends on the texts of the listed files alone (`serve_congr`), and each
of them lies below the root, at the names of its path (`Disk.locate_join`).
-/
import PromptTags.Catalog.Library
import PromptTags.Proofs.Catalog.Listing

set_option autoImplicit false

namespace PromptTags.Library

open PromptTags.Path (components)

/-! ## 1. Requests -/

/-- What a library is asked for. Whatever is built from all records starts with `allTags`. -/
inductive Request where
  | tags (path : String)
  | allTags

/-- The answer to a request on a disk, and the library after it. -/
def serve (d : Disk) (l : Library) : Request → Except LibraryFault Catalog × Library
  | .tags path => l.tags d path
  | .allTags => (.ok (l.allTags d).1, (l.allTags d).2)

/-- The library after some requests, each with the disk as it is at that time. -/
def run (l : Library) (steps : List (Disk × Request)) : Library :=
  steps.foldl (fun l step => (l.serve step.1 step.2).2) l

theorem run_cons (l : Library) (d : Disk) (r : Request) (steps : List (Disk × Request)) :
    l.run ((d, r) :: steps) = (l.serve d r).2.run steps := by
  rw [run, List.foldl_cons, run]

/-- A request for one file is answered from what was loaded; or the file is read and kept; or it
fails, and nothing changes. -/
theorem tags_cases (l : Library) (d : Disk) (path : String) :
    (∃ records, l.loaded.lookup path = some records ∧ l.tags d path = (.ok records, l)) ∨
    (∃ records, l.loaded.lookup path = none ∧ l.read d path = .ok records ∧
      l.tags d path = (.ok records, { l with loaded := (path, records) :: l.loaded })) ∨
    ∃ fault, l.loaded.lookup path = none ∧ l.read d path = .error fault ∧
      l.tags d path = (.error fault, l) := by
  rw [tags]
  cases hloaded : l.loaded.lookup path with
  | some records => exact Or.inl ⟨records, rfl, rfl⟩
  | none =>
    cases hread : l.read d path with
    | ok records => exact Or.inr (Or.inl ⟨records, rfl, rfl, rfl⟩)
    | error fault => exact Or.inr (Or.inr ⟨fault, rfl, rfl, rfl⟩)

/-- A request for several files asks for the first one and then for the others. -/
theorem tagsOfAll_cons (l : Library) (d : Disk) (path : String) (paths : List String) :
    l.tagsOfAll d (path :: paths) =
      ((l.tags d path).1.toOption.getD [] ++ ((l.tags d path).2.tagsOfAll d paths).1,
        ((l.tags d path).2.tagsOfAll d paths).2) := rfl

/-! ## 2. The root and the tree stay -/

/-- Two libraries on one directory. -/
def SameDirectory (l l' : Library) : Prop := l'.root = l.root ∧ l'.tree = l.tree

namespace SameDirectory

theorem refl (l : Library) : l.SameDirectory l := ⟨rfl, rfl⟩

theorem trans {l l' l'' : Library} (h : l.SameDirectory l') (h' : l'.SameDirectory l'') :
    l.SameDirectory l'' :=
  ⟨h'.1.trans h.1, h'.2.trans h.2⟩

end SameDirectory

theorem diskPath_of_sameDirectory {l l' : Library} (h : l.SameDirectory l') :
    l'.diskPath = l.diskPath :=
  funext fun path => by rw [diskPath, diskPath, h.1]

theorem sameDirectory_tags (l : Library) (d : Disk) (path : String) :
    l.SameDirectory (l.tags d path).2 := by
  rcases tags_cases l d path with ⟨_, _, h⟩ | ⟨_, _, _, h⟩ | ⟨_, _, _, h⟩ <;> exact h ▸ ⟨rfl, rfl⟩

theorem sameDirectory_tagsOfAll (l : Library) (d : Disk) (paths : List String) :
    l.SameDirectory (l.tagsOfAll d paths).2 := by
  induction paths generalizing l with
  | nil => exact .refl l
  | cons path paths ih =>
    rw [tagsOfAll_cons]
    exact (sameDirectory_tags l d path).trans (ih _)

theorem sameDirectory_serve (l : Library) (d : Disk) (r : Request) :
    l.SameDirectory (l.serve d r).2 := by
  cases r with
  | tags path => exact sameDirectory_tags l d path
  | allTags => exact sameDirectory_tagsOfAll l d l.tree.files

theorem sameDirectory_run (l : Library) (steps : List (Disk × Request)) :
    l.SameDirectory (l.run steps) := by
  induction steps generalizing l with
  | nil => exact .refl l
  | cons step steps ih =>
    obtain ⟨d, r⟩ := step
    rw [run_cons]
    exact (sameDirectory_serve l d r).trans (ih _)

/-! ## 3. Refused paths -/

variable {l : Library} {d d₁ d₂ : Disk} {path : String}

theorem checkPath_eq_ok (hform : Path.isDescending path = true)
    (hthere : l.tree.containsFile path = true) : l.checkPath path = .ok () := by
  rw [checkPath, hform, hthere]
  rfl

/-- A path that is not in the tree is refused, for its form if that is at fault. -/
theorem checkPath_of_not_containsFile (h : l.tree.containsFile path = false) :
    l.checkPath path =
      .error (if Path.isDescending path then .notListed path else .badPath path) := by
  rw [checkPath, h]
  cases Path.isDescending path <;> rfl

theorem read_of_refused {fault : LibraryFault} (h : l.checkPath path = .error fault) :
    l.read d path = .error fault := by
  rw [read, h]
  rfl

/-- What can come of a path that is not refused. -/
def PastGate (l : Library) (path : String) (answer : Except LibraryFault Catalog) : Prop :=
  (∃ records, answer = .ok records) ∨
    (∃ fault, answer = .error (.unreadable (l.diskPath path) fault)) ∨
    ∃ fault, answer = .error (.undecodable path fault)

theorem pastGate_read (h : l.checkPath path = .ok ()) : l.PastGate path (l.read d path) := by
  rw [read, h]
  cases htext : d.readText (l.diskPath path) with
  | error fault => exact Or.inr (Or.inl ⟨fault, by simp only [bind, Except.bind]⟩)
  | ok text =>
    cases hdecode : TagFile.decode text with
    | ok records => exact Or.inl ⟨records, by simp only [bind, Except.bind, hdecode]⟩
    | error fault =>
      exact Or.inr (Or.inr ⟨fault, by simp only [bind, Except.bind, hdecode]⟩)

/-! ## 4. Reading -/

/-- The disk is only asked for the text of the one file. -/
theorem read_congr (h : d₁.readText (l.diskPath path) = d₂.readText (l.diskPath path)) :
    l.read d₁ path = l.read d₂ path := by
  rw [read, read, h]

theorem tags_congr (h : l.read d₁ path = l.read d₂ path) : l.tags d₁ path = l.tags d₂ path := by
  rw [tags, tags, h]

theorem tagsOfAll_congr {paths : List String}
    (h : ∀ p ∈ paths, d₁.readText (l.diskPath p) = d₂.readText (l.diskPath p)) :
    l.tagsOfAll d₁ paths = l.tagsOfAll d₂ paths := by
  induction paths generalizing l with
  | nil => rfl
  | cons p paths ih =>
    obtain ⟨hp, hpaths⟩ := List.forall_mem_cons.mp h
    have hrest : ∀ q ∈ paths, d₁.readText ((l.tags d₂ p).2.diskPath q)
        = d₂.readText ((l.tags d₂ p).2.diskPath q) := by
      rw [diskPath_of_sameDirectory (sameDirectory_tags l d₂ p)]
      exact hpaths
    rw [tagsOfAll_cons, tagsOfAll_cons, tags_congr (read_congr hp), ih hrest]

/-! ## 5. Libraries on a directory -/

/-- The tree is that of a directory, and only listed files have been loaded. -/
structure Guarded (l : Library) : Prop where
  root_ne_empty : l.root ≠ ""
  placed : TreeItem.Placed [] (.directory "" l.tree)
  listed : ∀ e ∈ l.loaded, e.1 ∈ l.tree.files

theorem guarded_ofRoot {root : String} (hdisk : d.root.Named) (h : ofRoot d root = .ok l) :
    l.Guarded := by
  rw [ofRoot] at h
  cases hscan : TagTree.scan? d root with
  | none => rw [hscan] at h; cases h
  | some t =>
    rw [hscan] at h
    obtain rfl := Except.ok.inj h
    refine ⟨?_, TagTree.placed_of_scan? hdisk hscan, fun _ he => absurd he List.not_mem_nil⟩
    rintro rfl
    cases hscan

namespace Guarded

theorem mem_files_iff (h : l.Guarded) : path ∈ l.tree.files ↔ l.tree.containsFile path = true :=
  TagTree.mem_files_iff_containsFile h.placed

theorem isFileName (h : l.Guarded) (hpath : path ∈ l.tree.files) :
    ∀ n ∈ Path.parts path, IsFileName n :=
  TagTree.isFileName_of_mem_files h.placed hpath

theorem checkPath_of_mem (h : l.Guarded) (hpath : path ∈ l.tree.files) :
    l.checkPath path = .ok () :=
  checkPath_eq_ok (Path.isDescending_of_names (h.isFileName hpath)) (h.mem_files_iff.mp hpath)

theorem checkPath_of_not_mem (h : l.Guarded) (hpath : path ∉ l.tree.files) :
    l.checkPath path =
      .error (if Path.isDescending path then .notListed path else .badPath path) :=
  checkPath_of_not_containsFile (Bool.eq_false_iff.mpr (mt h.mem_files_iff.mpr hpath))

/-- What is not listed was never loaded, so it is refused now as before. -/
theorem tags_of_not_mem (h : l.Guarded) (hpath : path ∉ l.tree.files) (d : Disk) :
    l.tags d path =
      (.error (if Path.isDescending path then .notListed path else .badPath path), l) := by
  have hread := read_of_refused (d := d) (h.checkPath_of_not_mem hpath)
  rcases tags_cases l d path with ⟨records, hloaded, -⟩ | ⟨_, -, hok, -⟩ | ⟨_, -, herror, heq⟩
  · exact absurd (h.listed _ (Keyed.mem_of_lookup hloaded)) hpath
  · rw [hread] at hok
    cases hok
  · rw [heq, Except.error.inj (herror.symm.trans hread)]

theorem pastGate_iff (h : l.Guarded) (d : Disk) (path : String) :
    l.PastGate path (l.tags d path).1 ↔ path ∈ l.tree.files := by
  constructor
  · intro hpast
    by_contra hpath
    rw [h.tags_of_not_mem hpath d] at hpast
    split_ifs at hpast <;> obtain ⟨_, heq⟩ | ⟨_, heq⟩ | ⟨_, heq⟩ := hpast <;> cases heq
  · intro hpath
    have hread := pastGate_read (d := d) (h.checkPath_of_mem hpath)
    rcases tags_cases l d path with ⟨records, -, heq⟩ | ⟨_, -, hok, heq⟩ | ⟨_, -, herror, heq⟩
    · exact Or.inl ⟨records, by rw [heq]⟩
    · rw [heq, ← hok]
      exact hread
    · rw [heq, ← herror]
      exact hread

/-- Two disks with the same texts in the listed files give the same answer, whatever else they
hold. -/
theorem serve_congr (h : l.Guarded)
    (hdisks : ∀ p ∈ l.tree.files, d₁.readText (l.diskPath p) = d₂.readText (l.diskPath p))
    (r : Request) : l.serve d₁ r = l.serve d₂ r := by
  cases r with
  | tags path =>
    rw [serve, serve]
    by_cases hpath : path ∈ l.tree.files
    · exact tags_congr (read_congr (hdisks path hpath))
    · rw [h.tags_of_not_mem hpath d₁, h.tags_of_not_mem hpath d₂]
  | allTags => rw [serve, serve, allTags, allTags, tagsOfAll_congr hdisks]

/-! ## 6. Runs -/

theorem guarded_tags (h : l.Guarded) (d : Disk) (path : String) : (l.tags d path).2.Guarded := by
  rcases tags_cases l d path with ⟨_, _, heq⟩ | ⟨_, _, hread, heq⟩ | ⟨_, _, _, heq⟩ <;> rw [heq]
  · exact h
  · refine ⟨h.root_ne_empty, h.placed, List.forall_mem_cons.mpr ⟨?_, h.listed⟩⟩
    by_contra hpath
    rw [read_of_refused (h.checkPath_of_not_mem hpath)] at hread
    cases hread
  · exact h

theorem guarded_tagsOfAll (h : l.Guarded) (d : Disk) (paths : List String) :
    (l.tagsOfAll d paths).2.Guarded := by
  induction paths generalizing l with
  | nil => exact h
  | cons path paths ih =>
    rw [tagsOfAll_cons]
    exact ih (h.guarded_tags d path)

theorem guarded_serve (h : l.Guarded) (d : Disk) (r : Request) : (l.serve d r).2.Guarded := by
  cases r with
  | tags path => exact h.guarded_tags d path
  | allTags => exact h.guarded_tagsOfAll d l.tree.files

theorem guarded_run (h : l.Guarded) (steps : List (Disk × Request)) : (l.run steps).Guarded := by
  induction steps generalizing l with
  | nil => exact h
  | cons step steps ih =>
    obtain ⟨d, r⟩ := step
    rw [run_cons]
    exact ih (h.guarded_serve d r)

end Guarded

/-- **Only listed paths get past the gate.** Let a library be opened on a directory, and let
requests and changes of the disk follow in any order. Then a path is let through just where it is
listed, and just where the lookup finds it. Any other path is refused, for its form if it is empty,
absolute, goes up or starts with a dot, and else because it is not there. The answers depend on the
listed files alone, and these lie below the root at the names that make up their paths. -/
theorem only_listed_paths_pass {d₀ : Disk} {root : String} {l₀ : Library}
    (hdisk : d₀.root.Named) (hopen : ofRoot d₀ root = .ok l₀) (steps : List (Disk × Request)) :
    (l₀.run steps).root = root ∧ (l₀.run steps).tree = l₀.tree ∧
    (∀ d path, (l₀.run steps).PastGate path ((l₀.run steps).tags d path).1 ↔
      path ∈ l₀.tree.files) ∧
    (∀ path, path ∈ l₀.tree.files ↔ l₀.tree.containsFile path = true) ∧
    (∀ d, ∀ path ∉ l₀.tree.files, ((l₀.run steps).tags d path).1 =
      .error (if path = "" ∨ .root ∈ components path ∨ .up ∈ components path ∨
          .here ∈ components path then .badPath path else .notListed path)) ∧
    (∀ d₁ d₂ : Disk, (∀ path ∈ l₀.tree.files,
        d₁.readText (Path.join root path) = d₂.readText (Path.join root path)) →
      ∀ r, (l₀.run steps).serve d₁ r = (l₀.run steps).serve d₂ r) ∧
    ∀ path ∈ l₀.tree.files, (∀ n ∈ Path.parts path, IsFileName n) ∧
      components path = (Path.parts path).map .name ∧
      ∀ (d : Disk) (position : List String), d.locate (Path.join root path) = .ok position →
        ∃ top, d.locate root = .ok top ∧ position = top ++ Path.parts path := by
  have hopened : l₀.Guarded := guarded_ofRoot hdisk hopen
  have hrun := hopened.guarded_run steps
  obtain ⟨hroot, htree⟩ := sameDirectory_run l₀ steps
  have hroot₀ : l₀.root = root := by
    rw [ofRoot] at hopen
    split at hopen
    · exact Except.ok.inj hopen ▸ rfl
    · cases hopen
  rw [← htree, ← hroot₀, ← hroot]
  refine ⟨rfl, rfl, hrun.pastGate_iff, fun _ => hrun.mem_files_iff, fun d path hpath => ?_,
    fun d₁ d₂ hdisks r => hrun.serve_congr hdisks r, fun path hpath => ?_⟩
  · rw [hrun.tags_of_not_mem hpath d]
    simp only [Path.isDescending_iff, ← not_or, ite_not, ne_eq]
  · have hnames := hrun.isFileName hpath
    exact ⟨hnames, Path.components_of_names hnames,
      fun d position hlocate => Disk.locate_join hrun.root_ne_empty hnames hlocate⟩

/-- A tag file that was read and then removed, a file that is no tag file, and a way up. -/
theorem only_listed_paths_pass_removed :
    ∃ d₀ d : Disk, ∃ l₀ : Library, d₀.root.Named ∧ ofRoot d₀ "/data" = .ok l₀ ∧
      (let l := l₀.run [(d₀, .tags "style/hair.yaml"), (d, .allTags)]
      l.PastGate "style/hair.yaml" (l.tags d "style/hair.yaml").1 ∧
        (l.tags d "notes.txt").1 = .error (.notListed "notes.txt") ∧
        (l.tags d₀ "style/../notes.txt").1 = .error (.badPath "style/../notes.txt")) := by
  let d₀ : Disk := { root := .directory [("data", .directory
    [("style", .directory [("hair.yaml", .ofText "- name: Bun")]), ("notes.txt", .ofText "")])] }
  let d : Disk := { root := .directory [("data", .directory [])] }
  let l₀ : Library := { root := "/data", tree :=
    [("style", .directory "style" [("hair.yaml", .file "style/hair.yaml")])] }
  have hdisk : d₀.root.Named := by
    refine .directory (by decide +kernel) (List.forall_mem_singleton.mpr ?_)
    refine .directory (by decide +kernel)
      (List.forall_mem_cons.mpr ⟨?_, List.forall_mem_singleton.mpr (.file _)⟩)
    exact .directory (by decide +kernel) (List.forall_mem_singleton.mpr (.file _))
  have hopen : ofRoot d₀ "/data" = .ok l₀ := rfl
  have hlisted : l₀.tree.files = ["style/hair.yaml"] := rfl
  obtain ⟨-, -, hpast, -, hrefused, -, -⟩ := only_listed_paths_pass hdisk hopen
    [(d₀, .tags "style/hair.yaml"), (d, .allTags)]
  rw [hlisted] at hpast hrefused
  refine ⟨d₀, d, l₀, hdisk, hopen, (hpast d _).mpr (by simp), ?_, ?_⟩
  · rw [hrefused d "notes.txt" (by simp), if_neg (by decide +kernel)]
  · rw [hrefused d₀ "style/../notes.txt" (by simp), if_pos (by decide +kernel)]

end PromptTags.Library
