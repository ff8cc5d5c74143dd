/-
What a scanned tree lists, and what it contains.

The scan puts every entry under its name among sorted ones and notes the path that leads to it. So
in each directory of the tree no name stands twice, and the path of an entry is made of the names on
the way to it (`TreeItem.Placed`). The listing walks the tree and collects these paths; the lookup
cuts a path and goes down name by name. On a scanned tree both say the same of every path
(`mem_files_iff_containsFile`), and a listed path has nothing but names for its parts.
-/
import Mathlib.Data.String.Basic
import PromptTags.Catalog.Tree
import PromptTags.Proofs.Files.Names

set_option autoImplicit false

namespace PromptTags

open PromptTags.Path (ofNames)

/-! ## 1. Entries in their places -/

namespace TreeItem

/-- A name of a tag file stands for a file, and a directory is not empty. -/
def Fits (name : String) : TreeItem → Prop
  | file _ => (TagTree.stem? name).isSome = true
  | directory _ children => children ≠ []

/-- The entry that these names lead to, with all that is below it: paths are put together from the
names on the way, and each level is sorted by name. -/
inductive Placed : List String → TreeItem → Prop where
  | file {names : List String} : Placed names (.file (ofNames names))
  | directory {names : List String} {children : TagTree}
      (sorted : children.Pairwise fun a b => a.1 < b.1)
      (legal : ∀ e ∈ children, IsFileName e.1)
      (fits : ∀ e ∈ children, e.2.Fits e.1)
      (placed : ∀ e ∈ children, Placed (names ++ [e.1]) e.2) :
      Placed names (.directory (ofNames names) children)

end TreeItem

namespace TagTree

open TreeItem (Fits Placed)

theorem mem_insert {name : String} {item : TreeItem} {t : TagTree} {e : String × TreeItem}
    (h : e ∈ insert name item t) : e = (name, item) ∨ e ∈ t := by
  induction t with
  | nil => exact Or.inl (List.mem_singleton.mp h)
  | cons first rest ih =>
    rw [insert] at h
    split_ifs at h
    · exact List.mem_cons.mp h
    · rcases List.mem_cons.mp h with rfl | hrest
      · exact Or.inr List.mem_cons_self
      · exact (ih hrest).imp_right (List.mem_cons_of_mem _)
    · exact (List.mem_cons.mp h).imp_right (List.mem_cons_of_mem _)

theorem sorted_insert {name : String} {item : TreeItem} {t : TagTree}
    (h : t.Pairwise fun a b => a.1 < b.1) : (insert name item t).Pairwise fun a b => a.1 < b.1 := by
  induction t with
  | nil => exact List.pairwise_singleton _ _
  | cons first rest ih =>
    obtain ⟨hfirst, hrest⟩ := List.pairwise_cons.mp h
    rw [insert]
    split_ifs with hbefore hbehind
    · refine List.pairwise_cons.mpr ⟨fun e he => ?_, h⟩
      rcases List.mem_cons.mp he with rfl | he
      · exact hbefore
      · exact lt_trans hbefore (hfirst e he)
    · refine List.pairwise_cons.mpr ⟨fun e he => ?_, ih hrest⟩
      rcases mem_insert he with rfl | he
      · exact hbehind
      · exact hfirst e he
    · -- The new entry takes the place of the one with its name.
      obtain rfl : name = first.1 := le_antisymm (not_lt.mp hbehind) (not_lt.mp hbefore)
      exact List.pairwise_cons.mpr ⟨hfirst, hrest⟩

theorem placed_insert {names : List String} {name path : String} {item : TreeItem} {t : TagTree}
    (hname : IsFileName name) (hfits : item.Fits name) (hitem : Placed (names ++ [name]) item)
    (h : Placed names (.directory path t)) :
    Placed names (.directory path (insert name item t)) := by
  cases h with
  | directory sorted legal fits placed =>
    refine .directory (sorted_insert sorted) (fun e he => ?_) (fun e he => ?_) fun e he => ?_ <;>
      rcases mem_insert he with rfl | he
    · exact hname
    · exact legal e he
    · exact hfits
    · exact fits e he
    · exact hitem
    · exact placed e he

/-! ## 2. The scan -/

/-- The entries of a directory come to their places if each of them does. -/
theorem placed_scanEntries {names : List String} {es : List (String × FileNode)}
    (hnames : ∀ n ∈ names, IsFileName n) (hes : ∀ e ∈ es, IsFileName e.1)
    (hnode : ∀ e ∈ es, ∀ item, scanNode (ofNames (names ++ [e.1])) e.1 e.2 = some item →
      item.Fits e.1 ∧ Placed (names ++ [e.1]) item) :
    Placed names (.directory (ofNames names) (scanEntries (ofNames names) es)) := by
  induction es with
  | nil =>
    rw [scanEntries]
    exact .directory List.Pairwise.nil (fun _ h => absurd h List.not_mem_nil)
      (fun _ h => absurd h List.not_mem_nil) fun _ h => absurd h List.not_mem_nil
  | cons e es ih =>
    obtain ⟨name, n⟩ := e
    obtain ⟨hname, hes⟩ := List.forall_mem_cons.mp hes
    obtain ⟨hfirst, hrest⟩ := List.forall_mem_cons.mp hnode
    have hbelow := ih hes hrest
    rw [scanEntries, Path.within_ofNames hnames]
    cases hitem : scanNode (ofNames (names ++ [name])) name n with
    | none => exact hbelow
    | some item =>
      obtain ⟨hfits, hplaced⟩ := hfirst item hitem
      exact placed_insert hname hfits hplaced hbelow

theorem placed_scanNode {n : FileNode} (h : n.Named) {names : List String} {name : String}
    {item : TreeItem} (hnames : ∀ m ∈ names, IsFileName m)
    (hitem : scanNode (ofNames names) name n = some item) :
    item.Fits name ∧ Placed names item := by
  induction h generalizing names name item with
  | file content =>
    rw [scanNode] at hitem
    split_ifs at hitem with hstem
    obtain rfl := Option.some.inj hitem
    exact ⟨hstem, .file⟩
  | directory hes _ ih =>
    rw [scanNode] at hitem
    split_ifs at hitem with hempty
    obtain rfl := Option.some.inj hitem
    refine ⟨fun hnil => hempty (List.isEmpty_iff.mpr hnil), placed_scanEntries hnames hes ?_⟩
    intro e he item' hitem'
    refine ih e he (fun m hm => ?_) hitem'
    rcases List.mem_append.mp hm with hm | hm
    · exact hnames m hm
    · exact List.mem_singleton.mp hm ▸ hes e he

/-- In the tree of a directory whose names are names of files, everything is in its place. -/
theorem placed_of_scan? {d : Disk} {root : String} {t : TagTree} (hdisk : d.root.Named)
    (h : scan? d root = some t) : Placed [] (.directory "" t) := by
  rw [scan?] at h
  split at h
  · next es hfind =>
    obtain rfl := Option.some.inj h
    obtain ⟨hes, hbelow⟩ := FileNode.named_entries (Disk.named_of_find hdisk hfind)
    refine placed_scanEntries (fun _ hm => absurd hm List.not_mem_nil) hes fun e he item hitem => ?_
    exact placed_scanNode (hbelow e he) (List.forall_mem_singleton.mpr (hes e he)) hitem
  · exact absurd h.symm (Option.some_ne_none t)

end TagTree

/-! ## 3. The listing and the lookup -/

namespace TreeItem

/-- The tag files at and below an entry. -/
def files : TreeItem → List String
  | file p => [p]
  | directory _ children => TagTree.files children

/-- Whether names lead from an entry to a tag file; no name leads to the entry itself. -/
def leadsToFile (names : List String) : TreeItem → Bool
  | file _ => names.isEmpty
  | directory _ children => TagTree.leadsToFile names children

end TreeItem

namespace TagTree

open TreeItem (Placed)

variable {t : TagTree} {path : String}

theorem mem_ownFiles_iff : path ∈ ownFiles t ↔ ∃ e ∈ t, e.2 = .file path := by
  rw [ownFiles, List.mem_filterMap]
  refine exists_congr fun e => and_congr_right fun _ => ?_
  cases e.2 <;> simp [TreeItem.filePath?]

theorem mem_filesInDirectories_iff :
    path ∈ filesInDirectories t ↔ ∃ e ∈ t, path ∈ filesBelow e.2 := by
  induction t with
  | nil => simp [filesInDirectories]
  | cons e t ih => rw [filesInDirectories, List.mem_append, ih, List.exists_mem_cons_iff]

theorem mem_files_iff : path ∈ files t ↔ ∃ e ∈ t, path ∈ e.2.files := by
  rw [files, List.mem_append, mem_filesInDirectories_iff, mem_ownFiles_iff, ← exists_or]
  refine exists_congr fun e => ?_
  rw [← and_or_left]
  refine and_congr_right fun _ => ?_
  cases e.2 with
  | file p => simp [filesBelow, TreeItem.files, eq_comm]
  | directory p children => simp [filesBelow, TreeItem.files, files]

theorem leadsToFile_cons (name : String) (names : List String) :
    leadsToFile (name :: names) t = (t.lookup name).any (·.leadsToFile names) := by
  cases names with
  | nil =>
    rw [leadsToFile]
    rcases t.lookup name with _ | (p | ⟨p, children⟩) <;> rfl
  | cons n ns =>
    rw [leadsToFile]
    · rcases t.lookup name with _ | (p | ⟨p, children⟩) <;> rfl
    · exact List.cons_ne_nil n ns

/-- Among sorted entries each one is found under its name. -/
theorem lookup_eq_some_iff {name : String} {item : TreeItem}
    (h : t.Pairwise fun a b => a.1 < b.1) : t.lookup name = some item ↔ (name, item) ∈ t :=
  Keyed.lookup_eq_some_iff (List.pairwise_map.mpr (h.imp ne_of_lt))

theorem leadsToFile_iff {names : List String} (h : t.Pairwise fun a b => a.1 < b.1) :
    leadsToFile names t = true ↔
      ∃ e ∈ t, ∃ rest, names = e.1 :: rest ∧ e.2.leadsToFile rest = true := by
  cases names with
  | nil => exact iff_of_false (by rw [leadsToFile]; exact Bool.false_ne_true) (by simp)
  | cons name rest =>
    rw [leadsToFile_cons, Option.any_eq_true]
    simp only [lookup_eq_some_iff h]
    constructor
    · rintro ⟨item, hmem, hleads⟩
      exact ⟨_, hmem, rest, rfl, hleads⟩
    · rintro ⟨e, hmem, _, hnames, hleads⟩
      obtain ⟨rfl, rfl⟩ := List.cons.inj hnames
      exact ⟨e.2, hmem, hleads⟩

/-- The files at and below an entry are those that names lead to. -/
theorem mem_files_iff_leadsToFile {names : List String} {item : TreeItem} (h : Placed names item) :
    path ∈ item.files ↔
      ∃ below, item.leadsToFile below = true ∧ path = ofNames (names ++ below) := by
  induction h with
  | file =>
    constructor
    · intro hpath
      exact ⟨[], rfl, by rw [List.append_nil]; exact List.mem_singleton.mp hpath⟩
    · rintro ⟨below, hleads, hpath⟩
      rw [List.isEmpty_iff.mp hleads, List.append_nil] at hpath
      exact List.mem_singleton.mpr hpath
  | @directory names children sorted _ _ _ ih =>
    rw [TreeItem.files, mem_files_iff]
    constructor
    · rintro ⟨e, he, hpath⟩
      obtain ⟨rest, hleads, rfl⟩ := (ih e he).mp hpath
      refine ⟨e.1 :: rest, (leadsToFile_iff sorted).mpr ⟨e, he, rest, rfl, hleads⟩, ?_⟩
      rw [List.append_assoc, List.singleton_append]
    · rintro ⟨below, hleads, rfl⟩
      obtain ⟨e, he, rest, rfl, hrest⟩ := (leadsToFile_iff sorted).mp hleads
      refine ⟨e, he, (ih e he).mpr ⟨rest, hrest, ?_⟩⟩
      rw [List.append_assoc, List.singleton_append]

theorem isFileName_of_leadsToFile {names below : List String} {item : TreeItem}
    (h : Placed names item) (hleads : item.leadsToFile below = true) :
    ∀ n ∈ below, IsFileName n := by
  induction h generalizing below with
  | file =>
    rw [List.isEmpty_iff.mp hleads]
    exact fun _ hn => absurd hn List.not_mem_nil
  | directory sorted legal _ _ ih =>
    obtain ⟨e, he, rest, rfl, hrest⟩ := (leadsToFile_iff sorted).mp hleads
    exact List.forall_mem_cons.mpr ⟨legal e he, ih e he hrest⟩

variable (h : Placed [] (.directory "" t))
include h

/-- A listed path is made of the names that lead to its file. -/
theorem leadsToFile_parts (hpath : path ∈ files t) :
    leadsToFile (Path.parts path) t = true ∧ ∀ n ∈ Path.parts path, IsFileName n := by
  obtain ⟨names, hleads, rfl⟩ := (mem_files_iff_leadsToFile h).mp hpath
  have hnames := isFileName_of_leadsToFile h hleads
  have hne : names ≠ [] := by
    rintro rfl
    exact Bool.false_ne_true hleads
  rw [List.nil_append, Path.parts_ofNames hne hnames]
  exact ⟨hleads, hnames⟩

theorem isFileName_of_mem_files (hpath : path ∈ files t) : ∀ n ∈ Path.parts path, IsFileName n :=
  (leadsToFile_parts h hpath).2

/-- **A path is listed just where the lookup finds a tag file.** -/
theorem mem_files_iff_containsFile : path ∈ files t ↔ containsFile t path = true := by
  refine ⟨fun hpath => (leadsToFile_parts h hpath).1, fun hleads => ?_⟩
  refine (mem_files_iff_leadsToFile h).mpr ⟨Path.parts path, hleads, ?_⟩
  rw [List.nil_append, Path.ofNames_parts]

end TagTree
end PromptTags
