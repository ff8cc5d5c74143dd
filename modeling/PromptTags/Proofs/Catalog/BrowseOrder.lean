/-
What the tree of a directory lists, and in which order.

The scan meets the entries of a directory in any order, sorts them by name and leaves out what holds
no tag file. None is lost on the way: under each name the tree has just what the scan makes of what
the directory has there (`lookup_scanEntries`), so names lead to a tag file in the tree where they
lead to one on the disk (`leadsToFile_scanEntries_iff`).

The order is proved on the tree alone. The files below one entry have the names down to that entry
in common, so two files below different entries part at the names of these entries, and the walk
takes directories first and each kind by name (`comesBefore_of_mem`). That is the order of paths by
the first component that they differ in (`Path.ComesBefore`).
-/
import PromptTags.Proofs.Catalog.Listing
import PromptTags.Proofs.Files.Entries
import PromptTags.Proofs.Text.ByteOrder

set_option autoImplicit false

namespace PromptTags

open PromptTags.Path (ofNames)
open Text (utf8)

/-! ## 1. The order of paths -/

namespace Path

/-- Whether the path of a file comes before that of another one: at the first component in which
they differ, a directory comes before a file, and otherwise the names are compared byte by byte. A
component with more behind it is a directory, and the last one is the file. -/
def ComesBefore (p q : List String) : Prop :=
  ∃ common a as b bs, p = common ++ a :: as ∧ q = common ++ b :: bs ∧ a ≠ b ∧
    ((as ≠ [] ∧ bs = []) ∨ ((as = [] ↔ bs = []) ∧ utf8 a < utf8 b))

theorem not_comesBefore_self (p : List String) : ¬ComesBefore p p := by
  rintro ⟨common, a, as, b, bs, hp, hq, hne, -⟩
  have hrest := List.append_cancel_left (hp.symm.trans hq)
  exact hne (List.cons.inj hrest).1

end Path

open PromptTags.Path (ComesBefore)

/-! ## 2. The tag files of a directory -/

/-- Names lead down to a file, and the last of them is a name of tag files. -/
def FileNode.HasTagFile (n : FileNode) (names : List String) : Prop :=
  (∃ content, n.at? names = some (.file content)) ∧ ∃ stem, names.getLast? = some (stem ++ ".yaml")

namespace TagTree

open TreeItem (Fits Placed)

theorem stem?_eq_some_iff {name stem : String} : stem? name = some stem ↔ name = stem ++ ".yaml" := by
  rw [← String.toList_inj, String.toList_append, stem?]
  split_ifs with hending
  · obtain ⟨cs, hcs⟩ := List.isSuffixOf_iff_suffix.mp hending
    rw [← hcs, List.length_append, Nat.add_sub_cancel, List.take_left, Option.some.injEq,
      ← String.toList_inj, String.toList_ofList]
    exact (List.append_left_inj _).symm
  · refine iff_of_false not_false fun hname => hending ?_
    exact List.isSuffixOf_iff_suffix.mpr ⟨stem.toList, hname.symm⟩

theorem isSome_stem?_iff {name : String} :
    (stem? name).isSome = true ↔ ∃ stem, name = stem ++ ".yaml" :=
  Option.isSome_iff_exists.trans (exists_congr fun _ => stem?_eq_some_iff)

/-! ## 3. The scan loses nothing -/

theorem lookup_insert (name : String) (item : TreeItem) (t : TagTree) (key : String) :
    (insert name item t).lookup key = if key = name then some item else t.lookup key := by
  induction t with
  | nil => rw [insert, Keyed.lookup_cons_ite]
  | cons first rest ih =>
    obtain ⟨other, kept⟩ := first
    rw [insert, Keyed.lookup_cons_ite key other]
    rcases lt_trichotomy name other with hbefore | rfl | hbehind
    · rw [if_pos hbefore, Keyed.lookup_cons_ite, Keyed.lookup_cons_ite]
    · rw [if_neg (lt_irrefl _), if_neg (lt_irrefl _), Keyed.lookup_cons_ite]
      split_ifs <;> rfl
    · have hne : ¬(key = other ∧ key = name) := fun h => ne_of_lt hbehind (h.1.symm.trans h.2)
      rw [if_neg (lt_asymm hbehind), if_pos hbehind, Keyed.lookup_cons_ite, ih]
      split_ifs with hother hname
      · exact absurd ⟨hother, hname⟩ hne
      · rfl
      · rfl
      · rfl

/-- **Under each name the tree has what the scan makes of the entry of that name.** -/
theorem lookup_scanEntries {es : List (String × FileNode)} (h : (es.map Prod.fst).Nodup)
    (path key : String) :
    (scanEntries path es).lookup key
      = (es.lookup key).bind (scanNode (Path.within path key) key) := by
  induction es with
  | nil => rw [scanEntries, List.lookup_nil, List.lookup_nil, Option.bind_none]
  | cons e es ih =>
    obtain ⟨name, n⟩ := e
    obtain ⟨hname, hrest⟩ := List.nodup_cons.mp h
    have hes := ih hrest
    rw [scanEntries, Keyed.lookup_cons_ite]
    cases hitem : scanNode (Path.within path name) name n with
    | some item =>
      show (insert name item (scanEntries path es)).lookup key = _
      rw [lookup_insert]
      split_ifs with hkey
      · rw [hkey, Option.bind_some, hitem]
      · exact hes
    | none =>
      show (scanEntries path es).lookup key = _
      rw [hes]
      split_ifs with hkey
      · -- Nothing else in the directory has this name.
        have hnone : es.lookup key = none :=
          List.lookup_eq_none_iff.mpr fun e he => bne_iff_ne.mpr fun heq =>
            hname (List.mem_map.mpr ⟨e, he, heq.symm.trans hkey⟩)
        rw [hnone, Option.bind_none, hkey, Option.bind_some, hitem]
      · rfl

theorem any_leadsToFile_scanNode (path name : String) (es : List (String × FileNode))
    (names : List String) :
    (scanNode path name (.directory es)).any (·.leadsToFile names)
      = leadsToFile names (scanEntries path es) := by
  rw [scanNode]
  split_ifs with hempty
  · rw [List.isEmpty_iff.mp hempty]
    cases names with
    | nil => rfl
    | cons first rest => rw [leadsToFile_cons]; rfl
  · rfl

/-- Names lead from an entry of the tree to a tag file where they do so on the disk. -/
theorem any_leadsToFile_scanNode_iff {n : FileNode} (h : n.Distinct) {path name : String}
    {below : List String} :
    (scanNode path name n).any (·.leadsToFile below) = true ↔
      (∃ content, n.at? below = some (.file content)) ∧
        ∃ stem, (name :: below).getLast? = some (stem ++ ".yaml") := by
  induction below generalizing n path name with
  | nil =>
    cases n with
    | file content =>
      have hname : (∃ stem, [name].getLast? = some (stem ++ ".yaml")) ↔ (stem? name).isSome := by
        simp only [isSome_stem?_iff, List.getLast?_singleton, Option.some.injEq]
      rw [hname, scanNode]
      split_ifs with hstem
      · exact iff_of_true rfl ⟨⟨content, rfl⟩, hstem⟩
      · exact iff_of_false Bool.false_ne_true fun hfile => hstem hfile.2
    | directory es =>
      rw [any_leadsToFile_scanNode]
      refine iff_of_false ?_ ?_
      · rw [leadsToFile]
        exact Bool.false_ne_true
      · rintro ⟨⟨content, hfile⟩, -⟩
        cases hfile
  | cons next below ih =>
    cases n with
    | file content =>
      refine iff_of_false ?_ ?_
      · rw [scanNode]
        split_ifs <;> exact Bool.false_ne_true
      · rintro ⟨⟨content, hfile⟩, -⟩
        cases hfile
    | directory es =>
      rw [any_leadsToFile_scanNode, leadsToFile_cons,
        lookup_scanEntries (FileNode.distinct_entries h).1, FileNode.at?, FileNode.child?,
        List.getLast?_cons_cons]
      cases hnext : es.lookup next with
      | none =>
        refine iff_of_false Bool.false_ne_true ?_
        rintro ⟨⟨content, hfile⟩, -⟩
        cases hfile
      | some c =>
        exact ih ((FileNode.distinct_entries h).2 (next, c) (Keyed.mem_of_lookup hnext))

theorem leadsToFile_scanEntries_iff {es : List (String × FileNode)}
    (h : (FileNode.directory es).Distinct) {path : String} {names : List String} :
    leadsToFile names (scanEntries path es) = true ↔
      (FileNode.directory es).HasTagFile names := by
  rw [← any_leadsToFile_scanNode path path, any_leadsToFile_scanNode_iff h]
  refine and_congr_right ?_
  rintro ⟨content, hfile⟩
  cases names with
  | nil => cases hfile
  | cons name below => rw [List.getLast?_cons_cons]

/-! ## 4. The order of the listing -/

/-- A file below an entry has the names down to the entry in front; there are more behind them if
the entry is a directory. -/
theorem parts_of_mem_files {names : List String} {t : TagTree} {top : String}
    (hnames : ∀ n ∈ names, IsFileName n) (h : Placed names (.directory top t))
    {e : String × TreeItem} (he : e ∈ t) {path : String} (hpath : path ∈ e.2.files) :
    ∃ below, Path.parts path = names ++ e.1 :: below ∧ (below = [] ↔ e.2.filePath? ≠ none) := by
  cases h with
  | directory sorted legal fits placed =>
    obtain ⟨below, hleads, rfl⟩ := (mem_files_iff_leadsToFile (placed e he)).mp hpath
    refine ⟨below, ?_, ?_⟩
    · rw [List.append_assoc, List.singleton_append]
      refine Path.parts_ofNames (List.append_ne_nil_of_right_ne_nil _ (List.cons_ne_nil _ _)) ?_
      refine List.forall_mem_append.mpr ⟨hnames, List.forall_mem_cons.mpr ⟨legal e he, ?_⟩⟩
      exact isFileName_of_leadsToFile (placed e he) hleads
    · cases hitem : e.2 with
      | file p =>
        rw [hitem] at hleads
        exact iff_of_true (List.isEmpty_iff.mp hleads) (Option.some_ne_none p)
      | directory p children =>
        rw [hitem] at hleads
        refine iff_of_false ?_ fun hfile => hfile rfl
        rintro rfl
        exact Bool.false_ne_true hleads

/-- Of two entries, one that is a directory before a file or comes first among its kind has all its
files before those of the other. -/
theorem comesBefore_of_mem {names : List String} {t : TagTree} {top : String}
    (hnames : ∀ n ∈ names, IsFileName n) (h : Placed names (.directory top t))
    {e e' : String × TreeItem} (he : e ∈ t) (he' : e' ∈ t) (hne : e.1 ≠ e'.1)
    (hkinds : (e.2.filePath? = none ∧ e'.2.filePath? ≠ none) ∨
      ((e.2.filePath? = none ↔ e'.2.filePath? = none) ∧ e.1 < e'.1))
    {p q : String} (hp : p ∈ e.2.files) (hq : q ∈ e'.2.files) :
    ComesBefore (Path.parts p) (Path.parts q) := by
  obtain ⟨as, hpa, hkind⟩ := parts_of_mem_files hnames h he hp
  obtain ⟨bs, hqb, hkind'⟩ := parts_of_mem_files hnames h he' hq
  refine ⟨names, e.1, as, e'.1, bs, hpa, hqb, hne, ?_⟩
  rw [Text.utf8_lt_iff, Ne, hkind, hkind', not_not, not_iff_not]
  exact hkinds

/-- The files below the directories of a level. -/
theorem filesInDirectories_eq (t : TagTree) :
    filesInDirectories t = t.flatMap fun e => filesBelow e.2 := by
  induction t with
  | nil => rfl
  | cons e t ih => rw [filesInDirectories, ih, List.flatMap_cons]

theorem mem_filesBelow {item : TreeItem} {path : String} (h : path ∈ filesBelow item) :
    path ∈ item.files ∧ item.filePath? = none := by
  cases item with
  | file p => exact absurd h List.not_mem_nil
  | directory p children => exact ⟨h, rfl⟩

theorem mem_files_of_filePath? {item : TreeItem} {path : String} (h : item.filePath? = some path) :
    path ∈ item.files := by
  cases item with
  | file p => exact List.mem_singleton.mpr (Option.some.inj h).symm
  | directory p children => cases h

/-- **The files at and below an entry are listed in order.** -/
theorem pairwise_files {names : List String} {item : TreeItem} (hnames : ∀ n ∈ names, IsFileName n)
    (h : Placed names item) :
    item.files.Pairwise fun p q => ComesBefore (Path.parts p) (Path.parts q) := by
  induction h with
  | file => exact List.pairwise_singleton _ _
  | @directory names children sorted legal fits placed ih =>
    have hlevel : Placed names (.directory (ofNames names) children) :=
      .directory sorted legal fits placed
    rw [TreeItem.files, files, filesInDirectories_eq, List.pairwise_append, List.pairwise_flatMap]
    refine ⟨⟨fun e he => ?_, sorted.imp_of_mem fun he he' hlt p hp q hq => ?_⟩, ?_,
      fun p hp q hq => ?_⟩
    · -- Below one directory.
      have hbelow : ∀ n ∈ names ++ [e.1], IsFileName n :=
        List.forall_mem_append.mpr ⟨hnames, List.forall_mem_singleton.mpr (legal e he)⟩
      have hfiles := ih e he hbelow
      cases hitem : e.2 with
      | file p => exact List.Pairwise.nil
      | directory p children =>
        rw [hitem] at hfiles
        exact hfiles
    · -- Below two directories.
      obtain ⟨hp, hdir⟩ := mem_filesBelow hp
      obtain ⟨hq, hdir'⟩ := mem_filesBelow hq
      exact comesBefore_of_mem hnames hlevel he he' (ne_of_lt hlt)
        (Or.inr ⟨iff_of_true hdir hdir', hlt⟩) hp hq
    · -- Two files of the level.
      rw [ownFiles, List.pairwise_filterMap]
      refine sorted.imp_of_mem fun he he' hlt p hp q hq => ?_
      refine comesBefore_of_mem hnames hlevel he he' (ne_of_lt hlt) (Or.inr ⟨?_, hlt⟩)
        (mem_files_of_filePath? hp) (mem_files_of_filePath? hq)
      rw [hp, hq]
      exact iff_of_false (Option.some_ne_none p) (Option.some_ne_none q)
    · -- A file below a directory and one of the level.
      obtain ⟨e, he, hp⟩ := List.mem_flatMap.mp hp
      obtain ⟨e', he', hq⟩ := List.mem_filterMap.mp hq
      obtain ⟨hp, hdir⟩ := mem_filesBelow hp
      have hfile : e'.2.filePath? ≠ none := hq ▸ Option.some_ne_none q
      refine comesBefore_of_mem hnames hlevel he he' (fun heq => ?_) (Or.inl ⟨hdir, hfile⟩) hp
        (mem_files_of_filePath? hq)
      -- Two entries of one name are one entry, which is not of two kinds.
      have hone := (lookup_eq_some_iff sorted).mpr he
      rw [heq, (lookup_eq_some_iff sorted).mpr he'] at hone
      exact hfile (Option.some.inj hone ▸ hdir)

/-! ## 5. The entries of a tree -/

/-- The tree holds an entry where these keys lead. -/
inductive Holds : TagTree → List String → TreeItem → Prop where
  | entry {t : TagTree} {name : String} {item : TreeItem} : (name, item) ∈ t → Holds t [name] item
  | inside {t children : TagTree} {name path : String} {names : List String} {item : TreeItem} :
      (name, .directory path children) ∈ t → Holds children names item →
      Holds t (name :: names) item

theorem placed_of_holds {top names : List String} {t : TagTree} {path : String} {item : TreeItem}
    (h : Placed top (.directory path t)) (hitem : t.Holds names item) :
    Placed (top ++ names) item ∧ ∃ name, item.Fits name := by
  induction hitem generalizing top path with
  | entry hmem =>
    cases h with
    | directory sorted legal fits placed => exact ⟨placed _ hmem, _, fits _ hmem⟩
  | inside hmem _ ih =>
    cases h with
    | directory sorted legal fits placed =>
      obtain ⟨hplaced, hfits⟩ := ih (placed _ hmem)
      rw [List.append_assoc, List.singleton_append] at hplaced
      exact ⟨hplaced, hfits⟩

/-- Keys that lead to an entry, and names that lead on from it, lead down from the top. -/
theorem leadsToFile_of_holds {top names below : List String} {t : TagTree} {path : String}
    {item : TreeItem} (h : Placed top (.directory path t)) (hitem : t.Holds names item)
    (hleads : item.leadsToFile below = true) : leadsToFile (names ++ below) t = true := by
  induction hitem generalizing top path with
  | entry hmem =>
    cases h with
    | directory sorted _ _ _ => exact (leadsToFile_iff sorted).mpr ⟨_, hmem, below, rfl, hleads⟩
  | @inside t children name path names item hmem _ ih =>
    cases h with
    | directory sorted _ _ placed =>
      have hrest : leadsToFile (names ++ below) children = true := ih (placed _ hmem) hleads
      exact (leadsToFile_iff sorted).mpr ⟨_, hmem, names ++ below, rfl, hrest⟩

/-- Directories are not empty, so going down ends at a file. -/
theorem exists_leadsToFile {names : List String} {item : TreeItem} {name : String}
    (h : Placed names item) (hfits : item.Fits name) : ∃ below, item.leadsToFile below = true := by
  induction h generalizing name with
  | file => exact ⟨[], rfl⟩
  | directory sorted _ fits _ ih =>
    obtain ⟨e, rest, rfl⟩ := List.exists_cons_of_ne_nil hfits
    obtain ⟨below, hleads⟩ := ih e List.mem_cons_self (fits e List.mem_cons_self)
    exact ⟨e.1 :: below, (leadsToFile_iff sorted).mpr ⟨e, List.mem_cons_self, below, rfl, hleads⟩⟩

theorem path_of_placed {names : List String} {item : TreeItem} (h : Placed names item) :
    item.path = ofNames names := by
  cases h <;> rfl

/-- **What is listed, and in which order.** Let a path lead to a directory on a disk. Then its tree
lists the files at any depth below it whose own names end in `.yaml`, each once and by the names
that lead to it, which are the parts of its path. They are in strictly ascending order: at the first
component in which two paths differ, directories come before files, and otherwise names are compared
byte by byte. In the tree every entry notes the keys that lead to it, and below every directory
there is a listed file. -/
theorem files_in_browse_order {d : Disk} {root : String} {es : List (String × FileNode)}
    (hnamed : d.root.Named) (hdistinct : d.root.Distinct)
    (hroot : d.find root = .ok (.directory es)) :
    ∃ t, scan? d root = some t ∧
      (∀ path, path ∈ t.files ↔
        ∃ names, (FileNode.directory es).HasTagFile names ∧ path = ofNames names) ∧
      (∀ names, (FileNode.directory es).HasTagFile names → Path.parts (ofNames names) = names) ∧
      t.files.Nodup ∧
      (t.files.Pairwise fun p q => ComesBefore (Path.parts p) (Path.parts q)) ∧
      (∀ names item, t.Holds names item → item.path = ofNames names) ∧
      ∀ names path children, t.Holds names (.directory path children) →
        ∃ below, below ≠ [] ∧ ofNames (names ++ below) ∈ t.files := by
  have hscan : scan? d root = some (scanEntries "" es) := by
    rw [scan?, hroot]
  have hplaced := placed_of_scan? hnamed hscan
  have hentries := Disk.distinct_of_find hdistinct hroot
  have hmem : ∀ path, path ∈ files (scanEntries "" es) ↔
      ∃ names, leadsToFile names (scanEntries "" es) = true ∧ path = ofNames names :=
    fun path => mem_files_iff_leadsToFile hplaced
  have hleads : ∀ names, leadsToFile names (scanEntries "" es) = true ↔
      (FileNode.directory es).HasTagFile names := fun _ => leadsToFile_scanEntries_iff hentries
  have horder := pairwise_files (fun _ hn => absurd hn List.not_mem_nil) hplaced
  refine ⟨scanEntries "" es, hscan, fun path => ?_, fun names hfile => ?_, ?_, horder,
    fun names item hitem => ?_, fun names path children hdir => ?_⟩
  · simp only [hmem, hleads]
  · refine Path.parts_ofNames ?_ (isFileName_of_leadsToFile hplaced ((hleads names).mpr hfile))
    rintro rfl
    exact Bool.false_ne_true ((hleads []).mpr hfile)
  · refine horder.imp fun hbefore heq => ?_
    rw [heq] at hbefore
    exact Path.not_comesBefore_self _ hbefore
  · exact path_of_placed (placed_of_holds hplaced hitem).1
  · obtain ⟨hdown, _, hfits⟩ := placed_of_holds hplaced hdir
    obtain ⟨below, hbelow⟩ := exists_leadsToFile hdown hfits
    refine ⟨below, ?_, (hmem _).mpr ⟨names ++ below, ?_, rfl⟩⟩
    · rintro rfl
      exact Bool.false_ne_true hbelow
    · exact leadsToFile_of_holds hplaced hdir hbelow

/-- A directory that is named like a tag file, next to one whose name is the beginning of that name,
a file of another kind, and a directory with nothing in it. -/
theorem files_in_browse_order_mixed :
    ∃ d : Disk, ∃ es t, d.root.Named ∧ d.root.Distinct ∧ d.find "data" = .ok (.directory es) ∧
      scan? d "data" = some t ∧
      t.files = ["hair/a.yaml", "hair.yaml/long.yaml", "b.yaml"] ∧
      ¬(FileNode.directory es).HasTagFile ["hair.yaml"] ∧
      ComesBefore ["hair", "a.yaml"] ["hair.yaml", "long.yaml"] ∧
      ComesBefore ["hair.yaml", "long.yaml"] ["b.yaml"] := by
  let es : List (String × FileNode) :=
    [("b.yaml", .ofText "[]"), ("hair.yaml", .directory [("long.yaml", .ofText "[]")]),
      ("notes.txt", .ofText ""), ("none", .directory []),
      ("hair", .directory [("a.yaml", .ofText "[]")])]
  let d : Disk := { root := .directory [("data", .directory es)] }
  have hnamed : d.root.Named := by
    have hone (name : String) (hname : IsFileName name) (text : String) :
        (FileNode.directory [(name, .ofText text)]).Named :=
      .directory (List.forall_mem_singleton.mpr hname) (List.forall_mem_singleton.mpr (.file _))
    have hnone : (FileNode.directory []).Named := .directory (by simp) (by simp)
    refine .directory (by decide +kernel) (List.forall_mem_singleton.mpr ?_)
    refine .directory (by decide +kernel) ?_
    simp only [es, List.forall_mem_cons, List.not_mem_nil, false_imp_iff, implies_true, and_true]
    exact ⟨.file _, hone _ (by decide +kernel) _, .file _, hnone, hone _ (by decide +kernel) _⟩
  have hdistinct : d.root.Distinct := by
    have hone (name text : String) : (FileNode.directory [(name, .ofText text)]).Distinct :=
      .directory (List.nodup_singleton _) (List.forall_mem_singleton.mpr (.file _))
    have hnone : (FileNode.directory []).Distinct := .directory List.nodup_nil (by simp)
    refine .directory (List.nodup_singleton _) (List.forall_mem_singleton.mpr ?_)
    refine .directory (by decide +kernel) ?_
    simp only [es, List.forall_mem_cons, List.not_mem_nil, false_imp_iff, implies_true, and_true]
    exact ⟨.file _, hone _ _, .file _, hnone, hone _ _⟩
  have hroot : d.find "data" = .ok (.directory es) := rfl
  obtain ⟨t, hscan, hmem, -, -, horder, -⟩ := files_in_browse_order hnamed hdistinct hroot
  have hfiles : t.files = ["hair/a.yaml", "hair.yaml/long.yaml", "b.yaml"] := by
    obtain rfl := Option.some.inj hscan
    decide +kernel
  rw [hfiles] at hmem horder
  obtain ⟨hfirst, hrest⟩ := List.pairwise_cons.mp horder
  obtain ⟨hsecond, -⟩ := List.pairwise_cons.mp hrest
  refine ⟨d, es, t, hnamed, hdistinct, hroot, hscan, hfiles, fun hfile => ?_, ?_, ?_⟩
  · exact absurd ((hmem "hair.yaml").mpr ⟨_, hfile, rfl⟩) (by decide +kernel)
  · exact hfirst _ List.mem_cons_self
  · exact hsecond _ List.mem_cons_self

end TagTree
end PromptTags
