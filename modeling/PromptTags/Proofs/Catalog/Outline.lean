/-
What the outline of a tree shows.

An outline has names in it and no paths. Whoever reads it line by line has to remember the
directories that are open: a line stands below those that are less deep, and closes the others. The
lines of one level are read with the directories above it open and leave these open, whatever was
opened and closed in between (`Shows`). So what two parts of an outline show is put together when one
stands behind the other, and a directory shows what its own lines show one level deeper.

A tag file stands in the outline without its ending, which the reader puts back; what is left of a
name has no slash at its end, so a file is never taken for a directory. That the depth of a line can
be seen needs names that do not start with a space, and names with a line break in them would be two
lines.
-/
import PromptTags.Proofs.Catalog.BrowseOrder

set_option autoImplicit false

namespace PromptTags

open PromptTags.Path (ofNames)

/-! ## 1. Reading an outline -/

namespace Outline

/-- The lines of a text, each without the line break that ends it. -/
def lines (text : String) : List (List Char) := (Text.pieces '\n' text.toList).dropLast

/-- The level of a line: two spaces in front for each level. -/
def level (line : List Char) : Nat := (line.takeWhile (· == ' ')).length / 2

/-- What a line shows behind its indentation. -/
def label (line : List Char) : List Char := line.drop (2 * level line)

/-- The paths of the files that lines show, when the directories in `opened` lead to what stands in
front of them. A line closes those at its own level and deeper. If it ends in a slash it opens a
directory, and any other line is a file. -/
def filesOfLines (opened : List String) : List (List Char) → List String
  | [] => []
  | line :: rest =>
    let above := opened.take (level line)
    if (label line).getLast? = some '/' then
      filesOfLines (above ++ [String.ofList (label line).dropLast]) rest
    else ofNames (above ++ [String.ofList (label line) ++ ".yaml"]) :: filesOfLines above rest

def filesWithin (opened : List String) (text : String) : List String :=
  filesOfLines opened (lines text)

/-- The paths of the files that an outline shows, in its order. -/
def files (text : String) : List String := filesWithin [] text

/-! ## 2. One line -/

/-- A name that is seen to be one, and where it starts, when it stands indented on a line. -/
structure FitsLine (name : String) : Prop where
  no_break : '\n' ∉ name.toList
  no_space : name.toList.head? ≠ some ' '

instance (name : String) : Decidable (FitsLine name) :=
  decidable_of_iff ('\n' ∉ name.toList ∧ name.toList.head? ≠ some ' ')
    ⟨fun h => ⟨h.1, h.2⟩, fun h => ⟨h.no_break, h.no_space⟩⟩

theorem FitsLine.of_append {front rest : String} (h : FitsLine (front ++ rest)) : FitsLine front := by
  obtain ⟨hbreak, hspace⟩ := h
  rw [String.toList_append] at hbreak hspace
  refine ⟨fun hc => hbreak (List.mem_append_left _ hc), ?_⟩
  cases hcs : front.toList with
  | nil => exact (Option.some_ne_none _).symm
  | cons c cs => rwa [hcs] at hspace

theorem lines_append {line : List Char} (h : '\n' ∉ line) (text : String) :
    lines (String.ofList line ++ "\n" ++ text) = line :: lines text := by
  have hchars : (String.ofList line ++ "\n" ++ text).toList = line ++ '\n' :: text.toList := by
    rw [String.append_assoc, String.toList_append, String.toList_append, String.toList_ofList]
    rfl
  rw [lines, hchars, Text.pieces_append_cons, Text.pieces_of_not_mem h, List.singleton_append,
    List.dropLast_cons_of_ne_nil (Text.pieces_ne_nil _ _)]
  rfl

theorem level_indented (depth : Nat) {cs : List Char} (h : cs.head? ≠ some ' ') :
    level (List.replicate (2 * depth) ' ' ++ cs) = depth := by
  have hspaces : (List.replicate (2 * depth) ' ' ++ cs).takeWhile (· == ' ')
      = List.replicate (2 * depth) ' ' :=
    Text.takeWhile_run (fun c hc => beq_iff_eq.mpr (List.eq_of_mem_replicate hc))
      fun c hc => beq_eq_false_iff_ne.mpr fun heq => h (heq ▸ hc)
  rw [level, hspaces, List.length_replicate, Nat.mul_div_cancel_left depth Nat.two_pos]

theorem label_indented (depth : Nat) {cs : List Char} (h : cs.head? ≠ some ' ') :
    label (List.replicate (2 * depth) ' ' ++ cs) = cs := by
  rw [label, level_indented depth h]
  exact List.drop_left' List.length_replicate

/-- What is read from a line of an outline and the text behind it. -/
theorem filesWithin_outlineLine (opened : List String) (depth : Nat) {text : String}
    (h : FitsLine text) (rest : String) :
    filesWithin opened (TagTree.outlineLine depth text ++ rest) =
      if text.toList.getLast? = some '/' then
        filesWithin (opened.take depth ++ [String.ofList text.toList.dropLast]) rest
      else ofNames (opened.take depth ++ [text ++ ".yaml"])
        :: filesWithin (opened.take depth) rest := by
  have hline : TagTree.outlineLine depth text
      = String.ofList (List.replicate (2 * depth) ' ' ++ text.toList) ++ "\n" := by
    rw [TagTree.outlineLine, String.ofList_append, String.ofList_toList]
  have hbreak : '\n' ∉ List.replicate (2 * depth) ' ' ++ text.toList := by
    rw [List.mem_append, not_or]
    exact ⟨fun hc => absurd (List.eq_of_mem_replicate hc) (by decide), h.no_break⟩
  rw [filesWithin, hline, lines_append hbreak, filesOfLines, level_indented depth h.no_space,
    label_indented depth h.no_space, String.ofList_toList]
  rfl

end Outline

open Outline (FitsLine filesWithin filesWithin_outlineLine)

/-! ## 3. Parts of an outline -/

/-- With the directories `above` open, the text shows these files, and they are open after it. -/
def Outline.Shows (above : List String) (text : String) (found : List String) : Prop :=
  ∀ opened : List String, opened.take above.length = above → ∀ rest : String,
    ∃ opened' : List String, opened'.take above.length = above ∧
      filesWithin opened (text ++ rest) = found ++ filesWithin opened' rest

namespace Outline.Shows

variable {above found found' : List String} {text text' name : String}

theorem nil (above : List String) : Shows above "" [] :=
  fun opened habove rest => ⟨opened, habove, by rw [String.empty_append, List.nil_append]⟩

theorem append (h : Shows above text found) (h' : Shows above text' found') :
    Shows above (text ++ text') (found ++ found') := by
  intro opened habove rest
  obtain ⟨between, hbetween, hfound⟩ := h opened habove (text' ++ rest)
  obtain ⟨opened', hopened', hfound'⟩ := h' between hbetween rest
  refine ⟨opened', hopened', ?_⟩
  rw [String.append_assoc, hfound, hfound', List.append_assoc]

/-- The line of a tag file. -/
theorem file (hname : FitsLine name) (hslash : '/' ∉ name.toList) :
    Shows above (TagTree.outlineLine above.length name) [ofNames (above ++ [name ++ ".yaml"])] := by
  intro opened habove rest
  have hlast : name.toList.getLast? ≠ some '/' := fun h => hslash (List.mem_of_getLast? h)
  refine ⟨above, List.take_length, ?_⟩
  rw [filesWithin_outlineLine opened above.length hname, if_neg hlast, habove]
  rfl

/-- The line of a directory, and the lines of what is in it. -/
theorem directory (hname : FitsLine name) (h : Shows (above ++ [name]) text found) :
    Shows above (TagTree.outlineLine above.length (name ++ "/") ++ text) found := by
  intro opened habove rest
  have hchars : (name ++ "/").toList = name.toList ++ ['/'] := String.toList_append
  have hline : FitsLine (name ++ "/") := by
    refine ⟨?_, ?_⟩ <;> rw [hchars]
    · rw [List.mem_append, not_or]
      exact ⟨hname.no_break, by decide⟩
    · have hfirst := hname.no_space
      cases hcs : name.toList with
      | nil => decide
      | cons c cs => rwa [hcs] at hfirst
  obtain ⟨opened', hopened', hfound⟩ := h (above ++ [name]) List.take_length rest
  refine ⟨opened', ?_, ?_⟩
  · -- What is open up to this directory is open up to the one that it is in.
    have hless : above.length ≤ (above ++ [name]).length := by
      rw [List.length_append]
      exact Nat.le_add_right _ _
    rw [← Nat.min_eq_left hless, ← List.take_take, hopened', List.take_left]
  · rw [String.append_assoc, filesWithin_outlineLine opened above.length hline, hchars,
      List.getLast?_concat, if_pos rfl, List.dropLast_concat, String.ofList_toList, habove, hfound]

end Outline.Shows

/-! ## 4. The outline of a tree -/

namespace TagTree

open TreeItem (Placed)
open Outline (Shows)

mutual
/-- The names of all that is below an entry. -/
def namesBelow : TreeItem → List String
  | .file _ => []
  | .directory _ children => names children

/-- The names of all entries of a tree, at every level. -/
def names : List (String × TreeItem) → List String
  | [] => []
  | (name, item) :: rest => name :: namesBelow item ++ names rest
end

theorem names_eq (t : TagTree) : names t = t.flatMap fun e => e.1 :: namesBelow e.2 := by
  induction t with
  | nil => rfl
  | cons e t ih => rw [names, ih, List.flatMap_cons]

/-- The outline of a tree that stands so deep in another one. -/
def outlineAt (depth : Nat) (t : TagTree) : String :=
  String.join (linesOfDirectories depth t ++ fileLines depth t)

theorem shows_directories {above : List String} {t : TagTree} (hfit : ∀ e ∈ t, FitsLine e.1)
    (hbelow : ∀ e ∈ t, ∀ path children, e.2 = .directory path children →
      Shows (above ++ [e.1]) (outlineAt (above.length + 1) children) (files children)) :
    Shows above (String.join (linesOfDirectories above.length t)) (filesInDirectories t) := by
  induction t with
  | nil => exact .nil above
  | cons e t ih =>
    obtain ⟨name, item⟩ := e
    obtain ⟨hname, hfit⟩ := List.forall_mem_cons.mp hfit
    obtain ⟨hitem, hbelow⟩ := List.forall_mem_cons.mp hbelow
    have hrest := ih hfit hbelow
    cases item with
    | file path => exact hrest
    | directory path children =>
      rw [linesOfDirectories, directoryLines, String.join_append, String.join_cons,
        filesInDirectories, filesBelow]
      exact (Shows.directory hname (hitem path children rfl)).append hrest

theorem shows_fileLines {above : List String} {t : TagTree} (hfit : ∀ e ∈ t, FitsLine e.1)
    (hslash : ∀ e ∈ t, '/' ∉ e.1.toList) (hends : ∀ e ∈ t, e.2.Fits e.1)
    (hplaced : ∀ e ∈ t, Placed (above ++ [e.1]) e.2) :
    Shows above (String.join (fileLines above.length t)) (ownFiles t) := by
  induction t with
  | nil => exact .nil above
  | cons e t ih =>
    obtain ⟨name, item⟩ := e
    obtain ⟨hname, hfit⟩ := List.forall_mem_cons.mp hfit
    obtain ⟨hno, hslash⟩ := List.forall_mem_cons.mp hslash
    obtain ⟨hend, hends⟩ := List.forall_mem_cons.mp hends
    obtain ⟨hitem, hplaced⟩ := List.forall_mem_cons.mp hplaced
    have hrest := ih hfit hslash hends hplaced
    cases item with
    | directory path children => exact hrest
    | file path =>
      obtain rfl : path = ofNames (above ++ [name]) := path_of_placed hitem
      obtain ⟨stem, hstem⟩ := Option.isSome_iff_exists.mp hend
      have hline : fileLines above.length ((name, .file (ofNames (above ++ [name]))) :: t)
          = outlineLine above.length stem :: fileLines above.length t := by
        rw [fileLines, List.filterMap_cons_some (b := outlineLine above.length stem)]
        · rfl
        · rw [hstem]
          rfl
      obtain rfl := stem?_eq_some_iff.mp hstem
      rw [String.toList_append] at hno
      rw [hline, String.join_cons]
      exact (Shows.file hname.of_append fun hc => hno (List.mem_append_left _ hc)).append hrest

/-- **The lines of a level show its files.** -/
theorem shows_outlineAt {above : List String} {item : TreeItem} (h : Placed above item)
    (hfit : ∀ n ∈ namesBelow item, FitsLine n) {path : String} {children : TagTree}
    (hitem : item = .directory path children) :
    Shows above (outlineAt above.length children) (files children) := by
  induction h generalizing path children with
  | file => cases hitem
  | @directory above level sorted legal fits placed ih =>
    cases hitem
    rw [namesBelow, names_eq] at hfit
    have hown : ∀ e ∈ level, FitsLine e.1 := fun e he =>
      hfit e.1 (List.mem_flatMap.mpr ⟨e, he, List.mem_cons_self⟩)
    have hbelow : ∀ e ∈ level, ∀ path children, e.2 = .directory path children →
        Shows (above ++ [e.1]) (outlineAt (above.length + 1) children) (files children) := by
      intro e he path children hdir
      have hlevel := ih e he (fun n hn => hfit n (List.mem_flatMap.mpr
        ⟨e, he, List.mem_cons_of_mem _ hn⟩)) hdir
      rwa [List.length_append] at hlevel
    have hdirs := shows_directories hown hbelow
    have hfiles := shows_fileLines hown (fun e he => (legal e he).no_slash) fits placed
    rw [outlineAt, String.join_append]
    exact hdirs.append hfiles

/-- The tree of a directory on some disk. -/
def IsScanned (t : TagTree) : Prop :=
  ∃ (d : Disk) (root : String), d.root.Named ∧ scan? d root = some t

/-- **The outline shows the listing.** Let no name in a scanned tree have a line break in it or
start with a space. Then whoever reads its outline line by line finds the paths of its files, in the
order of the listing. So two such trees with one outline have the same files. -/
theorem files_outline {t : TagTree} (hscan : t.IsScanned) (hfit : ∀ n ∈ names t, FitsLine n) :
    Outline.files t.outline = t.files ∧
      ∀ t' : TagTree, t'.IsScanned → (∀ n ∈ names t', FitsLine n) → t'.outline = t.outline →
        t'.files = t.files := by
  have hread : ∀ t : TagTree, t.IsScanned → (∀ n ∈ names t, FitsLine n) →
      Outline.files t.outline = t.files := by
    rintro t ⟨d, root, hnamed, hscan⟩ hfit
    have hplaced := placed_of_scan? hnamed hscan
    obtain ⟨opened, -, hfound⟩ := shows_outlineAt hplaced hfit rfl [] rfl ""
    rw [String.append_empty] at hfound
    rw [Outline.files, outline, ← List.append_nil t.files]
    exact hfound
  refine ⟨hread t hscan hfit, fun t' hscan' hfit' houtline => ?_⟩
  rw [← hread t hscan hfit, ← houtline, hread t' hscan' hfit']

/-- A tag file of which nothing but the ending is left over, at two levels, one whose name has the
ending twice, and a directory that is named like a tag file. -/
theorem files_outline_endings :
    ∃ (d : Disk) (t : TagTree), d.root.Named ∧ scan? d "data" = some t ∧
      (∀ n ∈ names t, FitsLine n) ∧
      t.outline = "hair.yaml/\n  \n  b\n\na.yaml\n" ∧
      Outline.files t.outline = ["hair.yaml/.yaml", "hair.yaml/b.yaml", ".yaml", "a.yaml.yaml"] ∧
      ∀ t' : TagTree, t'.IsScanned → (∀ n ∈ names t', FitsLine n) → t'.outline = t.outline →
        t'.files = ["hair.yaml/.yaml", "hair.yaml/b.yaml", ".yaml", "a.yaml.yaml"] := by
  let inner : List (String × FileNode) := [("b.yaml", .ofText "[]"), (".yaml", .ofText "[]")]
  let es : List (String × FileNode) :=
    [("a.yaml.yaml", .ofText "[]"), ("hair.yaml", .directory inner), (".yaml", .ofText "[]")]
  let d : Disk := { root := .directory [("data", .directory es)] }
  have hnamed : d.root.Named := by
    have hinner : (FileNode.directory inner).Named :=
      .directory (by decide +kernel) (by simp [inner, FileNode.ofText, FileNode.Named.file])
    refine .directory (by decide +kernel) (List.forall_mem_singleton.mpr ?_)
    refine .directory (by decide +kernel) ?_
    simp only [es, List.forall_mem_cons, List.not_mem_nil, false_imp_iff, implies_true, and_true]
    exact ⟨.file _, hinner, .file _⟩
  have hscan : scan? d "data" = some (scanEntries "" es) := rfl
  have hfit : ∀ n ∈ names (scanEntries "" es), FitsLine n := by decide +kernel
  have hfiles : (scanEntries "" es).files
      = ["hair.yaml/.yaml", "hair.yaml/b.yaml", ".yaml", "a.yaml.yaml"] := by decide +kernel
  have hread := files_outline ⟨d, "data", hnamed, hscan⟩ hfit
  rw [hfiles] at hread
  exact ⟨d, scanEntries "" es, hnamed, hscan, hfit, by decide +kernel, hread⟩

end TagTree
end PromptTags
