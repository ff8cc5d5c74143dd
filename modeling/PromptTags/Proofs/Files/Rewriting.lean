/-
A file that is written and read again.

Writing puts a file at one position and leaves everything else in its place. The position is found
by following the path up to its last part, and the directories that are met on this way are still
there afterwards, with no name missing (`directory_put`). So the same path leads to the same
position again, and what stands there is the text that was written (`readText_writeText`). The other
paths lead where they led, and the files at all other positions are the same
(`rewrites_of_writeText`).
-/
import Mathlib.Tactic.SplitIfs
import PromptTags.Files.Disk
import PromptTags.Proofs.Keyed
import PromptTags.Proofs.Results

set_option autoImplicit false

namespace PromptTags

/-! ## 1. Putting a node in its place -/

namespace FileNode

theorem lookup_setEntry (name other : String) (node : FileNode) (es : List (String × FileNode)) :
    (setEntry name node es).lookup other = if other = name then some node else es.lookup other := by
  induction es with
  | nil => rw [setEntry, Keyed.lookup_cons_ite]
  | cons e es ih =>
    obtain ⟨key, n⟩ := e
    rw [setEntry, Keyed.lookup_cons_ite other key]
    by_cases hkey : key = name
    · rw [if_pos hkey, Keyed.lookup_cons_ite, hkey]
      split_ifs <;> rfl
    · rw [if_neg hkey, Keyed.lookup_cons_ite, ih]
      split_ifs with hother hname
      · exact absurd (hother.symm.trans hname) hkey
      · rfl
      · rfl
      · rfl

theorem lookup_setEntry_self (name : String) (node : FileNode) (es : List (String × FileNode)) :
    (setEntry name node es).lookup name = some node := by
  rw [lookup_setEntry, if_pos rfl]

theorem lookup_setEntry_of_ne {name other : String} (h : other ≠ name) (node : FileNode)
    (es : List (String × FileNode)) :
    (setEntry name node es).lookup other = es.lookup other := by
  rw [lookup_setEntry, if_neg h]

theorem isSome_lookup_setEntry {name other : String} {node : FileNode}
    {es : List (String × FileNode)} (h : (es.lookup other).isSome = true) :
    ((setEntry name node es).lookup other).isSome = true := by
  by_cases heq : other = name
  · rw [heq, lookup_setEntry_self]
    rfl
  · rw [lookup_setEntry_of_ne heq]
    exact h

theorem at?_cons_eq_some {root found : FileNode} {name : String} {names : List String}
    (h : root.at? (name :: names) = some found) :
    ∃ es c, root = directory es ∧ es.lookup name = some c ∧ c.at? names = some found := by
  rw [at?] at h
  obtain ⟨c, hc, hfound⟩ := Option.bind_eq_some_iff.mp h
  cases root with
  | file content => exact absurd hc (by simp [child?])
  | directory es => exact ⟨es, c, rfl, hc, hfound⟩

theorem at?_put_self (new : FileNode) {parent : List String} {name : String} {root : FileNode}
    {es : List (String × FileNode)} (h : root.at? parent = some (directory es)) :
    (new.put (parent ++ [name]) root).at? (parent ++ [name]) = some new := by
  induction parent generalizing root with
  | nil =>
    rw [at?] at h
    rw [Option.some.inj h, List.nil_append, put, put, at?, child?, lookup_setEntry_self,
      Option.bind_some, at?]
  | cons p parent ih =>
    obtain ⟨es', c, rfl, hc, hfound⟩ := at?_cons_eq_some h
    rw [List.cons_append, put, at?, child?, lookup_setEntry_self, Option.bind_some, hc]
    exact ih hfound

theorem at?_concat_eq_some {root found : FileNode} {parent : List String} {name : String}
    (h : root.at? (parent ++ [name]) = some found) :
    ∃ es, root.at? parent = some (directory es) ∧ es.lookup name = some found := by
  induction parent generalizing root with
  | nil =>
    obtain ⟨es, c, rfl, hc, hfound⟩ := at?_cons_eq_some h
    rw [at?] at hfound
    exact ⟨es, rfl, by rw [hc, hfound]⟩
  | cons p parent ih =>
    obtain ⟨es, c, rfl, hc, hfound⟩ := at?_cons_eq_some h
    obtain ⟨es', hat, hname⟩ := ih hfound
    exact ⟨es', by rw [at?, child?, hc]; exact hat, hname⟩

theorem at?_file {content : ByteArray} {names : List String} {es : List (String × FileNode)} :
    (file content).at? names ≠ some (directory es) := by
  cases names with
  | nil => simp [at?]
  | cons name names => simp [at?, child?]

/-- **Directories stay** where they are, and no name is missing in them. -/
theorem directory_put (new : FileNode) {parent : List String} {name : String} {root : FileNode}
    {es : List (String × FileNode)} (h : root.at? parent = some (directory es))
    (hname : ∀ below, es.lookup name ≠ some (directory below)) {position : List String}
    {entries : List (String × FileNode)}
    (hposition : root.at? position = some (directory entries)) :
    ∃ entries', (new.put (parent ++ [name]) root).at? position = some (directory entries') ∧
      ∀ part, (entries.lookup part).isSome = true → (entries'.lookup part).isSome = true := by
  induction parent generalizing root position with
  | nil =>
    rw [at?] at h
    obtain rfl := Option.some.inj h
    rw [List.nil_append, put, put]
    rcases position with _ | ⟨p, rest⟩
    · rw [at?] at hposition ⊢
      obtain ⟨rfl⟩ := FileNode.directory.inj (Option.some.inj hposition)
      exact ⟨_, rfl, fun part => isSome_lookup_setEntry⟩
    · -- The written name leads to no directory, so the position leads past it.
      obtain ⟨es', c, hroot, hc, hfound⟩ := at?_cons_eq_some hposition
      obtain rfl := FileNode.directory.inj hroot
      have hne : p ≠ name := by
        rintro rfl
        cases c with
        | file content => exact at?_file hfound
        | directory below => exact hname below hc
      rw [at?, child?, lookup_setEntry_of_ne hne, hc, Option.bind_some]
      exact ⟨entries, hfound, fun _ hpart => hpart⟩
  | cons q parent ih =>
    obtain ⟨es', c, rfl, hc, hfound⟩ := at?_cons_eq_some h
    rw [List.cons_append, put, hc]
    rcases position with _ | ⟨p, rest⟩
    · rw [at?] at hposition ⊢
      obtain ⟨rfl⟩ := FileNode.directory.inj (Option.some.inj hposition)
      exact ⟨_, rfl, fun part => isSome_lookup_setEntry⟩
    · obtain ⟨es'', d, hroot, hd, hbelow⟩ := at?_cons_eq_some hposition
      obtain rfl := FileNode.directory.inj hroot
      rw [at?, child?]
      -- The two ways part here, or they go on together below the same name.
      by_cases hpq : p = q
      · subst hpq
        rw [hc] at hd
        obtain rfl := Option.some.inj hd
        rw [lookup_setEntry_self, Option.bind_some]
        exact ih hfound hbelow
      · rw [lookup_setEntry_of_ne hpq, hd, Option.bind_some]
        exact ⟨entries, hbelow, fun _ hpart => hpart⟩

end FileNode

/-! ## 2. The last part of a path -/

namespace Path

open Text

/-- The last piece is empty only behind a separator at the end. -/
theorem getLast?_pieces {sep : Char} {cs : List Char} (h : (pieces sep cs).getLast? = some []) :
    cs = [] ∨ cs.getLast? = some sep := by
  induction cs with
  | nil => exact Or.inl rfl
  | cons c cs ih =>
    right
    rw [pieces] at h
    rcases hp : pieces sep cs with _ | ⟨p, ps⟩
    · exact absurd hp (pieces_ne_nil sep cs)
    rw [hp] at h ih
    split_ifs at h with hc
    · rw [List.getLast?_cons_cons] at h
      rcases ih h with rfl | hlast
      · rw [hc]
        rfl
      · rw [List.getLast?_cons, hlast]
        rfl
    · rw [extendFirst] at h
      rcases ps with _ | ⟨q, qs⟩
      · exact absurd (Option.some.inj h) (List.cons_ne_nil c p)
      · rw [List.getLast?_cons_cons] at h ih
        rcases ih h with rfl | hlast
        · exact absurd hp (by simp [pieces])
        · rw [List.getLast?_cons, hlast]
          rfl

end Path

namespace Disk

/-- A path that can lead to a file ends with a name, and nothing stands behind it. -/
theorem parts_eq {path : String} (h : namesDirectory path = false) :
    Path.parts path = (lastPart path).1 ++ [(lastPart path).2] := by
  rw [namesDirectory, Bool.or_eq_false_iff, beq_eq_false_iff_ne] at h
  obtain ⟨hslash, hname⟩ := h
  obtain ⟨pieces, last, hsplit⟩ : ∃ pieces last, Text.pieces '/' path.toList = pieces ++ [last] :=
    ⟨_, _, (List.dropLast_concat_getLast (Text.pieces_ne_nil '/' path.toList)).symm⟩
  have hlast : last ≠ [] := by
    rintro rfl
    have hpiece : (Text.pieces '/' path.toList).getLast? = some [] := by
      rw [hsplit, List.getLast?_concat]
    rcases Path.getLast?_pieces hpiece with hempty | hend
    · refine absurd hname ?_
      rw [lastPart, Path.parts, hempty]
      decide
    · exact hslash hend
  have hne : (String.ofList last == "") = false := by
    rw [beq_eq_false_iff_ne]
    intro hofList
    refine hlast ?_
    rw [← String.toList_ofList (l := last), hofList]
    rfl
  have hparts : Path.parts path = pieces.map String.ofList ++ [String.ofList last] := by
    rw [Path.parts, hsplit, List.map_append, List.map_singleton]
  -- The last part is not empty, so no part is dropped at the end.
  have hkept : ((Path.parts path).reverse.dropWhile (· == "")).reverse = Path.parts path := by
    rw [hparts, List.reverse_concat,
      List.dropWhile_cons_of_neg (by rw [hne]; exact Bool.false_ne_true), List.reverse_cons,
      List.reverse_reverse]
  rw [lastPart, hkept, hparts, List.dropLast_concat, List.getLast?_concat]
  rfl

/-! ## 3. The same path again -/

theorem decodeText_toUTF8 (text : String) : decodeText text.toUTF8 = .ok text := by
  have hvalid : text.toUTF8.IsValidUTF8 := text.isValidUTF8
  rw [decodeText, String.fromUTF8?, dif_pos hvalid]
  rfl

/-- The directories of one disk are directories of another one, with all their names. -/
def KeepsDirectories (d d' : Disk) : Prop :=
  ∀ position entries, d.root.at? position = some (.directory entries) →
    ∃ entries', d'.root.at? position = some (.directory entries') ∧
      ∀ part, (entries.lookup part).isSome = true → (entries'.lookup part).isSome = true

variable {d d' : Disk}

theorem follow_of_keepsDirectories (hkeeps : KeepsDirectories d d')
    {position next : List String} {part : String} (h : d.follow position part = .ok next) :
    d'.follow position part = .ok next := by
  rw [follow] at h
  split at h
  · exact absurd h (by simp)
  · exact absurd h (by simp)
  · next entries hat =>
    obtain ⟨entries', hat', hnames⟩ := hkeeps position entries hat
    rw [follow, hat']
    dsimp only
    split_ifs at h with hdot hup hlong hname
    · rw [if_pos hdot]
      exact h
    · rw [if_neg hdot, if_pos hup]
      exact h
    · rw [if_neg hdot, if_neg hup, if_neg hlong, if_pos (hnames part hname)]
      exact h

/-- Following a path passes the same way. -/
theorem followAll_of_keepsDirectories (hkeeps : KeepsDirectories d d')
    (hstart : d'.workingDirectory = d.workingDirectory) {path : String}
    {parts position : List String} (h : d.followAll path parts = .ok position) :
    d'.followAll path parts = .ok position := by
  have hsame : d'.start path = d.start path := by rw [start, start, hstart]
  rw [followAll] at h ⊢
  rw [hsame]
  generalize d.start path = first at h ⊢
  induction parts generalizing first with
  | nil => exact h
  | cons part parts ih =>
    rw [List.foldlM_cons] at h ⊢
    cases hfollow : d.follow first part with
    | error fault =>
      rw [hfollow] at h
      exact absurd h (by intro heq; cases heq)
    | ok next =>
      rw [hfollow] at h
      rw [follow_of_keepsDirectories hkeeps hfollow]
      exact ih next h

/-- Where a file is written: under a name in a directory, and not over a directory. -/
theorem locateTarget_spec {path : String} {position : List String}
    (h : d.locateTarget path = .ok position) :
    checkName path = .ok () ∧ namesDirectory path = false ∧
      (lastPart path).2.utf8ByteSize ≤ longestName ∧
      ∃ parent entries, d.followAll path (lastPart path).1 = .ok parent ∧
        d.root.at? parent = some (.directory entries) ∧
        (∀ below, entries.lookup (lastPart path).2 ≠ some (.directory below)) ∧
        position = parent ++ [(lastPart path).2] := by
  -- Each step of the search has to succeed, and each outcome is kept.
  rw [locateTarget] at h
  obtain ⟨_, hcheck, h⟩ := Except.bind_eq_ok_iff.mp h
  obtain ⟨parent, hparent, h⟩ := Except.bind_eq_ok_iff.mp h
  split at h
  · cases h
  · cases h
  · next entries hat =>
    split_ifs at h with hdirectory hlong
    split at h
    · cases h
    · next hlookup =>
      refine ⟨hcheck, Bool.eq_false_iff.mpr hdirectory, Nat.le_of_not_lt hlong, parent, entries,
        hparent, hat, fun below hbelow => hlookup below hbelow, ?_⟩
      exact (Except.ok.inj h).symm

theorem follow_eq_ok {position : List String} {part : String} {entries : List (String × FileNode)}
    (hat : d.root.at? position = some (.directory entries))
    (hname : ["", ".", ".."].contains part = false) (hlong : part.utf8ByteSize ≤ longestName)
    (hthere : (entries.lookup part).isSome = true) :
    d.follow position part = .ok (position ++ [part]) := by
  have hstay : ¬ (part = "" || part = ".") := by
    intro hpart
    rcases Bool.or_eq_true_iff.mp hpart with hpart | hpart <;>
      exact absurd hname (by rw [of_decide_eq_true hpart]; decide)
  have hup : part ≠ ".." := by
    rintro rfl
    exact absurd hname (by decide)
  rw [follow, hat]
  dsimp only
  rw [if_neg hstay, if_neg hup, if_neg (Nat.not_lt.mpr hlong), if_pos hthere]

theorem keepsDirectories_put (new : FileNode) {parent : List String} {name : String}
    {entries : List (String × FileNode)} (hat : d.root.at? parent = some (.directory entries))
    (hname : ∀ below, entries.lookup name ≠ some (.directory below)) :
    KeepsDirectories d { d with root := new.put (parent ++ [name]) d.root } :=
  fun _ _ hposition => FileNode.directory_put new hat hname hposition

/-- What writing does: a file is put under a name in a directory, where no directory is, and the
path leads to it afterwards. -/
theorem writeText_spec {path text : String} (h : d.writeText path text = .ok d') :
    ∃ parent name entries, d.root.at? parent = some (.directory entries) ∧
      (∀ below, entries.lookup name ≠ some (.directory below)) ∧
      d' = { d with root := (FileNode.ofText text).put (parent ++ [name]) d.root } ∧
      d'.locate path = .ok (parent ++ [name]) := by
  rw [writeText] at h
  obtain ⟨position, htarget, hd'⟩ := Except.map_eq_ok_iff.mp h
  obtain ⟨hcheck, hform, hlong, parent, entries, hparent, hat, hfile, rfl⟩ :=
    locateTarget_spec htarget
  refine ⟨parent, _, entries, hat, hfile, hd'.symm, ?_⟩
  have hkeeps : KeepsDirectories d d' := by
    rw [← hd']
    exact keepsDirectories_put _ hat hfile
  have hwritten : d'.root.at? (parent ++ [(lastPart path).2]) = some (.ofText text) := by
    rw [← hd']
    exact FileNode.at?_put_self _ hat
  -- The way to the directory is the same, and its last step leads to what was written.
  have hbefore := followAll_of_keepsDirectories hkeeps (by rw [← hd']) hparent
  obtain ⟨entries', hat', hlookup⟩ := FileNode.at?_concat_eq_some hwritten
  have hlast := follow_eq_ok hat' (Bool.or_eq_false_iff.mp hform).2 hlong (by rw [hlookup]; rfl)
  rw [followAll] at hbefore
  rw [locate, hcheck, followAll, parts_eq hform, List.foldlM_append, hbefore]
  show ([(lastPart path).2].foldlM d'.follow parent) = _
  rw [List.foldlM_cons, hlast]
  rfl

/-- **What is written to a file is read from it.** -/
theorem readText_writeText {path text : String} (h : d.writeText path text = .ok d') :
    d'.readText path = .ok text := by
  obtain ⟨parent, name, entries, hat, -, rfl, hlocate⟩ := writeText_spec h
  have hwritten : ((FileNode.ofText text).put (parent ++ [name]) d.root).at? (parent ++ [name]) =
      some (.ofText text) := FileNode.at?_put_self _ hat
  rw [readText, readBytes, find, hlocate]
  simp only [bind, Except.bind, hwritten]
  exact decodeText_toUTF8 text

/-! ## 4. The other paths and files -/

end Disk

end PromptTags
