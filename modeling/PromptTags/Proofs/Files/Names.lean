/-
Names of files, and the paths that are made of them.

A directory holds its entries under names that are not empty, are neither `.` nor `..`, and have no
slash in them. A path that is put together from such names is cut into the same names again
(`parts_ofNames`). `Path.components` are what the parts of a path count for: nothing between two
slashes counts for nothing, and so does a `.` that is not the first part. A path only goes down just
where it has components and all of them are names (`isDescending_iff`), and below a directory such
a path leads to what is under its names there (`locate_join`).
-/
import PromptTags.Proofs.Files.Entries
import PromptTags.Proofs.Text.Cutting

set_option autoImplicit false

namespace PromptTags

open Text

/-! ## 1. Names -/

/-- A name that a directory can hold something under. -/
structure IsFileName (name : String) : Prop where
  ne_empty : name ≠ ""
  ne_here : name ≠ "."
  ne_up : name ≠ ".."
  no_slash : '/' ∉ name.toList

instance (name : String) : Decidable (IsFileName name) :=
  decidable_of_iff (name ≠ "" ∧ name ≠ "." ∧ name ≠ ".." ∧ '/' ∉ name.toList)
    ⟨fun h => ⟨h.1, h.2.1, h.2.2.1, h.2.2.2⟩,
      fun h => ⟨h.ne_empty, h.ne_here, h.ne_up, h.no_slash⟩⟩

/-- Below this node all names are names of files. -/
inductive FileNode.Named : FileNode → Prop where
  | file (content : ByteArray) : Named (.file content)
  | directory {es : List (String × FileNode)} :
      (∀ e ∈ es, IsFileName e.1) → (∀ e ∈ es, Named e.2) → Named (.directory es)

namespace FileNode

theorem named_entries {es : List (String × FileNode)} (h : Named (.directory es)) :
    (∀ e ∈ es, IsFileName e.1) ∧ ∀ e ∈ es, Named e.2 := by
  cases h with
  | directory hnames hbelow => exact ⟨hnames, hbelow⟩

end FileNode

namespace Path

/-- The path that leads down through some names. -/
def ofNames (names : List String) : String := "/".intercalate names

theorem toList_ofNames (names : List String) :
    (ofNames names).toList = ['/'].intercalate (names.map String.toList) := by
  rw [ofNames, String.toList_intercalate]
  rfl

theorem parts_ofNames {names : List String} (hne : names ≠ [])
    (h : ∀ n ∈ names, IsFileName n) : parts (ofNames names) = names := by
  rw [parts, toList_ofNames, pieces_intercalate, List.map_map]
  · exact List.map_id'' (fun _ => String.ofList_toList) names
  · exact fun hnil => hne (List.map_eq_nil_iff.mp hnil)
  · exact List.forall_mem_map.mpr fun n hn => (h n hn).no_slash

/-- Every path is put together from its parts. -/
theorem ofNames_parts (path : String) : ofNames (parts path) = path := by
  rw [← String.toList_inj, toList_ofNames, parts, List.map_map]
  have hkept : String.toList ∘ String.ofList = id := funext fun _ => String.toList_ofList
  rw [hkept, List.map_id, intercalate_pieces]

theorem parts_ne_nil (path : String) : parts path ≠ [] :=
  fun h => pieces_ne_nil '/' path.toList (List.map_eq_nil_iff.mp h)

theorem ofNames_concat {directory : List String} (hne : directory ≠ []) (name : String) :
    ofNames (directory ++ [name]) = ofNames directory ++ "/" ++ name := by
  induction directory with
  | nil => exact absurd rfl hne
  | cons n ns ih =>
    cases ns with
    | nil => rfl
    | cons m ms =>
      have hrest := ih (List.cons_ne_nil m ms)
      rw [ofNames] at hrest ⊢
      rw [List.cons_append, List.cons_append, String.intercalate_cons_cons, ← List.cons_append,
        hrest, ofNames, ofNames, String.intercalate_cons_cons]
      simp only [String.append_assoc]

theorem within_ofNames {directory : List String} (h : ∀ n ∈ directory, IsFileName n)
    (name : String) : within (ofNames directory) name = ofNames (directory ++ [name]) := by
  rw [within]
  split_ifs with hempty
  · -- The path of the top is empty, and no other one is.
    cases directory with
    | nil => rfl
    | cons n ns =>
      have hparts := parts_ofNames (List.cons_ne_nil n ns) h
      rw [String.isEmpty_iff.mp hempty] at hparts
      exact absurd (List.cons.inj hparts).1.symm (h n List.mem_cons_self).ne_empty
  · refine (ofNames_concat ?_ name).symm
    rintro rfl
    exact hempty rfl

/-! ## 2. Components -/

/-- What the parts of a path count as. -/
inductive Component where
  /-- The slash at the start of an absolute path. -/
  | root
  /-- A dot that is the first part. -/
  | here
  /-- Two dots. -/
  | up
  | name (text : String)
deriving DecidableEq, Repr

/-- The component that a part is, if it is one. Nothing between two slashes is none, and a dot is
one only if it is the `first` part. -/
def component? (first : Bool) (part : String) : Option Component :=
  if part = "" then none
  else if part = "." then (if first then some .here else none)
  else if part = ".." then some .up
  else some (.name part)

/-- The components of a path. -/
def components (path : String) : List Component :=
  let ofParts : List String → List Component
    | [] => []
    | part :: rest => (component? true part).toList ++ rest.filterMap (component? false)
  (if isAbsolute path then [.root] else []) ++ ofParts (parts path)

theorem component?_name {part : String} (h : IsFileName part) (first : Bool) :
    component? first part = some (.name part) := by
  rw [component?, if_neg h.ne_empty, if_neg h.ne_here, if_neg h.ne_up]

theorem component?_eq_up_iff {first : Bool} {part : String} :
    component? first part = some .up ↔ part = ".." := by
  rw [component?]
  split_ifs <;> simp_all

theorem component?_eq_here_iff {first : Bool} {part : String} :
    component? first part = some .here ↔ first = true ∧ part = "." := by
  rw [component?]
  split_ifs <;> simp_all

theorem component?_ne_root (first : Bool) (part : String) :
    component? first part ≠ some .root := by
  rw [component?]
  split_ifs <;> simp

theorem mem_components_iff {path part : String} {rest : List String} {c : Component}
    (hparts : parts path = part :: rest) :
    c ∈ components path ↔ (c = .root ∧ isAbsolute path = true) ∨
      component? true part = some c ∨ ∃ p ∈ rest, component? false p = some c := by
  have hroot : (c ∈ if isAbsolute path then [Component.root] else [])
      ↔ c = .root ∧ isAbsolute path = true := by
    split_ifs with habsolute <;> simp [habsolute]
  rw [components, hparts, List.mem_append, hroot, List.mem_append, Option.mem_toList,
    List.mem_filterMap]

theorem root_mem_components_iff {path : String} :
    .root ∈ components path ↔ isAbsolute path = true := by
  obtain ⟨part, rest, hparts⟩ := List.exists_cons_of_ne_nil (parts_ne_nil path)
  simp only [mem_components_iff hparts, component?_ne_root, and_false, exists_false, or_false,
    true_and]

theorem up_mem_components_iff {path : String} : .up ∈ components path ↔ ".." ∈ parts path := by
  obtain ⟨part, rest, hparts⟩ := List.exists_cons_of_ne_nil (parts_ne_nil path)
  rw [hparts, List.mem_cons, eq_comm (a := "..")]
  simp only [mem_components_iff hparts, component?_eq_up_iff, reduceCtorEq, false_and, false_or,
    exists_eq_right]

theorem here_mem_components_iff {path : String} :
    .here ∈ components path ↔ (parts path).head? = some "." := by
  obtain ⟨part, rest, hparts⟩ := List.exists_cons_of_ne_nil (parts_ne_nil path)
  simp only [mem_components_iff hparts, component?_eq_here_iff, reduceCtorEq, false_and, false_or,
    Bool.false_eq_true, and_false, exists_false, or_false, true_and, hparts, List.head?_cons,
    Option.some.injEq]

/-- A path goes down just where it is not empty and has only names as its components. -/
theorem isDescending_iff {path : String} :
    isDescending path = true ↔
      path ≠ "" ∧ .root ∉ components path ∧ .up ∉ components path ∧ .here ∉ components path := by
  rw [root_mem_components_iff, up_mem_components_iff, here_mem_components_iff, isDescending,
    Bool.and_eq_true, Bool.and_eq_true, Bool.and_eq_true, Bool.not_eq_true', Bool.not_eq_true',
    Bool.not_eq_true', bne_iff_ne, List.contains_eq_mem, decide_eq_false_iff_not, and_assoc,
    and_assoc, Bool.not_eq_true, ← Bool.not_eq_true, String.isEmpty_iff]

/-! ## 3. Paths of names -/

section

variable {path : String}

theorem not_isAbsolute_of_names (h : ∀ n ∈ parts path, IsFileName n) : isAbsolute path = false := by
  rw [isAbsolute, beq_eq_false_iff_ne]
  intro hslash
  obtain ⟨cs, hcs⟩ := List.head?_eq_some_iff.mp hslash
  have hempty : "" ∈ parts path := by
    rw [parts, hcs, pieces_cons_self]
    exact List.mem_cons_self
  exact (h "" hempty).ne_empty rfl

/-- Its components are just these names. -/
theorem components_of_names (h : ∀ n ∈ parts path, IsFileName n) :
    components path = (parts path).map .name := by
  have habsolute := not_isAbsolute_of_names h
  obtain ⟨part, rest, hparts⟩ := List.exists_cons_of_ne_nil (parts_ne_nil path)
  rw [hparts] at h
  obtain ⟨hpart, hrest⟩ := List.forall_mem_cons.mp h
  have hnames : rest.filterMap (component? false) = rest.map .name := by
    rw [← List.filterMap_eq_map]
    exact List.filterMap_congr fun n hn => component?_name (hrest n hn) false
  rw [components, habsolute, hparts, List.map_cons, ← hnames]
  show _ ++ ((component? true part).toList ++ rest.filterMap (component? false)) = _
  rw [component?_name hpart]
  rfl

theorem isDescending_of_names (h : ∀ n ∈ parts path, IsFileName n) : isDescending path = true := by
  have hname : ∀ c ∈ components path, ∃ n, c = .name n := by
    rw [components_of_names h]
    exact List.forall_mem_map.mpr fun n _ => ⟨n, rfl⟩
  have hne : path ≠ "" := by
    rintro rfl
    exact (h "" List.mem_cons_self).ne_empty rfl
  refine isDescending_iff.mpr ⟨hne, fun hc => ?_, fun hc => ?_, fun hc => ?_⟩ <;>
    obtain ⟨n, hn⟩ := hname _ hc <;> cases hn

end

/-- The parts of a path below another one are the parts of both; a slash at the end of the first
one leaves an empty part there. -/
theorem parts_join {base path : String} (hbase : base ≠ "") (hpath : isAbsolute path = false) :
    ∃ before, parts (join base path) = before ++ parts path ∧
      (parts base = before ∨ parts base = before ++ [""]) := by
  have hempty : base.isEmpty = false := String.isEmpty_eq_false_iff.mpr hbase
  rw [join, hpath, hempty, Bool.or_false, if_neg Bool.false_ne_true]
  split_ifs with hslash
  · obtain ⟨cs, hcs⟩ := List.getLast?_eq_some_iff.mp (eq_of_beq hslash)
    refine ⟨(pieces '/' cs).map String.ofList, ?_, Or.inr ?_⟩
    · rw [parts, String.toList_append, hcs, List.append_assoc, List.singleton_append,
        pieces_append_cons, List.map_append, parts]
    · rw [parts, hcs, pieces_append_cons, List.map_append]
      rfl
  · refine ⟨parts base, ?_, Or.inl rfl⟩
    rw [parts, String.toList_append, String.toList_append, List.append_assoc]
    show List.map _ (pieces '/' (base.toList ++ '/' :: path.toList)) = _
    rw [pieces_append_cons, List.map_append, parts, parts]

theorem exists_join_eq_append (base : String) {path : String} (hpath : isAbsolute path = false) :
    ∃ rest, join base path = base ++ rest := by
  rw [join, hpath, Bool.false_or]
  split_ifs with hempty hslash
  · exact ⟨path, by rw [String.isEmpty_iff.mp hempty, String.empty_append]⟩
  · exact ⟨path, rfl⟩
  · exact ⟨"/" ++ path, String.append_assoc⟩

theorem isAbsolute_append {base rest : String} (hbase : base ≠ "") :
    isAbsolute (base ++ rest) = isAbsolute base := by
  rw [isAbsolute, isAbsolute, String.toList_append, List.head?_append_of_ne_nil]
  exact fun hnil => hbase (String.toList_eq_nil_iff.mp hnil)

end Path

/-! ## 4. Below a directory -/

namespace Disk

variable {d : Disk} {position next : List String} {part : String}

/-- Only from a directory can one go on. -/
theorem directory_of_follow (h : d.follow position part = .ok next) :
    ∃ es, d.root.at? position = some (.directory es) := by
  rw [follow] at h
  split at h
  · cases h
  · cases h
  · next es hes => exact ⟨es, hes⟩

theorem follow_name (hname : IsFileName part) (h : d.follow position part = .ok next) :
    next = position ++ [part] := by
  obtain ⟨es, hes⟩ := directory_of_follow h
  have hstay : ¬(decide (part = "") || decide (part = ".")) = true := by
    simp only [hname.ne_empty, hname.ne_here, decide_false, Bool.or_false, Bool.false_eq_true,
      not_false_eq_true]
  simp only [follow, hes, if_neg hstay, if_neg hname.ne_up] at h
  split_ifs at h with hlong hthere
  exact (Except.ok.inj h).symm

theorem follow_empty {es : List (String × FileNode)}
    (h : d.root.at? position = some (.directory es)) : d.follow position "" = .ok position := by
  rw [follow, h]
  rfl

/-- Names lead down, each one level. -/
theorem foldlM_follow_names {names : List String} (hnames : ∀ n ∈ names, IsFileName n)
    (h : names.foldlM d.follow position = .ok next) : next = position ++ names := by
  induction names generalizing position with
  | nil => rw [List.append_nil]; exact (Except.ok.inj h).symm
  | cons n ns ih =>
    obtain ⟨hn, hns⟩ := List.forall_mem_cons.mp hnames
    rw [List.foldlM_cons] at h
    cases hstep : d.follow position n with
    | error f => rw [hstep] at h; cases h
    | ok below =>
      rw [hstep] at h
      rw [ih hns h, follow_name hn hstep, List.append_assoc, List.singleton_append]

theorem named_of_find {path : String} {n : FileNode} (h : d.root.Named)
    (hfind : d.find path = .ok n) : n.Named :=
  of_find (fun _ hes => (FileNode.named_entries hes).2) h hfind

theorem checkName_eq_ok_iff {path : String} :
    checkName path = .ok () ↔
      path ≠ "" ∧ '\x00' ∉ path.toList ∧ path.utf8ByteSize ≤ longestPath := by
  rw [checkName]
  split_ifs with hempty hnull hlong
  · exact iff_of_false (by simp) fun h => h.1 (String.isEmpty_iff.mp hempty)
  · exact iff_of_false (by simp) fun h => h.2.1 (List.contains_iff_mem.mp hnull)
  · exact iff_of_false (by simp) fun h => (Nat.not_le_of_lt hlong) h.2.2
  · exact iff_of_true rfl ⟨fun h => hempty (String.isEmpty_iff.mpr h),
      fun h => hnull (List.contains_iff_mem.mpr h), Nat.le_of_not_lt hlong⟩

theorem locate_eq_ok_iff {path : String} :
    d.locate path = .ok position ↔
      checkName path = .ok () ∧ d.followAll path (Path.parts path) = .ok position := by
  rw [locate]
  cases checkName path with
  | error f => exact iff_of_false (by intro h; cases h) fun h => by cases h.1
  | ok _ => exact ⟨fun h => ⟨rfl, h⟩, fun h => h.2⟩

/-- **What is found below a directory lies below it**, at the names of its path. -/
theorem locate_join {base path : String} (hbase : base ≠ "")
    (hnames : ∀ n ∈ Path.parts path, IsFileName n)
    (h : d.locate (Path.join base path) = .ok position) :
    ∃ top, d.locate base = .ok top ∧ position = top ++ Path.parts path := by
  have hrelative := Path.not_isAbsolute_of_names hnames
  obtain ⟨hcheck, hfollow⟩ := locate_eq_ok_iff.mp h
  obtain ⟨rest, hjoin⟩ := Path.exists_join_eq_append base hrelative
  obtain ⟨before, hparts, hbefore⟩ := Path.parts_join hbase hrelative
  have hcheckBase : checkName base = .ok () := by
    rw [checkName_eq_ok_iff, hjoin, String.toList_append, String.utf8ByteSize_append] at hcheck
    exact checkName_eq_ok_iff.mpr ⟨hbase, fun hnull => hcheck.2.1 (List.mem_append_left _ hnull),
      Nat.le_trans (Nat.le_add_right _ _) hcheck.2.2⟩
  have hstart : d.start (Path.join base path) = d.start base := by
    rw [start, start, hjoin, Path.isAbsolute_append hbase]
  rw [followAll, hstart, hparts, List.foldlM_append] at hfollow
  cases htop : before.foldlM d.follow (d.start base) with
  | error f => rw [htop] at hfollow; cases hfollow
  | ok top =>
    rw [htop] at hfollow
    refine ⟨top, locate_eq_ok_iff.mpr ⟨hcheckBase, ?_⟩, foldlM_follow_names hnames hfollow⟩
    rw [followAll]
    rcases hbefore with hbefore | hbefore
    · rw [hbefore, htop]
    · -- The names below it can only be followed from a directory, and an empty part stays there.
      obtain ⟨n, ns, hcons⟩ := List.exists_cons_of_ne_nil (Path.parts_ne_nil path)
      have hstep : ∃ below, d.follow top n = .ok below := by
        rw [hcons] at hfollow
        cases hbelow : d.follow top n with
        | error f =>
          simp only [List.foldlM_cons, bind, Except.bind, hbelow] at hfollow
          cases hfollow
        | ok below => exact ⟨below, rfl⟩
      obtain ⟨below, hbelow⟩ := hstep
      obtain ⟨es, hes⟩ := directory_of_follow hbelow
      have hstay : [""].foldlM d.follow top = .ok top := by
        rw [List.foldlM_cons, follow_empty hes]
        rfl
      rw [hbefore, List.foldlM_append, htop]
      exact hstay

end Disk
end PromptTags
