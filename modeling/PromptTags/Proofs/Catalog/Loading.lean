/-
What a library has in store for a file, over whole runs.

Three calls load files: one asks for a single file, one for all of them, and one builds the index.
Between the calls the disk can change in any way. All three come down to loading some files one by
one, so a single lemma says what a call adds to the store (`lookup_loaded_tagsOfAll`): a file that
is there stays as it is, and a file that is not there comes in if it was asked for and can be read
now. Over a run this makes the first success count (`lookup_loaded_calls`), and the answers follow,
because on one disk loading some files changes the answer for none (`answer_tagsOfAll`).
-/
import PromptTags.Proofs.Catalog.Gate

set_option autoImplicit false

namespace PromptTags.Library

variable {l l' : Library} {d : Disk} {path : String}

/-! ## 1. Calls -/

/-- The calls that load files. -/
inductive Call where
  | tags (path : String)
  | allTags
  | index
deriving DecidableEq, Repr

/-- The answer to a call on a disk, and the library after it. -/
def call (d : Disk) (l : Library) : Call → Except LibraryFault Catalog × Library
  | .tags path => l.tags d path
  | .allTags => (.ok (l.allTags d).1, (l.allTags d).2)
  | .index => (.ok (l.index d).1, (l.index d).2)

/-- The library after some calls, each with the disk as it is at that time. -/
def calls (l : Library) (steps : List (Disk × Call)) : Library :=
  steps.foldl (fun l step => (l.call step.1 step.2).2) l

theorem calls_cons (l : Library) (d : Disk) (c : Call) (steps : List (Disk × Call)) :
    l.calls ((d, c) :: steps) = (l.call d c).2.calls steps := by
  rw [calls, List.foldl_cons, calls]

/-- The request that a call comes down to. -/
def Call.request : Call → Request
  | .tags path => .tags path
  | .allTags => .allTags
  | .index => .allTags

theorem call_eq_serve (l : Library) (d : Disk) (c : Call) : l.call d c = l.serve d c.request := by
  cases c <;> rfl

theorem calls_eq_run (l : Library) (steps : List (Disk × Call)) :
    l.calls steps = l.run (steps.map fun step => (step.1, step.2.request)) := by
  rw [calls, run, List.foldl_map]
  simp only [call_eq_serve]

/-- The files that a call asks for. -/
def asked (l : Library) : Call → List String
  | .tags path => [path]
  | .allTags => l.tree.files
  | .index => l.tree.files

theorem library_call (l : Library) (d : Disk) (c : Call) :
    (l.call d c).2 = (l.tagsOfAll d (l.asked c)).2 := by
  cases c <;> rfl

/-! ## 2. What a file holds -/

/-- The records of a file as it is now, with neither the store nor the gate in between. -/
def recordsOn (l : Library) (d : Disk) (path : String) : Except LibraryFault Catalog :=
  match d.readText (l.diskPath path) with
  | .error f => .error (.unreadable (l.diskPath path) f)
  | .ok text => (TagFile.decode text).mapError (.undecodable path)

/-- Past the gate, a file is read as it is. -/
theorem read_of_admitted (h : l.checkPath path = .ok ()) : l.read d path = l.recordsOn d path := by
  rw [read, h]
  unfold recordsOn
  cases d.readText (l.diskPath path) with
  | error f => simp only [bind, Except.bind]
  | ok text =>
    simp only [bind, Except.bind]
    cases TagFile.decode text with
    | ok records => simp only [Except.mapError]
    | error f => simp only [Except.mapError]

theorem checkPath_of_sameDirectory (h : l.SameDirectory l') :
    l'.checkPath path = l.checkPath path := by
  rw [checkPath, checkPath, h.2]

/-- Reading depends on the directory alone, and not on what has been loaded. -/
theorem read_of_sameDirectory (h : l.SameDirectory l') : l'.read = l.read := by
  funext d path
  rw [read, read, checkPath_of_sameDirectory h, diskPath_of_sameDirectory h]

/-- What was loaded of a file, or else what is read now. -/
def answer (l : Library) (d : Disk) (path : String) : Except LibraryFault Catalog :=
  (l.loaded.lookup path).elim (l.read d path) .ok

theorem tags_eq_answer (l : Library) (d : Disk) (path : String) :
    (l.tags d path).1 = l.answer d path := by
  rw [answer]
  rcases tags_cases l d path with ⟨records, hloaded, h⟩ | ⟨_, hloaded, hread, h⟩ |
    ⟨_, hloaded, hread, h⟩
  · rw [h, hloaded, Option.elim_some]
  · rw [h, hloaded, Option.elim_none, hread]
  · rw [h, hloaded, Option.elim_none, hread]

/-! ## 3. One call -/

/-- A request for one file leaves the others in the store as they are. -/
theorem lookup_loaded_tags (l : Library) (d : Disk) (asked path : String) :
    (l.tags d asked).2.loaded.lookup path =
      (l.loaded.lookup path).or (if path = asked then (l.read d path).toOption else none) := by
  by_cases heq : path = asked
  · subst heq
    rw [if_pos rfl]
    rcases tags_cases l d path with ⟨records, hloaded, h⟩ | ⟨records, hloaded, hread, h⟩ |
      ⟨fault, hloaded, hread, h⟩
    · rw [h, hloaded, Option.some_or]
    · rw [h, hloaded, hread, List.lookup_cons_self]
      rfl
    · rw [h, hloaded, hread]
      rfl
  · rw [if_neg heq, Option.or_none]
    rcases tags_cases l d asked with ⟨_, _, h⟩ | ⟨_, _, _, h⟩ | ⟨_, _, _, h⟩
    · rw [h]
    · rw [h, List.lookup_cons, beq_eq_false_iff_ne.mpr heq]
    · rw [h]

/-- **What a request for some files adds to the store**: those that are asked for, are not there
yet, and can be read. -/
theorem lookup_loaded_tagsOfAll (l : Library) (d : Disk) (paths : List String) (path : String) :
    (l.tagsOfAll d paths).2.loaded.lookup path =
      (l.loaded.lookup path).or (if path ∈ paths then (l.read d path).toOption else none) := by
  induction paths generalizing l with
  | nil => rw [tagsOfAll, if_neg List.not_mem_nil, Option.or_none]
  | cons first paths ih =>
    rw [tagsOfAll_cons, ih, lookup_loaded_tags,
      read_of_sameDirectory (sameDirectory_tags l d first), Option.or_assoc]
    congr 1
    by_cases hfirst : path = first
    · rw [if_pos hfirst, if_pos (List.mem_cons.mpr (Or.inl hfirst))]
      split_ifs
      · exact Option.or_self
      · exact Option.or_none
    · rw [if_neg hfirst, Option.none_or]
      simp only [List.mem_cons, hfirst, false_or]

/-- On one disk, loading files changes no answer: what was read is what would be read again. -/
theorem answer_tagsOfAll (l : Library) (d : Disk) (paths : List String) (path : String) :
    (l.tagsOfAll d paths).2.answer d path = l.answer d path := by
  rw [answer, answer, lookup_loaded_tagsOfAll,
    read_of_sameDirectory (sameDirectory_tagsOfAll l d paths)]
  cases l.loaded.lookup path with
  | some records => rfl
  | none =>
    rw [Option.none_or]
    split_ifs
    · cases l.read d path <;> rfl
    · rfl

/-- The records of several files are those of one file after the other, where there are any. -/
theorem tagsOfAll_eq (l : Library) (d : Disk) (paths : List String) :
    (l.tagsOfAll d paths).1 =
      (paths.filterMap fun path => (l.answer d path).toOption).flatten := by
  induction paths generalizing l with
  | nil => rfl
  | cons first paths ih =>
    -- The request for the first file is one for a list of files, so it changes no answer.
    have hkeep : ∀ path, (l.tags d first).2.answer d path = l.answer d path :=
      fun path => answer_tagsOfAll l d [first] path
    rw [tagsOfAll_cons, ih, tags_eq_answer]
    simp only [hkeep, List.filterMap_cons]
    cases (l.answer d first).toOption with
    | none => rw [Option.getD_none, List.nil_append]
    | some records => rw [Option.getD_some, List.flatten_cons]

/-! ## 4. Runs -/

theorem sameDirectory_call (l : Library) (d : Disk) (c : Call) :
    l.SameDirectory (l.call d c).2 := by
  rw [call_eq_serve]
  exact sameDirectory_serve l d c.request

theorem sameDirectory_calls (l : Library) (steps : List (Disk × Call)) :
    l.SameDirectory (l.calls steps) := by
  rw [calls_eq_run]
  exact sameDirectory_run l _

/-- What a call loads of a file, if it asks for the file and the file can be read and decoded. -/
def load? (l : Library) (path : String) (step : Disk × Call) : Option Catalog :=
  if path ∈ l.asked step.2 then (l.recordsOn step.1 path).toOption else none

/-- The first successful load of a file in a run. -/
def firstLoad? (l : Library) (steps : List (Disk × Call)) (path : String) : Option Catalog :=
  steps.findSome? (l.load? path)

theorem load?_of_sameDirectory (h : l.SameDirectory l') : l'.load? path = l.load? path := by
  funext step
  have hasked : l'.asked step.2 = l.asked step.2 := by
    cases step.2 with
    | tags path => rfl
    | allTags => rw [asked, asked, h.2]
    | index => rw [asked, asked, h.2]
  unfold load? recordsOn
  rw [hasked, diskPath_of_sameDirectory h]

theorem lookup_loaded_call (hpath : l.checkPath path = .ok ()) (d : Disk) (c : Call) :
    (l.call d c).2.loaded.lookup path = (l.loaded.lookup path).or (l.load? path (d, c)) := by
  rw [library_call, lookup_loaded_tagsOfAll, read_of_admitted hpath, load?]

/-- **After a run the store holds what was there before, and else the first success.** -/
theorem lookup_loaded_calls (hpath : l.checkPath path = .ok ()) (steps : List (Disk × Call)) :
    (l.calls steps).loaded.lookup path = (l.loaded.lookup path).or (l.firstLoad? steps path) := by
  induction steps generalizing l with
  | nil => exact Option.or_none.symm
  | cons step steps ih =>
    obtain ⟨d, c⟩ := step
    have hsame := sameDirectory_call l d c
    rw [calls_cons, ih ((checkPath_of_sameDirectory hsame).trans hpath), lookup_loaded_call hpath,
      firstLoad?, firstLoad?, load?_of_sameDirectory hsame, Option.or_assoc, List.findSome?_cons]
    cases l.load? path (d, c) <;> rfl

/-- What has to be answered for a file after a run: the first success, or else the file as it is
now. -/
def answerAfter (l : Library) (steps : List (Disk × Call)) (d : Disk) (path : String) :
    Except LibraryFault Catalog :=
  (l.firstLoad? steps path).elim (l.recordsOn d path) .ok

theorem answer_calls (hpath : l.checkPath path = .ok ()) (hempty : l.loaded = [])
    (steps : List (Disk × Call)) (d : Disk) :
    (l.calls steps).answer d path = l.answerAfter steps d path := by
  rw [answer, answerAfter, lookup_loaded_calls hpath, hempty, List.lookup_nil, Option.none_or,
    read_of_sameDirectory (sameDirectory_calls l steps), read_of_admitted hpath]

/-- The records of some files after a run, those of one file after the other. Files that cannot be
read or decoded have none. -/
def recordsAfter (l : Library) (steps : List (Disk × Call)) (d : Disk) (paths : List String) :
    Catalog :=
  (paths.filterMap fun path => (l.answerAfter steps d path).toOption).flatten

theorem allTags_calls (hgate : ∀ path ∈ l.tree.files, l.checkPath path = .ok ())
    (hempty : l.loaded = []) (steps : List (Disk × Call)) (d : Disk) :
    ((l.calls steps).allTags d).1 = l.recordsAfter steps d l.tree.files := by
  rw [allTags, tagsOfAll_eq, (sameDirectory_calls l steps).2, recordsAfter]
  congr 1
  refine List.filterMap_congr fun path hpath => ?_
  rw [answer_calls (hgate path hpath) hempty]

/-- A file without records makes no difference to those of the others. -/
theorem recordsAfter_of_broken {steps : List (Disk × Call)} {d' : Disk} {paths : List String}
    {broken : String}
    (hothers : ∀ path ∈ paths, path ≠ broken →
      d'.readText (l.diskPath path) = d.readText (l.diskPath path))
    (hbroken : (l.answerAfter steps d' broken).toOption = none) :
    l.recordsAfter steps d' paths = l.recordsAfter steps d (paths.filter (· ≠ broken)) := by
  unfold recordsAfter
  rw [List.filterMap_filter]
  congr 1
  refine List.filterMap_congr fun path hpath => ?_
  by_cases heq : path = broken
  · rw [if_neg (by simpa using heq), heq, hbroken]
  · rw [if_pos (by simpa using heq)]
    unfold answerAfter recordsOn
    rw [hothers path hpath heq]

theorem ofRoot_eq_ok {root : String} (h : ofRoot d root = .ok l) :
    l.root = root ∧ l.loaded = [] := by
  rw [ofRoot] at h
  split at h
  · obtain rfl := Except.ok.inj h
    exact ⟨rfl, rfl⟩
  · cases h

/-- **The first success counts.** Let a library be opened on a directory, and let calls and changes
of the disk follow in any order. The tree and its listing stay. A listed file is answered for by the
first successful load in the run, whichever call it came with, and without one by the file as it is
now: a failure is not remembered, a success is not forgotten. All tags are these answers in the
order of the listing, so a file that is broken takes nothing from the others and moves nothing. -/
theorem first_load_counts {d₀ : Disk} {root : String} {l₀ : Library} (hdisk : d₀.root.Named)
    (hopen : ofRoot d₀ root = .ok l₀) (steps : List (Disk × Call)) :
    (l₀.calls steps).root = root ∧ (l₀.calls steps).tree = l₀.tree ∧
    (∀ d, ∀ path ∈ l₀.tree.files,
      ((l₀.calls steps).call d (.tags path)).1 = l₀.answerAfter steps d path) ∧
    (∀ d c, c = .allTags ∨ c = .index →
      ((l₀.calls steps).call d c).1 = .ok (l₀.recordsAfter steps d l₀.tree.files)) ∧
    ∀ d d' broken, (∀ path ∈ l₀.tree.files, path ≠ broken →
        d'.readText (Path.join root path) = d.readText (Path.join root path)) →
      (l₀.answerAfter steps d' broken).toOption = none →
      ((l₀.calls steps).call d' .allTags).1 =
        .ok (l₀.recordsAfter steps d (l₀.tree.files.filter (· ≠ broken))) := by
  have hguarded : l₀.Guarded := guarded_ofRoot hdisk hopen
  have hgate : ∀ path ∈ l₀.tree.files, l₀.checkPath path = .ok () :=
    fun path hpath => hguarded.checkPath_of_mem hpath
  obtain ⟨hroot, hempty⟩ := ofRoot_eq_ok hopen
  obtain ⟨hkeptRoot, hkeptTree⟩ := sameDirectory_calls l₀ steps
  have hall : ∀ d, ((l₀.calls steps).allTags d).1 = l₀.recordsAfter steps d l₀.tree.files :=
    allTags_calls hgate hempty steps
  refine ⟨hkeptRoot.trans hroot, hkeptTree, ?_, ?_, ?_⟩
  · intro d path hpath
    rw [call, tags_eq_answer, answer_calls (hgate path hpath) hempty]
  · rintro d c (rfl | rfl)
    · rw [call, hall]
    · rw [call, index, hall]
  · intro d d' broken hothers hbroken
    rw [← hroot] at hothers
    rw [call, hall, recordsAfter_of_broken hothers hbroken]

/-- A file that is broken at first, is loaded with the index when it has been mended, and is gone in
the end; the file next to it is loaded from the start. -/
theorem first_load_counts_mended :
    ∃ d₀ d₁ d₂ : Disk, ∃ l₀ : Library, d₀.root.Named ∧ ofRoot d₀ "/data" = .ok l₀ ∧
      (l₀.call d₀ .allTags).1 = .ok [{ name := "Smile" }] ∧
      (let l := l₀.calls [(d₀, .allTags), (d₁, .index), (d₂, .tags "hair.yaml")]
      (l.call d₂ (.tags "hair.yaml")).1 = .ok [{ name := "Bun" }] ∧
        (l.call d₂ .allTags).1 = .ok [{ name := "Bun" }, { name := "Smile" }]) := by
  let mouth : FileNode := .ofText "- name: Smile"
  let d₀ : Disk := { root := .directory [("data", .directory
    [("hair.yaml", .ofText "42"), ("mouth.yaml", mouth)])] }
  let d₁ : Disk := { root := .directory [("data", .directory
    [("hair.yaml", .ofText "- name: Bun"), ("mouth.yaml", mouth)])] }
  let l₀ : Library := { root := "/data", tree :=
    [("hair.yaml", .file "hair.yaml"), ("mouth.yaml", .file "mouth.yaml")] }
  let steps : List (Disk × Call) := [(d₀, .allTags), (d₁, .index), ({}, .tags "hair.yaml")]
  have hdisk : d₀.root.Named := by
    refine .directory (by decide +kernel) (List.forall_mem_singleton.mpr ?_)
    exact .directory (by decide +kernel)
      (List.forall_mem_cons.mpr ⟨.file _, List.forall_mem_singleton.mpr (.file _)⟩)
  have hopen : ofRoot d₀ "/data" = .ok l₀ := rfl
  have hlisted : l₀.tree.files = ["hair.yaml", "mouth.yaml"] := rfl
  have hhair : l₀.firstLoad? steps "hair.yaml" = some [{ name := "Bun" }] := by decide +kernel
  refine ⟨d₀, d₁, {}, l₀, hdisk, hopen, ?_, ?_, ?_⟩
  · -- The broken file takes nothing from the other one.
    obtain ⟨-, -, -, -, hbroken⟩ := first_load_counts hdisk hopen []
    have hothers : ∀ path ∈ l₀.tree.files, path ≠ "hair.yaml" →
        d₀.readText (Path.join "/data" path) = d₁.readText (Path.join "/data" path) := by
      rw [hlisted]
      decide +kernel
    refine (hbroken d₁ d₀ "hair.yaml" hothers (by decide +kernel)).trans (congrArg _ ?_)
    decide +kernel
  · obtain ⟨-, -, hone, -, -⟩ := first_load_counts hdisk hopen steps
    refine (hone {} "hair.yaml" (by rw [hlisted]; decide +kernel)).trans ?_
    rw [answerAfter, hhair, Option.elim_some]
  · obtain ⟨-, -, -, hall, -⟩ := first_load_counts hdisk hopen steps
    refine (hall {} .allTags (Or.inl rfl)).trans (congrArg _ ?_)
    decide +kernel

end PromptTags.Library
