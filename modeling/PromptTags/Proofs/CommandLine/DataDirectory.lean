/-
Which directory the catalog is taken from.

Four layers can name it: an option of the command line, the environment, the settings file, and the
home directory. The environment comes in twice, with the command line and with the settings, and
both ways it counts the same (`dataDir_of_named`). The settings that are shown are those without the
option, while the catalog is taken from the directory that the option names. So the directory that
is shown is the one that is scanned just where the option is not given or names it anyway
(`shown_directory_scanned_iff`).
-/
import PromptTags.CommandLine.Run
import PromptTags.Proofs.Catalog.Loading
import PromptTags.Proofs.CommandLine.Reading
import PromptTags.Proofs.Results

set_option autoImplicit false

namespace PromptTags.CommandLine

/-! ## 1. The option -/

/-- The directory that the levels of a command line are given; the innermost one counts. -/
def givenDataDir? (given : List Given) : Option String :=
  (given.map fun g => g.valueOf? "data-dir").reverse.findSome? id

/-- The directory that the words of a command line give. -/
def dataDirOption? (words : List String) : Option String :=
  match readLine shape 3 [] words with
  | .ok l => givenDataDir? l.given
  | .error _ => none

/-- The directory that is given counts, and else the one that the environment names. If some level
is not given one, the environment does not name the empty text. -/
theorem dataDirOf_eq_ok {named? dataDir? : Option String} {given : List Given}
    (h : dataDirOf named? given = .ok dataDir?) :
    dataDir? = (givenDataDir? given).or named? ∧
      (given ≠ [] → givenDataDir? given = none → named? ≠ some "") := by
  simp only [dataDirOf] at h
  split_ifs at h with hempty
  refine ⟨(Except.ok.inj h).symm, fun hlevels hnone hnamed => hempty ?_⟩
  obtain ⟨g, gs, rfl⟩ := List.exists_cons_of_ne_nil hlevels
  have hfirst : g.valueOf? "data-dir" = none := by
    have hmem : g.valueOf? "data-dir" ∈
        ((g :: gs).map fun g => g.valueOf? "data-dir").reverse :=
      List.mem_reverse.mpr (List.mem_map_of_mem List.mem_cons_self)
    exact List.findSome?_eq_none_iff.mp hnone _ hmem
  rw [hnamed, List.map_cons, List.any_cons, hfirst]
  rfl

theorem given_ne_nil {depth : Nat} {path words : List String} {l : Line}
    (h : readLine shape depth path words = .ok l) : l.given ≠ [] := by
  cases depth with
  | zero =>
    simp only [readLine] at h
    cases h
  | succ depth =>
    obtain ⟨s, g, rest, -, -, ⟨-, -, rfl⟩ | ⟨_, _, _, -, -, -, rfl⟩⟩ := readLine_cases h
    · exact List.cons_ne_nil _ _
    · exact List.cons_ne_nil _ _

/-- What a request takes from the two layers in front of the settings. -/
theorem dataDir?_of_read {named? : Option String} {words : List String} {r : Request}
    (h : Request.read named? words = .ok r) :
    r.dataDir? = (dataDirOption? words).or named? ∧
      (dataDirOption? words = none → named? ≠ some "") := by
  obtain ⟨l, hline, hdir, -⟩ := Request.read_eq_ok_iff.mp h
  unfold dataDirOption?
  rw [hline]
  obtain ⟨heq, hnamed⟩ := dataDirOf_eq_ok hdir
  exact ⟨heq, hnamed (given_ne_nil hline)⟩

/-! ## 2. The settings -/

/-- A directory in front of the settings takes the place of theirs. -/
theorem dataDir_override (s : Settings) (env : Environment) (dataDir? : Option String) :
    Settings.dataDir { s with dataDir? := dataDir?.or s.dataDir? } env =
      dataDir?.getD (s.dataDir env) := by
  cases dataDir? <;> rfl

/-- What the environment names is in the settings already, so it does not matter a second time. -/
theorem dataDir_of_named {env : Environment} {d : Disk} {s : Settings}
    (hload : Settings.load env d = .ok s) (hnamed : env.dataDir? ≠ some "") :
    env.dataDir?.getD (s.dataDir env) = s.dataDir env := by
  cases hdir : env.dataDir? with
  | none => rfl
  | some dir =>
    have hne : dir ≠ "" := by
      rintro rfl
      exact hnamed hdir
    have hkept : env.namedDataDir? = some dir := by
      rw [Environment.namedDataDir?, hdir, Option.filter_some, if_pos (by simpa using hne)]
    obtain ⟨t, -, rfl⟩ := Except.map_eq_ok_iff.mp hload
    rw [hkept]
    rfl

theorem settingsFor_eq_ok {env : Environment} {d : Disk} {dataDir? : Option String} {s : Settings}
    (h : settingsFor env d dataDir? = .ok s) :
    ∃ t, Settings.load env d = .ok t ∧ s = { t with dataDir? := dataDir?.or t.dataDir? } := by
  unfold settingsFor at h
  cases hload : Settings.load env d with
  | error f =>
    rw [hload] at h
    cases h
  | ok t =>
    rw [hload] at h
    exact ⟨t, rfl, (Except.ok.inj h).symm⟩

/-! ## 3. Showing and scanning -/

/-- A command that ends well has printed what it came to. -/
theorem ofResult_of_code {d : Disk} {r : Except Failure String}
    (h : (Outcome.ofResult d r).code = 0) : r = .ok (Outcome.ofResult d r).output := by
  cases r with
  | error f => exact absurd h Nat.one_ne_zero
  | ok output => rfl

theorem run_of_read {words : List String} {env : Environment} {r : Request}
    (h : Request.read env.dataDir? words = .ok r) (input : ByteArray) (d : Disk) :
    run words env input d = runCommand env input d r.dataDir? r.command := by
  rw [run, h]

/-- What is printed when the settings are shown. -/
theorem output_of_configShow {words : List String} {env : Environment} {input : ByteArray}
    {d : Disk} {dataDir? : Option String}
    (hread : Request.read env.dataDir? words = .ok ⟨.configShow, dataDir?⟩)
    (hcode : (run words env input d).code = 0) :
    ∃ s, Settings.load env d = .ok s ∧ (run words env input d).output =
      outputLines [s.toToml, "# effective data_dir = " ++ s.dataDir env] := by
  have hresult : runConfigShow env d = .ok (run words env input d).output := by
    rw [run_of_read hread] at hcode ⊢
    exact ofResult_of_code hcode
  unfold runConfigShow at hresult
  cases hload : Settings.load env d with
  | error f =>
    simp only [hload] at hresult
    cases hresult
  | ok s =>
    simp only [hload] at hresult
    exact ⟨s, rfl, (Except.ok.inj hresult).symm⟩

theorem libraryFor_eq_ok {env : Environment} {d : Disk} {dataDir? : Option String} {l : Library}
    (h : libraryFor env d dataDir? = .ok l) :
    ∃ s, Settings.load env d = .ok s ∧
      Library.ofRoot d (dataDir?.getD (s.dataDir env)) = .ok l := by
  unfold libraryFor at h
  obtain ⟨t, hsettings, hlibrary⟩ := Except.bind_eq_ok_iff.mp h
  obtain ⟨s, hload, rfl⟩ := settingsFor_eq_ok hsettings
  have hopen := Except.mapError_eq_ok_iff.mp hlibrary
  rw [dataDir_override] at hopen
  exact ⟨s, hload, hopen⟩

/-- Which directory is scanned when the tree is shown, and what is printed. -/
theorem output_of_catalogTree {words : List String} {env : Environment} {input : ByteArray}
    {d : Disk} {dataDir? : Option String} {json : Bool}
    (hread : Request.read env.dataDir? words = .ok ⟨.catalogTree json, dataDir?⟩)
    (hcode : (run words env input d).code = 0) :
    ∃ s l, Settings.load env d = .ok s ∧
      Library.ofRoot d ((dataDirOption? words).getD (s.dataDir env)) = .ok l ∧
      (run words env input d).output = treeText l json := by
  have hresult : (libraryFor env d dataDir?).map (fun l => treeText l json) =
      .ok (run words env input d).output := by
    rw [run_of_read hread] at hcode ⊢
    exact ofResult_of_code hcode
  obtain ⟨l, hlibrary, htext⟩ := Except.map_eq_ok_iff.mp hresult
  obtain ⟨s, hload, hopen⟩ := libraryFor_eq_ok hlibrary
  refine ⟨s, l, hload, ?_, htext.symm⟩
  obtain ⟨hdir, hnamed⟩ := dataDir?_of_read hread
  have hsame : dataDir?.getD (s.dataDir env) = (dataDirOption? words).getD (s.dataDir env) := by
    rw [show dataDir? = (dataDirOption? words).or env.dataDir? from hdir]
    cases hoption : dataDirOption? words with
    | none => exact dataDir_of_named hload (hnamed hoption)
    | some dir => rfl
  rw [← hsame]
  exact hopen

/-- **The directory that is shown is the one that is scanned, unless the command line names another
one.** Let the settings and the catalog tree be shown with the same environment and the same files.
The tree is that of the directory that the command line gives, and of the one that is shown as
effective if it gives none. So the two are the same just where no other directory is given. -/
theorem shown_directory_scanned_iff {env : Environment} {input : ByteArray} {d : Disk}
    {showWords treeWords : List String} {dataDir₁? dataDir₂? : Option String} {json : Bool}
    (hshow : Request.read env.dataDir? showWords = .ok ⟨.configShow, dataDir₁?⟩)
    (htree : Request.read env.dataDir? treeWords = .ok ⟨.catalogTree json, dataDir₂?⟩)
    (hshown : (run showWords env input d).code = 0)
    (hscanned : (run treeWords env input d).code = 0) :
    ∃ s l, Settings.load env d = .ok s ∧
      (run showWords env input d).output =
        outputLines [s.toToml, "# effective data_dir = " ++ s.dataDir env] ∧
      Library.ofRoot d l.root = .ok l ∧
      (run treeWords env input d).output = treeText l json ∧
      l.root = (dataDirOption? treeWords).getD (s.dataDir env) ∧
      (s.dataDir env = l.root ↔
        ∀ dir, dataDirOption? treeWords = some dir → dir = s.dataDir env) := by
  obtain ⟨s, hload, hshowText⟩ := output_of_configShow hshow hshown
  obtain ⟨s', l, hload', hopen, htreeText⟩ := output_of_catalogTree htree hscanned
  obtain rfl : s' = s := Except.ok.inj (hload'.symm.trans hload)
  have hroot : l.root = (dataDirOption? treeWords).getD (s'.dataDir env) :=
    (Library.ofRoot_eq_ok hopen).1
  refine ⟨s', l, hload, hshowText, by rw [hroot]; exact hopen, htreeText, hroot, ?_⟩
  rw [hroot]
  cases dataDirOption? treeWords with
  | none => simp
  | some dir => simp [eq_comm]

/-- The environment names the directory for both. -/
theorem shown_directory_scanned_iff_named :
    let env : Environment := { home? := some "home", dataDir? := some "tags" }
    let d : Disk := { root := .directory [("tags", .directory [])] }
    (run ["config", "show"] env .empty d).code = 0 ∧
      (run ["catalog", "tree"] env .empty d).code = 0 ∧
      ∃ s l, Settings.load env d = .ok s ∧ Library.ofRoot d l.root = .ok l ∧
        s.dataDir env = l.root := by
  intro env d
  have hshown : (run ["config", "show"] env .empty d).code = 0 := by decide +kernel
  have hscanned : (run ["catalog", "tree"] env .empty d).code = 0 := by decide +kernel
  have hshow : Request.read env.dataDir? ["config", "show"] = .ok ⟨.configShow, some "tags"⟩ := by
    decide +kernel
  have htree : Request.read env.dataDir? ["catalog", "tree"] =
      .ok ⟨.catalogTree false, some "tags"⟩ := by decide +kernel
  obtain ⟨s, l, hload, -, hopen, -, -, hsame⟩ :=
    shown_directory_scanned_iff hshow htree hshown hscanned
  have hgiven : dataDirOption? ["catalog", "tree"] = none := by decide +kernel
  refine ⟨hshown, hscanned, s, l, hload, hopen, hsame.mpr fun dir hdir => ?_⟩
  rw [hgiven] at hdir
  cases hdir

/-- With another directory on the command line, the one that is shown as effective is not the one
that is scanned. -/
theorem shown_directory_not_scanned :
    let env : Environment := { home? := some "home" }
    let d : Disk := { root := .directory [("other", .directory [])] }
    let shown := run ["--data-dir", "other", "config", "show"] env .empty d
    let scanned := run ["--data-dir", "other", "catalog", "tree"] env .empty d
    shown.code = 0 ∧ scanned.code = 0 ∧
      shown.output = "[catalog]\n\n[editor]\nsort_on_commit = false\nlabel_precision = 3\n\n" ++
        "# effective data_dir = home/.tagweave/data\n" ∧
      scanned.output = "📚 other\n   (no tag files)\n" := by
  decide +kernel

end PromptTags.CommandLine
