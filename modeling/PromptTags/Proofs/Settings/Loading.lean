/-
Settings that are loaded are valid.

What is in the settings file is checked, and then the environment may name another directory of tag
files. It does so behind the check, but only by a text that is not empty, and it touches nothing
else (`load_eq_map`). So the check holds of what is loaded too (`check_of_load`), and the directory
is the first one that the environment, the file and the home directory name, in this order
(`loaded_settings_valid`).
-/
import PromptTags.Proofs.Results
import PromptTags.Settings

set_option autoImplicit false

namespace PromptTags

/-! ## 1. The directory by default -/

namespace Path

/-- A relative path is put behind something that does not depend on it. -/
theorem exists_join_eq (base : String) :
    ∃ front, ∀ path, isAbsolute path = false → join base path = front ++ path := by
  by_cases hempty : base.isEmpty = true
  · exact ⟨"", fun path hpath => by rw [join, hpath, hempty, Bool.false_or, if_pos rfl,
      String.empty_append]⟩
  · by_cases hslash : (base.toList.getLast? == some '/') = true
    · refine ⟨base, fun path hpath => ?_⟩
      rw [join, hpath, Bool.false_or, if_neg hempty, if_pos hslash]
    · refine ⟨base ++ "/", fun path hpath => ?_⟩
      rw [join, hpath, Bool.false_or, if_neg hempty, if_neg hslash]

/-- A path below a path below a base. -/
theorem join_join {middle last : String} (base : String) (hmiddle : isAbsolute middle = false)
    (hne : middle ≠ "") (hslash : middle.toList.getLast? ≠ some '/')
    (hlast : isAbsolute last = false) :
    join (join base middle) last = join base (middle ++ ("/" ++ last)) := by
  obtain ⟨front, hfront⟩ := exists_join_eq base
  have hboth : isAbsolute (middle ++ ("/" ++ last)) = false := by
    rw [isAbsolute, String.toList_append, List.head?_append_of_ne_nil, ← isAbsolute]
    · exact hmiddle
    · exact fun hnil => hne (String.toList_eq_nil_iff.mp hnil)
  have hempty : ¬ (front ++ middle).isEmpty = true := by
    rw [String.isEmpty_iff, String.append_eq_empty_iff]
    exact fun h => hne h.2
  have hend : ¬ ((front ++ middle).toList.getLast? == some '/') = true := by
    have hlist : middle.toList ≠ [] := fun hnil => hne (String.toList_eq_nil_iff.mp hnil)
    rw [beq_iff_eq, String.toList_append, List.getLast?_append_of_ne_nil _ hlist]
    exact hslash
  rw [hfront middle hmiddle, hfront _ hboth, join, hlast, Bool.false_or, if_neg hempty,
    if_neg hend, String.append_assoc, String.append_assoc]

theorem join_ne_empty {path : String} (base : String) (hpath : isAbsolute path = false)
    (hne : path ≠ "") : join base path ≠ "" := by
  obtain ⟨front, hfront⟩ := exists_join_eq base
  rw [hfront path hpath, Ne, String.append_eq_empty_iff]
  exact fun h => hne h.2

end Path

namespace Settings

/-- Where tag files are when nothing names a directory: below the home directory. -/
def defaultDataDir (env : Environment) : String :=
  Path.join (env.home?.getD "/tmp") ".tagweave/data"

theorem defaultDataDir_ne_empty (env : Environment) : defaultDataDir env ≠ "" :=
  Path.join_ne_empty _ (by decide) (by decide)

theorem dataDir_eq (s : Settings) (env : Environment) :
    s.dataDir env = s.dataDir?.getD (defaultDataDir env) := by
  rw [dataDir, Environment.settingsDir,
    Path.join_join _ (by decide) (by decide) (by decide) (by decide), defaultDataDir]
  rfl

/-! ## 2. The settings file -/

theorem check_eq_ok_iff {s : Settings} :
    s.check = .ok () ↔ s.dataDir? ≠ some "" ∧ s.labelPlaces ≤ mostLabelPlaces := by
  have hdir : s.dataDir?.any String.isEmpty = true ↔ s.dataDir? = some "" := by
    cases s.dataDir? <;> simp
  rw [check]
  split_ifs with hempty hplaces
  · exact iff_of_false (fun h => by cases h) (fun h => h.1 (hdir.mp hempty))
  · exact iff_of_false (fun h => by cases h) (fun h => absurd h.2 (Nat.not_le.mpr hplaces))
  · exact iff_of_true rfl ⟨fun h => hempty (hdir.mpr h), Nat.le_of_not_lt hplaces⟩

/-- The directory of tag files that a settings file sets. A file that is not there sets none. -/
def fileDataDir? (d : Disk) (path : String) : Option String :=
  (d.readText path).toOption.bind fun text => (ofToml? text).bind Settings.dataDir?

theorem readText_of_not_has {d : Disk} {path : String} (h : d.has path = false) :
    ∃ f, d.readText path = .error f := by
  cases hfind : d.find path with
  | ok n =>
    rw [Disk.has, hfind] at h
    cases h
  | error f => exact ⟨f, by rw [Disk.readText, Disk.readBytes, hfind]; rfl⟩

/-- Settings that come from a file are those in it, and they passed the check. -/
theorem loadFrom_spec {d : Disk} {path : String} {s : Settings} (h : loadFrom d path = .ok s) :
    s.check = .ok () ∧ s.dataDir? = fileDataDir? d path := by
  unfold loadFrom at h
  split_ifs at h with hthere
  · -- Without a file there are the default settings.
    obtain ⟨f, hread⟩ := readText_of_not_has (by simpa using hthere)
    obtain rfl := Except.ok.inj h
    rw [fileDataDir?, hread]
    exact ⟨rfl, rfl⟩
  · split at h
    · cases h
    next text hread =>
      split at h
      · cases h
      next t ht =>
        obtain ⟨_, hcheck, rfl⟩ := Except.map_eq_ok_iff.mp h
        refine ⟨hcheck, ?_⟩
        rw [fileDataDir?, hread]
        show t.dataDir? = (ofToml? text).bind Settings.dataDir?
        rw [ht, Option.bind_some]

/-! ## 3. The environment -/

theorem namedDataDir?_ne_empty (env : Environment) : env.namedDataDir? ≠ some "" := by
  intro h
  have := (Option.filter_eq_some_iff.mp h).2
  exact absurd this (by decide)

/-- **The environment puts its directory over what is loaded without it**, and nothing else. -/
theorem load_eq_map (env : Environment) (d : Disk) :
    load env d = (load { env with dataDir? := none } d).map fun s =>
      { s with dataDir? := env.namedDataDir?.or s.dataDir? } := by
  rw [load, load]
  show (loadFrom d env.settingsPath).map _ = ((loadFrom d env.settingsPath).map _).map _
  cases loadFrom d env.settingsPath with
  | error f => rfl
  | ok s => rfl

theorem check_of_load {env : Environment} {d : Disk} {s : Settings} (h : load env d = .ok s) :
    s.check = .ok () := by
  obtain ⟨t, hfile, rfl⟩ := Except.map_eq_ok_iff.mp h
  obtain ⟨hdir, hplaces⟩ := check_eq_ok_iff.mp (loadFrom_spec hfile).1
  refine check_eq_ok_iff.mpr ⟨?_, hplaces⟩
  show env.namedDataDir?.or t.dataDir? ≠ some ""
  cases hnamed : env.namedDataDir? with
  | none => exact hdir
  | some dir =>
    rw [← hnamed]
    simpa [hnamed] using namedDataDir?_ne_empty env

/-- **Settings that are loaded are valid.** They pass the check, so labels have at most six places
and the directory of tag files is not the empty path. This directory is the one that the environment
names if it names one, and else the one that the settings file sets if it sets one, and else
`.tagweave/data` below the home directory, or below `/tmp` without one. What the environment names
changes no other setting, and never whether there are settings, nor the fault if there are none. -/
theorem loaded_settings_valid (env : Environment) (d : Disk) :
    (∀ s, load env d = .ok s →
      s.check = .ok () ∧ s.labelPlaces ≤ 6 ∧ s.dataDir env ≠ "" ∧
      s.dataDir env = (env.namedDataDir?.or (fileDataDir? d env.settingsPath)).getD
        (Path.join (env.home?.getD "/tmp") ".tagweave/data")) ∧
    ∀ other? : Option String,
      (∀ f, load { env with dataDir? := other? } d = .error f ↔ load env d = .error f) ∧
      ∀ s t, load env d = .ok s → load { env with dataDir? := other? } d = .ok t →
        { t with dataDir? := s.dataDir? } = s := by
  constructor
  · intro s h
    have hcheck := check_of_load h
    obtain ⟨hne, hplaces⟩ := check_eq_ok_iff.mp hcheck
    refine ⟨hcheck, hplaces, ?_, ?_⟩
    · rw [dataDir_eq]
      cases hdir : s.dataDir? with
      | none => exact defaultDataDir_ne_empty env
      | some dir =>
        rintro rfl
        exact hne hdir
    · obtain ⟨t, hfile, rfl⟩ := Except.map_eq_ok_iff.mp h
      rw [dataDir_eq, ← (loadFrom_spec hfile).2]
      rfl
  · intro other?
    have hsame := load_eq_map env d
    have hother := load_eq_map { env with dataDir? := other? } d
    rw [hsame, hother]
    refine ⟨fun f => by rw [Except.map_eq_error_iff, Except.map_eq_error_iff], ?_⟩
    intro s t hs ht
    obtain ⟨u, hu, rfl⟩ := Except.map_eq_ok_iff.mp hs
    obtain ⟨v, hv, rfl⟩ := Except.map_eq_ok_iff.mp ht
    obtain rfl : u = v := Except.ok.inj (hu.symm.trans hv)
    rfl

/-- An environment that names the empty text names no directory, so that of the file counts. -/
theorem loaded_settings_valid_empty_name :
    let env : Environment := { home? := some "home", dataDir? := some "" }
    let text := "[catalog]\ndata_dir = \"tags\"\n[editor]\nlabel_precision = 6\n"
    let d : Disk := { root := .directory [("home", .directory [(".tagweave",
      .directory [("config.toml", .ofText text)])])] }
    ∃ s, load env d = .ok s ∧ s.check = .ok () ∧ s.labelPlaces ≤ 6 ∧ s.dataDir env = "tags" := by
  intro env text d
  have hload : load env d = .ok { dataDir? := some "tags", labelPlaces := 6 } := by decide +kernel
  obtain ⟨hcheck, hplaces, -, hdir⟩ := (loaded_settings_valid env d).1 _ hload
  have hnamed : env.namedDataDir? = none := by decide
  have hfile : fileDataDir? d env.settingsPath = some "tags" := by decide +kernel
  refine ⟨_, hload, hcheck, hplaces, ?_⟩
  rw [hdir, hnamed, hfile]
  rfl

end Settings

end PromptTags
