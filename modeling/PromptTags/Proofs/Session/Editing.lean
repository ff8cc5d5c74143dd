/-
Editing between the opening of a session and a commit.

A session is edited step by step, in any order and with any text for a name. Every step keeps the
selection sound: its names are keys, each there once, and its weights are finite. So does every run
of steps (`sound_run`), and a session that was opened on a prompt starts out sound. Steps touch
neither the place of the prompt nor the catalog (`run_eq`), so a commit goes to where the prompt
came from, and what it wrote is read there (`commit_spec`).
-/
import PromptTags.Proofs.Files.Rewriting
import PromptTags.Proofs.Selection.Import
import PromptTags.Session

set_option autoImplicit false

namespace PromptTags

/-! ## 1. The world around -/

/-- **What is written to a place is read from it.** -/
theorem Host.read_of_write {h : Host} {w w' : Surroundings} {text : String}
    (hwrite : h.write w text = .ok w') : h.read w' = .ok text := by
  cases h with
  | field =>
    obtain rfl := Except.ok.inj hwrite
    rfl
  | file path =>
    obtain ⟨disk, hdisk, rfl⟩ := Except.map_eq_ok_iff.mp hwrite
    rw [read, Disk.readText_writeText hdisk]

namespace Session

/-! ## 2. Steps -/

/-- One step of editing. -/
inductive Step where
  | add (name : String)
  | like (name : String)
  | remove (name : String)
  | adjust (name : String) (up : Bool)
  | reorder (name : String) (place : Placement)
  | sortByCatalog
deriving DecidableEq, Repr

def step (s : Session) : Step → Session
  | .add name => (s.add name).2
  | .like name => (s.like name).2
  | .remove name => (s.remove name).2
  | .adjust name up => (s.adjust name up).2
  | .reorder name place => (s.reorder name place).2
  | .sortByCatalog => s.sortByCatalog

def run (s : Session) (steps : List Step) : Session := steps.foldl step s

theorem run_cons (s : Session) (a : Step) (steps : List Step) :
    s.run (a :: steps) = (s.step a).run steps := by
  rw [run, List.foldl_cons, run]

theorem keep_eq {α : Type} (s : Session) (r : α × Selection) :
    (s.keep r).2 = { s with selection := r.2 } := rfl

/-- A step changes nothing but the selection. -/
theorem step_eq (s : Session) (a : Step) :
    s.step a = { s with selection := (s.step a).selection } := by
  cases a with
  | add name => rw [step, add, keep_eq]
  | like name => rw [step, like, keep_eq]
  | remove name => rw [step, remove, keep_eq]
  | adjust name up => rw [step, adjust, keep_eq]
  | reorder name place => rw [step, reorder, keep_eq]
  | sortByCatalog => rw [step, sortByCatalog]

theorem run_eq (s : Session) (steps : List Step) :
    s.run steps = { s with selection := (s.run steps).selection } := by
  induction steps generalizing s with
  | nil => rfl
  | cons a steps ih =>
    rw [run_cons, ih (s.step a), step_eq s a]

theorem host?_run (s : Session) (steps : List Step) : (s.run steps).host? = s.host? := by
  rw [run_eq]

/-! ## 3. Soundness -/

variable {s : Session}

/-- What holds of the selection of every session that was opened and edited. -/
structure Sound (s : Session) : Prop where
  wellFormed : s.selection.WellFormed
  finiteWeights : s.selection.FiniteWeights

theorem sound_of_selection {t : Selection} (hformed : t.WellFormed) (hfinite : t.FiniteWeights)
    (s : Session) : Sound { s with selection := t } :=
  ⟨hformed, hfinite⟩

/-- Steps that only rearrange or leave out entries. -/
theorem Sound.of_subperm {t : Selection} (h : s.Sound)
    (hpart : t.entries.Subperm s.selection.entries) : Sound { s with selection := t } :=
  sound_of_selection (h.wellFormed.of_subperm hpart) (h.finiteWeights.of_subperm hpart) s

/-- **Each step keeps a session sound.** -/
theorem sound_step (h : s.Sound) (a : Step) : (s.step a).Sound := by
  cases a with
  | add name =>
    rw [step, add, keep_eq]
    exact sound_of_selection (Selection.wellFormed_add h.wellFormed name _)
      (Selection.finiteWeights_add h.finiteWeights name _) s
  | like name =>
    rw [step, like, keep_eq]
    exact sound_of_selection (Selection.wellFormed_toggle h.wellFormed name _)
      (Selection.finiteWeights_toggle h.finiteWeights name _) s
  | remove name =>
    rw [step, remove, keep_eq]
    exact Sound.of_subperm h (Selection.subperm_remove s.selection name)
  | adjust name up =>
    rw [step, adjust, keep_eq]
    exact sound_of_selection (Selection.wellFormed_adjust h.wellFormed name up)
      (Selection.finiteWeights_adjust h.finiteWeights name up) s
  | reorder name place =>
    rw [step, reorder, keep_eq]
    exact Sound.of_subperm h (Selection.perm_reorder s.selection name place).subperm
  | sortByCatalog =>
    rw [step, sortByCatalog]
    exact Sound.of_subperm h (Selection.perm_sortBy s.selection _).subperm

theorem sound_run (h : s.Sound) (steps : List Step) : (s.run steps).Sound := by
  induction steps generalizing s with
  | nil => exact h
  | cons a steps ih =>
    rw [run_cons]
    exact ih (sound_step h a)

theorem sound_staged (h : s.Sound) : s.staged.Sound := by
  rw [staged]
  split_ifs
  · exact sound_step h .sortByCatalog
  · exact h

/-! ## 4. Opening and committing -/

/-- A session on a place holds what is read there. -/
theorem onHost_eq_ok_iff {h : Host} {c : Catalog} {w : Surroundings} :
    onHost h c w = .ok s ↔
      ∃ text, h.read w = .ok text ∧
        s = { selection := Selection.ofText text, host? := some h, catalog := c } := by
  rw [onHost]
  cases h.read w with
  | error fault =>
    constructor
    · intro heq
      cases heq
    · rintro ⟨_, htext, -⟩
      cases htext
  | ok text =>
    constructor
    · intro heq
      exact ⟨text, rfl, (Except.ok.inj heq).symm⟩
    · rintro ⟨_, htext, rfl⟩
      rw [Except.ok.inj htext]

theorem sound_onHost {h : Host} {c : Catalog} {w : Surroundings} (hopen : onHost h c w = .ok s) :
    s.Sound := by
  obtain ⟨text, -, rfl⟩ := onHost_eq_ok_iff.mp hopen
  exact ⟨Selection.wellFormed_ofText text, Selection.finiteWeights_ofText text⟩

/-- **A commit that succeeds** leaves the session staged, and its text in the place of the
prompt. -/
theorem commit_spec {h : Host} {w w' : Surroundings} {s' : Session} {text : String}
    (hhost : s.host? = some h) (hcommit : s.commit w = (.ok text, s', w')) :
    s' = s.staged ∧ text = s'.selection.text ∧ h.read w' = .ok text := by
  simp only [commit, hhost, stage] at hcommit
  cases hwrite : h.write w s.staged.preview with
  | error fault =>
    rw [hwrite] at hcommit
    cases hcommit
  | ok written =>
    rw [hwrite] at hcommit
    cases hcommit
    exact ⟨rfl, rfl, Host.read_of_write hwrite⟩

/-- A prompt field takes every text. -/
theorem commit_field (hhost : s.host? = some .field) (w : Surroundings) :
    s.commit w = (.ok s.staged.preview, s.staged, { w with field := s.staged.preview }) := by
  simp only [commit, hhost, stage, Host.write]

end Session

end PromptTags
