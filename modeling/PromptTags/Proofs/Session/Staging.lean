/-
Staging, previewing and committing give one text.

A session that is staged is in the order in which it is committed, and sorting is stable, so staging
it again changes nothing (`staged_staged`). A commit stages first and writes afterwards, so with a
place for the prompt it leaves the session staged whether the writing succeeds or not
(`session_commit`). From then on every reading-out gives the text of the first one and leaves the
session as it is, in any order and however many commits fail on the way (`readOuts_of_staged`).
Without a place a commit does not even stage.
-/
import PromptTags.Proofs.Selection.Sorting
import PromptTags.Proofs.Session.Editing

set_option autoImplicit false

namespace PromptTags

namespace Session

variable {s : Session} {h : Host}

/-! ## 1. A staged session -/

theorem staged_of_sorts (hsorts : s.sortOnCommit = true) : s.staged = s.sortByCatalog :=
  if_pos hsorts

theorem staged_of_not_sorts (hsorts : s.sortOnCommit = false) : s.staged = s :=
  if_neg (by rw [hsorts]; exact Bool.false_ne_true)

theorem staged_staged (s : Session) : s.staged.staged = s.staged := by
  cases hsorts : s.sortOnCommit with
  | false => rw [staged_of_not_sorts hsorts, staged_of_not_sorts hsorts]
  | true =>
    have hkept : s.sortByCatalog.sortOnCommit = true := hsorts
    rw [staged_of_sorts hsorts, staged_of_sorts hkept, sortByCatalog, sortByCatalog,
      Selection.sortBy_sortBy]

theorem stage_eq (s : Session) : s.stage = (s.staged.preview, s.staged) := rfl

theorem host?_staged (s : Session) : s.staged.host? = s.host? := by
  rw [staged]
  split_ifs <;> rfl

/-! ## 2. Committing -/

theorem commit_of_no_host (hhost : s.host? = none) (w : Surroundings) :
    s.commit w = (.error .noHost, s, w) := by
  simp only [commit, hhost]

theorem commit_of_write {w w' : Surroundings} (hhost : s.host? = some h)
    (hwrite : h.write w s.staged.preview = .ok w') :
    s.commit w = (.ok s.staged.preview, s.staged, w') := by
  simp only [commit, hhost, stage_eq, hwrite]

theorem commit_of_fault {w : Surroundings} {f : FileFault} (hhost : s.host? = some h)
    (hwrite : h.write w s.staged.preview = .error f) :
    s.commit w = (.error (.file f), s.staged, w) := by
  simp only [commit, hhost, stage_eq, hwrite]

/-- With a place for the prompt, the session is staged in any case. -/
theorem session_commit (hhost : s.host? = some h) (w : Surroundings) :
    (s.commit w).2.1 = s.staged := by
  cases hwrite : h.write w s.staged.preview with
  | ok w' => rw [commit_of_write hhost hwrite]
  | error f => rw [commit_of_fault hhost hwrite]

theorem text_of_commit {w : Surroundings} {text : String} (hhost : s.host? = some h)
    (htext : (s.commit w).1 = .ok text) : text = s.staged.preview := by
  cases hwrite : h.write w s.staged.preview with
  | ok w' =>
    rw [commit_of_write hhost hwrite] at htext
    exact (Except.ok.inj htext).symm
  | error f =>
    rw [commit_of_fault hhost hwrite] at htext
    cases htext

/-- Committing a staged session is committing the session. -/
theorem commit_staged (hhost : s.host? = some h) (w : Surroundings) :
    s.staged.commit w = s.commit w := by
  have hkept : s.staged.host? = some h := (host?_staged s).trans hhost
  cases hwrite : h.write w s.staged.preview with
  | ok w' =>
    rw [commit_of_write hhost hwrite, commit_of_write hkept (by rw [staged_staged]; exact hwrite),
      staged_staged]
  | error f =>
    rw [commit_of_fault hhost hwrite, commit_of_fault hkept (by rw [staged_staged]; exact hwrite),
      staged_staged]

/-! ## 3. Reading out again and again -/

/-- The ways to get at the text of a session. The world around a commit can be any at the time. -/
inductive ReadOut where
  | preview
  | stage
  | commit (w : Surroundings)

/-- The text, or why there is none, and the session afterwards. -/
def readOut (s : Session) : ReadOut → Except SessionFault String × Session
  | .preview => (.ok s.preview, s)
  | .stage => (.ok s.stage.1, s.stage.2)
  | .commit w => ((s.commit w).1, (s.commit w).2.1)

/-- The answers of one reading-out after the other, and the session at the end. -/
def readOuts (s : Session) : List ReadOut → List (Except SessionFault String) × Session
  | [] => ([], s)
  | r :: rs =>
    ((s.readOut r).1 :: ((s.readOut r).2.readOuts rs).1, ((s.readOut r).2.readOuts rs).2)

theorem readOut_of_staged (hstaged : s.staged = s) (hhost : s.host? = some h) (r : ReadOut) :
    (s.readOut r).2 = s ∧ ∀ text, (s.readOut r).1 = .ok text → text = s.preview := by
  cases r with
  | preview => exact ⟨rfl, fun text htext => (Except.ok.inj htext).symm⟩
  | stage =>
    rw [readOut, stage_eq, hstaged]
    exact ⟨rfl, fun text htext => (Except.ok.inj htext).symm⟩
  | commit w =>
    rw [readOut, session_commit hhost, hstaged]
    refine ⟨rfl, fun text htext => ?_⟩
    rw [text_of_commit hhost htext, hstaged]

/-- **From a staged session** only its own text is read out, and it stays as it is. -/
theorem readOuts_of_staged (hstaged : s.staged = s) (hhost : s.host? = some h)
    (rs : List ReadOut) :
    (s.readOuts rs).2 = s ∧ ∀ text, .ok text ∈ (s.readOuts rs).1 → text = s.preview := by
  induction rs with
  | nil => exact ⟨rfl, fun text htext => absurd htext List.not_mem_nil⟩
  | cons r rs ih =>
    obtain ⟨hsame, htexts⟩ := readOut_of_staged hstaged hhost r
    rw [readOuts, hsame]
    refine ⟨ih.1, fun text htext => ?_⟩
    rcases List.mem_cons.mp htext with hfirst | hrest
    · exact htexts text hfirst.symm
    · exact ih.2 text hrest

/-- **Staging and committing agree, and a commit can be tried again.** Staging a second time changes
neither the text nor the session, and a preview shows that text. A session without a place for the
prompt is left alone by a commit. With a place, a commit writes and returns the text that staging
shows if the place takes it, and reports why it does not otherwise; the session is the staged one
in both cases, and whatever is read out of it later is the same text, by a commit as well: one that
succeeds at last does just what the first one would have done. -/
theorem stage_commit_agree (s : Session) :
    (s.stage.2.stage = s.stage ∧ s.stage.2.preview = s.stage.1) ∧
    (s.host? = none → ∀ w, s.commit w = (.error .noHost, s, w)) ∧
    ∀ h, s.host? = some h →
      (∀ w w', h.write w s.stage.1 = .ok w' →
        s.commit w = (.ok s.stage.1, s.stage.2, w') ∧ h.read w' = .ok s.stage.1) ∧
      (∀ w f, h.write w s.stage.1 = .error f → s.commit w = (.error (.file f), s.stage.2, w)) ∧
      (∀ w, s.stage.2.commit w = s.commit w) ∧
      ∀ rs, (s.stage.2.readOuts rs).2 = s.stage.2 ∧
        ∀ text, .ok text ∈ (s.stage.2.readOuts rs).1 → text = s.stage.1 := by
  rw [stage_eq]
  refine ⟨⟨?_, rfl⟩, commit_of_no_host, fun h hhost => ⟨?_, ?_, commit_staged hhost, ?_⟩⟩
  · rw [stage_eq, staged_staged]
  · intro w w' hwrite
    exact ⟨commit_of_write hhost hwrite, Host.read_of_write hwrite⟩
  · intro w f hwrite
    exact commit_of_fault hhost hwrite
  · exact readOuts_of_staged (staged_staged s) ((host?_staged s).trans hhost)

/-- A file that cannot be written at first, because a directory is in its place. -/
theorem stage_commit_agree_file :
    ∃ s : Session, ∃ w w' : Surroundings, s.host? = some (.file "prompt") ∧
      s.preview = "b, a" ∧ s.stage.1 = "a, b" ∧
      (Host.file "prompt").write w s.stage.1 = .error .isDirectory ∧
      s.commit w = (.error (.file .isDirectory), s.stage.2, w) ∧
      s.stage.2.commit {} = (.ok "a, b", s.stage.2, w') ∧
      (Host.file "prompt").read w' = .ok "a, b" := by
  let a : Entry := ⟨"a", none, defaultWeight⟩
  let b : Entry := ⟨"b", none, defaultWeight⟩
  let s : Session :=
    { selection := ⟨[b, a]⟩
      host? := some (.file "prompt")
      catalog := [{ name := "a" }, { name := "b" }]
      sortOnCommit := true }
  let w : Surroundings := { disk := { root := .directory [("prompt", .directory [])] } }
  let w' : Surroundings := { disk := { root := .directory [("prompt", .ofText "a, b")] } }
  have horder : s.catalog.referenceOrder = [("a", 0), ("b", 1)] := by decide +kernel
  have hsorted : s.stage.2.selection = ⟨[a, b]⟩ := by
    show s.selection.sortBy s.catalog.referenceOrder = _
    rw [horder]
    simp [s, a, b, Selection.sortBy, List.mergeSort, Ranking.rank, List.lookup]
  have htext : s.stage.1 = "a, b" := by
    show s.stage.2.selection.text = "a, b"
    rw [hsorted]
    decide +kernel
  have hfault : (Host.file "prompt").write w s.stage.1 = .error .isDirectory := by rw [htext]; rfl
  have hwritten : (Host.file "prompt").write {} s.stage.1 = .ok w' := by rw [htext]; rfl
  obtain ⟨-, -, hplace⟩ := stage_commit_agree s
  obtain ⟨htaken, hrefused, hagain, -⟩ := hplace (.file "prompt") rfl
  obtain ⟨hcommit, hread⟩ := htaken {} w' hwritten
  refine ⟨s, w, w', rfl, by decide +kernel, htext, hfault, hrefused w _ hfault, ?_, ?_⟩
  · rw [hagain, hcommit, htext]
  · rw [hread, htext]

end Session

end PromptTags
