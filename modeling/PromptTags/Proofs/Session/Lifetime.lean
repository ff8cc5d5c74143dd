/-
What holds as long as a selection or a session is in use.

A selection that started empty is well formed after any operations, and its lookups agree. Weights
are another matter: an operation on the selection can set any weight, also one that is not a number.
A session has no such operation. What it reads has finite weights, it adds 1.0 and steps of 0.05,
and staging and committing only sort, so in a session that is edited by its own operations alone
all weights stay finite (`finiteWeights_use`).
-/
import PromptTags.Proofs.Selection.Operations
import PromptTags.Proofs.Session.Staging

set_option autoImplicit false

namespace PromptTags.Session

variable {s : Session}

/-! ## 1. Everything a session does -/

/-- What changes a session: an edit, the choice whether commits sort, and the two operations that
bring the selection into the order of a commit. The world around a commit can be any at the time. -/
inductive Action where
  | edit (step : Step)
  | chooseSorting (sorts : Bool)
  | stage
  | commit (w : Surroundings)

def act (s : Session) : Action → Session
  | .edit step => s.step step
  | .chooseSorting sorts => { s with sortOnCommit := sorts }
  | .stage => s.stage.2
  | .commit w => (s.commit w).2.1

def use (s : Session) (actions : List Action) : Session := actions.foldl act s

theorem use_cons (s : Session) (a : Action) (actions : List Action) :
    s.use (a :: actions) = (s.act a).use actions := by
  rw [use, List.foldl_cons, use]

/-- A session as it is when it is opened: on a prompt, or on none. -/
inductive Opened : Session → Prop where
  | onHost {h : Host} {c : Catalog} {w : Surroundings} {s : Session} :
      Session.onHost h c w = .ok s → Opened s
  | detached (c : Catalog) : Opened (Session.detached c)

/-! ## 2. Soundness -/

theorem sound_opened (h : s.Opened) : s.Sound := by
  cases h with
  | onHost hopen => exact sound_onHost hopen
  | detached c => exact ⟨Selection.wellFormed_empty, Selection.finiteWeights_empty⟩

/-- A commit stages the session or leaves it alone. -/
theorem sound_commit (h : s.Sound) (w : Surroundings) : (s.commit w).2.1.Sound := by
  cases hhost : s.host? with
  | none =>
    rw [commit_of_no_host hhost]
    exact h
  | some host =>
    rw [session_commit hhost]
    exact sound_staged h

theorem sound_act (h : s.Sound) (a : Action) : (s.act a).Sound := by
  cases a with
  | edit step => exact sound_step h step
  | chooseSorting sorts => exact ⟨h.wellFormed, h.finiteWeights⟩
  | stage => exact sound_staged h
  | commit w => exact sound_commit h w

theorem sound_use (h : s.Sound) (actions : List Action) : (s.use actions).Sound := by
  induction actions generalizing s with
  | nil => exact h
  | cons a actions ih =>
    rw [use_cons]
    exact ih (sound_act h a)

theorem finiteWeights_use (h : s.Opened) (actions : List Action) :
    (s.use actions).selection.FiniteWeights :=
  (sound_use (sound_opened h) actions).finiteWeights

/-- **Invariants.** After any operations on an empty selection, its names are keys, each there once,
and everything that is asked of it agrees with its list of entries. After anything that is done with
a session that was opened, all its weights are finite. -/
theorem selection_and_session_invariants :
    (∀ operations : List Selection.Operation,
      (Selection.empty.run operations).WellFormed ∧ (Selection.empty.run operations).Coherent) ∧
    ∀ s : Session, s.Opened → ∀ actions : List Action,
      ∀ e ∈ (s.use actions).selection.entries, e.weight.isFinite = true := by
  constructor
  · intro operations
    have hformed := Selection.wellFormed_run Selection.wellFormed_empty operations
    exact ⟨hformed, hformed.coherent⟩
  · intro s hopened actions
    exact finiteWeights_use hopened actions

/-- A weight of the prompt, one that was added and lowered below zero, and a commit between. -/
theorem selection_and_session_invariants_field :
    ∃ s : Session, onHost .field [] { field := "a:2" } = .ok s ∧
      ((s.use (.edit (.add "b") :: .commit {} ::
        List.replicate 21 (.edit (.adjust "b" false)))).selection.entries.map fun e =>
          (e.name, Decimal.fixed 2 e.weight)) = [("a", "2.00"), ("b", "-0.05")] ∧
      ∀ e ∈ (s.use (.edit (.add "b") :: .commit {} ::
        List.replicate 21 (.edit (.adjust "b" false)))).selection.entries,
        e.weight.isFinite = true := by
  let s : Session := { selection := Selection.ofText "a:2", host? := some .field }
  have hopen : onHost .field [] { field := "a:2" } = .ok s := rfl
  refine ⟨s, hopen, by decide +kernel, ?_⟩
  exact selection_and_session_invariants.2 s (.onHost hopen) _

end PromptTags.Session
