/-
A session and the world that others change.

While a session is open, somebody else can write to the prompt field, or rewrite or remove the file,
between any two operations. Only a commit looks at the world at all, and all it learns is whether
its text could be written. So there is one case lemma (`perform_cases`): an operation gives the
answer and the session that follow from the session alone, and leaves the world as it is; or it is a
commit that writes its text; or it is a commit that fails, and then answer and world are the only
things that are different.

From it follow both halves of the statement. What the place of the prompt holds is what was put
there last, by a change from outside or by a commit (`read_after`). And what is seen of a session is
what the session does on its own, apart from commits that fail (`seen_agrees`), so two sessions that
read the same prompt cannot be told apart by what goes on around them.
-/
import PromptTags.Proofs.Selection.Operations
import PromptTags.Proofs.Session.Staging

set_option autoImplicit false

namespace PromptTags

/-! ## 1. Operations and their answers -/

/-- What an operation answers. -/
inductive Answer where
  | nothing
  | flag (b : Bool)
  | weight (w? : Option Float)
  | lines (ls : List String)
  | text (t : String)
  | fault (f : SessionFault)

/-- What an operation on a selection answers. -/
def Selection.answer (s : Selection) : Selection.Operation → Answer
  | .add name display? => .flag (s.add name display?).1
  | .toggle name display? => .flag (s.toggle name display?).1
  | .remove name => .flag (s.remove name).1
  | .adjust name up => .weight (s.adjust name up).1
  | .setWeight name weight => .flag (s.setWeight name weight).1
  | .reorder name place => .flag (s.reorder name place).1
  | .importTokens _ => .nothing
  | .clear => .nothing
  | .sortBy _ => .nothing

namespace Session

/-- What a step of editing answers. -/
def stepAnswer (s : Session) : Step → Answer
  | .add name => .flag (s.add name).1
  | .like name => .flag (s.like name).1
  | .remove name => .flag (s.remove name).1
  | .adjust name up => .weight (s.adjust name up).1
  | .reorder name place => .flag (s.reorder name place).1
  | .sortByCatalog => .nothing

/-- Everything that can be asked of an open session. -/
inductive Operation where
  | edit (a : Step)
  /-- An operation on the selection itself, past the session. -/
  | select (o : Selection.Operation)
  | labels (places : Nat)
  | preview
  | stage
  | commit

/-- The answer that follows from the session alone; for a commit, the text that it writes. -/
def reply (s : Session) : Operation → Answer
  | .edit a => s.stepAnswer a
  | .select o => s.selection.answer o
  | .labels places => .lines (s.labels places)
  | .preview => .text s.preview
  | .stage => .text s.stage.1
  | .commit => .text s.stage.1

/-- The session after an operation, as far as it follows from the session alone. -/
def next (s : Session) : Operation → Session
  | .edit a => s.step a
  | .select o => { s with selection := s.selection.apply o }
  | .labels _ => s
  | .preview => s
  | .stage => s.stage.2
  | .commit => s.stage.2

/-- Performs an operation in the world. -/
def perform (s : Session) (w : Surroundings) : Operation → Answer × Session × Surroundings
  | .commit =>
    match s.commit w with
    | (.ok text, s, w) => (.text text, s, w)
    | (.error f, s, w) => (.fault f, s, w)
  | o => (s.reply o, s.next o, w)

variable {s : Session} {h : Host}

theorem host?_next (s : Session) (o : Operation) : (s.next o).host? = s.host? := by
  cases o with
  | edit a => rw [next, step_eq]
  | select o => rfl
  | labels places => rfl
  | preview => rfl
  | stage => exact host?_staged s
  | commit => exact host?_staged s

/-- **What an operation can do.** Only a commit meets the world, and what it meets there does not
change what becomes of the session. -/
theorem perform_cases (hhost : s.host? = some h) (w : Surroundings) (o : Operation) :
    (o ≠ .commit ∧ s.perform w o = (s.reply o, s.next o, w)) ∨
    (o = .commit ∧ ∃ w', h.write w s.stage.1 = .ok w' ∧
      s.perform w o = (s.reply o, s.next o, w')) ∨
    (o = .commit ∧ ∃ f, h.write w s.stage.1 = .error f ∧
      s.perform w o = (.fault (.file f), s.next o, w)) := by
  by_cases ho : o = .commit
  · subst ho
    right
    cases hwrite : h.write w s.stage.1 with
    | ok w' =>
      left
      refine ⟨rfl, w', rfl, ?_⟩
      rw [perform, commit_of_write hhost hwrite]
      rfl
    | error f =>
      right
      refine ⟨rfl, f, rfl, ?_⟩
      rw [perform, commit_of_fault hhost hwrite]
      rfl
  · left
    refine ⟨ho, ?_⟩
    cases o with
    | commit => exact absurd rfl ho
    | _ => rfl

/-- The session after an operation follows from the session alone. -/
theorem session_perform (hhost : s.host? = some h) (w : Surroundings) (o : Operation) :
    (s.perform w o).2.1 = s.next o := by
  rcases perform_cases hhost w o with ⟨-, hdone⟩ | ⟨-, _, -, hdone⟩ | ⟨-, _, -, hdone⟩ <;> rw [hdone]

/-! ## 2. Runs among others -/

/-- An operation on the session, or a change from outside, after which the world is another one. -/
inductive Event where
  | own (o : Operation)
  | outside (w : Surroundings)

def Event.own? : Event → Option Operation
  | .own o => some o
  | .outside _ => none

/-- What is seen of an operation: the answer to it, and the selection afterwards. -/
structure Observation where
  operation : Operation
  answer : Answer
  selection : Selection

/-- What happened at an event. -/
inductive Happening where
  | own (x : Observation)
  | outside (w : Surroundings)

/-- The session and the world after some events. -/
def after (s : Session) (w : Surroundings) : List Event → Session × Surroundings
  | [] => (s, w)
  | .outside w' :: es => s.after w' es
  | .own o :: es => (s.perform w o).2.1.after (s.perform w o).2.2 es

/-- What happens at some events, one after the other. -/
def happenings (s : Session) (w : Surroundings) : List Event → List Happening
  | [] => []
  | .outside w' :: es => .outside w' :: s.happenings w' es
  | .own o :: es =>
    .own ⟨o, (s.perform w o).1, (s.perform w o).2.1.selection⟩ ::
      (s.perform w o).2.1.happenings (s.perform w o).2.2 es

/-- What is seen of the session. -/
def seen (s : Session) (w : Surroundings) (es : List Event) : List Observation :=
  (s.happenings w es).filterMap fun
    | .own x => some x
    | .outside _ => none

/-! ## 3. The place of the prompt -/

/-- What an event leaves in the place of the prompt, if it is one that puts something there: a
change from outside leaves what can be read then, and a commit that succeeds leaves its text. -/
def Happening.left? (h : Host) : Happening → Option (Except FileFault String)
  | .outside w => some (h.read w)
  | .own ⟨.commit, .text t, _⟩ => some (.ok t)
  | .own _ => none

theorem left?_of_ne_commit {x : Observation} (hx : x.operation ≠ .commit) :
    (Happening.own x).left? h = none := by
  obtain ⟨o, answer, selection⟩ := x
  cases o with
  | commit => exact absurd rfl hx
  | _ => rfl

/-- One operation: the place holds what it left there, or else what was there before. -/
theorem read_perform (hhost : s.host? = some h) (w : Surroundings) (o : Operation) :
    h.read (s.perform w o).2.2 =
      ((Happening.own ⟨o, (s.perform w o).1, (s.perform w o).2.1.selection⟩).left? h).getD
        (h.read w) := by
  rcases perform_cases hhost w o with ⟨ho, hdone⟩ | ⟨rfl, w', hwrite, hdone⟩ | ⟨rfl, f, -, hdone⟩
  · rw [hdone, left?_of_ne_commit ho, Option.getD_none]
  · rw [hdone]
    exact Host.read_of_write hwrite
  · rw [hdone]
    rfl

/-- **The place of the prompt holds what was put there last.** -/
theorem read_after (hhost : s.host? = some h) (w : Surroundings) (es : List Event) :
    h.read (s.after w es).2 =
      ((s.happenings w es).filterMap (Happening.left? h)).getLast?.getD (h.read w) := by
  induction es generalizing s w with
  | nil => rfl
  | cons e es ih =>
    cases e with
    | outside w' =>
      have hleft : (Happening.outside w').left? h = some (h.read w') := rfl
      rw [after, ih hhost w', happenings, List.filterMap_cons_some hleft, List.getLast?_cons,
        Option.getD_some]
    | own o =>
      have hkept : (s.perform w o).2.1.host? = some h := by
        rw [session_perform hhost, host?_next, hhost]
      rw [after, ih hkept, happenings, read_perform hhost, List.filterMap_cons]
      cases hleft : (Happening.own ⟨o, (s.perform w o).1, (s.perform w o).2.1.selection⟩).left? h with
      | none => rw [Option.getD_none]
      | some answer => rw [Option.getD_some, List.getLast?_cons, Option.getD_some]

/-! ## 4. What is seen -/

/-- What would be seen of a session whose commits all succeed. -/
def alone (s : Session) : List Operation → List Observation
  | [] => []
  | o :: os => ⟨o, s.reply o, (s.next o).selection⟩ :: (s.next o).alone os

/-- The operations among some events. -/
def operations (es : List Event) : List Operation := es.filterMap Event.own?

/-- A commit that could not write its text. -/
def Observation.Failed (x : Observation) : Prop :=
  x.operation = .commit ∧ ∃ f, x.answer = .fault (.file f)

/-- Two observations of one operation, the first with the prompt in one place and the second with it
in another. All that can be different is the answer of a commit, and then one of the two failed on
a file. -/
structure Observation.Agrees (h h' : Host) (x y : Observation) : Prop where
  operation : y.operation = x.operation
  selection : y.selection = x.selection
  answer : y.answer = x.answer ∨ h ≠ .field ∧ x.Failed ∨ h' ≠ .field ∧ y.Failed

/-- A prompt field takes every text. -/
theorem not_field_of_fault {w : Surroundings} {text : String} {f : FileFault}
    (hwrite : h.write w text = .error f) : h ≠ .field := by
  rintro rfl
  cases hwrite

/-- **What is seen of a session is what it does on its own**, apart from commits to a file that
fail. -/
theorem seen_agrees (hhost : s.host? = some h) (w : Surroundings) (es : List Event) :
    List.Forall₂ (Observation.Agrees .field h) (s.alone (operations es)) (s.seen w es) := by
  induction es generalizing s w with
  | nil => exact .nil
  | cons e es ih =>
    cases e with
    | outside w' => exact ih hhost w'
    | own o =>
      have hrest := ih ((host?_next s o).trans hhost) (s.perform w o).2.2
      have hseen : s.seen w (.own o :: es) =
          ⟨o, (s.perform w o).1, (s.next o).selection⟩ ::
            (s.next o).seen (s.perform w o).2.2 es := by
        rw [← session_perform hhost w o]
        rfl
      rw [hseen]
      refine .cons ⟨rfl, rfl, ?_⟩ hrest
      rcases perform_cases hhost w o with ⟨-, hdone⟩ | ⟨-, _, -, hdone⟩ | ⟨ho, f, hwrite, hdone⟩
      · left
        rw [hdone]
      · left
        rw [hdone]
      · right
        right
        exact ⟨not_field_of_fault hwrite, ho, f, by rw [hdone]⟩

/-! ## 5. Two sessions -/

/-- On its own, a session does not depend on where its prompt is kept. -/
theorem next_host (s : Session) (h? : Option Host) (o : Operation) :
    next { s with host? := h? } o = { s.next o with host? := h? } := by
  cases o with
  | edit a => cases a <;> rfl
  | select o => rfl
  | labels places => rfl
  | preview => rfl
  | stage =>
    rw [next, next, stage_eq, stage_eq, staged, staged]
    split_ifs <;> rfl
  | commit =>
    rw [next, next, stage_eq, stage_eq, staged, staged]
    split_ifs <;> rfl

theorem reply_host (s : Session) (h? : Option Host) (o : Operation) :
    reply { s with host? := h? } o = s.reply o := by
  have hstage : (stage { s with host? := h? }).1 = s.stage.1 := by
    rw [stage_eq, stage_eq, staged, staged]
    split_ifs <;> rfl
  cases o with
  | edit a => cases a <;> rfl
  | select o => rfl
  | labels places => rfl
  | preview => rfl
  | stage => rw [reply, reply, hstage]
  | commit => rw [reply, reply, hstage]

theorem alone_host (s : Session) (h? : Option Host) (os : List Operation) :
    alone { s with host? := h? } os = s.alone os := by
  induction os generalizing s with
  | nil => rfl
  | cons o os ih => rw [alone, alone, reply_host, next_host, ih]

/-- A session on a place, with the choice whether commits sort. -/
def openWith (h : Host) (c : Catalog) (sorts : Bool) (w : Surroundings) :
    Except SessionFault Session :=
  (onHost h c w).map fun s => { s with sortOnCommit := sorts }

theorem openWith_eq_ok_iff {c : Catalog} {sorts : Bool} {w : Surroundings} :
    openWith h c sorts w = .ok s ↔ ∃ text, h.read w = .ok text ∧
      s = { selection := Selection.ofText text, host? := some h, catalog := c
            sortOnCommit := sorts } := by
  unfold openWith
  rw [Except.map_eq_ok_iff]
  constructor
  · rintro ⟨_, hopen, rfl⟩
    obtain ⟨text, htext, rfl⟩ := onHost_eq_ok_iff.mp hopen
    exact ⟨text, htext, rfl⟩
  · rintro ⟨text, htext, rfl⟩
    exact ⟨_, onHost_eq_ok_iff.mpr ⟨text, htext, rfl⟩, rfl⟩

/-- Two observations of what one session would do on its own. -/
theorem Observation.Agrees.both {h' : Host} {x y z : Observation}
    (hx : Observation.Agrees .field h z x) (hy : Observation.Agrees .field h' z y) :
    Observation.Agrees h h' x y := by
  refine ⟨hy.operation.trans hx.operation.symm, hy.selection.trans hx.selection.symm, ?_⟩
  rcases hx.answer with hxa | hxa | hxa
  · rcases hy.answer with hya | hya | hya
    · exact Or.inl (hya.trans hxa.symm)
    · exact absurd rfl hya.1
    · exact Or.inr (Or.inr hya)
  · exact absurd rfl hxa.1
  · exact Or.inr (Or.inl hxa)

theorem agrees_both {h' : Host} {xs ys zs : List Observation}
    (hxs : List.Forall₂ (Observation.Agrees .field h) zs xs)
    (hys : List.Forall₂ (Observation.Agrees .field h') zs ys) :
    List.Forall₂ (Observation.Agrees h h') xs ys := by
  induction hxs generalizing ys with
  | nil =>
    cases hys
    exact .nil
  | cons hx _ ih =>
    cases hys with
    | cons hy hys => exact .cons (hx.both hy) (ih hys)

/-- **Isolation.** Let a session be opened on a prompt field or a file, and let operations on it
follow among changes from outside, in any order. At any moment, the place of the prompt holds what
the last change from outside or the last successful commit left there, and a commit leaves the text
that it answers. What is seen of the session is what it does on its own, up to commits to a file
that fail; and a second session, opened on the same prompt in any place with the same catalog and
the same choice of sorting, shows the same selections and the same answers after the same
operations, whatever happens around the two, except that a commit to a file can fail. -/
theorem host_isolation {c : Catalog} {sorts : Bool} {w : Surroundings}
    (hopen : openWith h c sorts w = .ok s) (es : List Event) :
    (h.read (s.after w es).2 =
      ((s.happenings w es).filterMap (Happening.left? h)).getLast?.getD (h.read w)) ∧
    List.Forall₂ (Observation.Agrees .field h) (s.alone (operations es)) (s.seen w es) ∧
    ∀ (h' : Host) (w' : Surroundings) (s' : Session), openWith h' c sorts w' = .ok s' →
      h'.read w' = h.read w → ∀ es' : List Event, operations es' = operations es →
      List.Forall₂ (Observation.Agrees h h') (s.seen w es) (s'.seen w' es') := by
  obtain ⟨text, htext, hs⟩ := openWith_eq_ok_iff.mp hopen
  have hhost : s.host? = some h := by rw [hs]
  refine ⟨read_after hhost w es, seen_agrees hhost w es, ?_⟩
  intro h' w' s' hopen' hread es' hsame
  obtain ⟨text', htext', hs'⟩ := openWith_eq_ok_iff.mp hopen'
  have hhost' : s'.host? = some h' := by rw [hs']
  have halone : s'.alone (operations es') = s.alone (operations es) := by
    have heq : text' = text := Except.ok.inj (htext'.symm.trans (hread.trans htext))
    have hmoved : s' = { s with host? := some h' } := by rw [hs', hs, heq]
    rw [hsame, hmoved, alone_host]
  have hseen' := seen_agrees hhost' w' es'
  rw [halone] at hseen'
  exact agrees_both (seen_agrees hhost w es) hseen'

/-- A file that is replaced by a directory before the first commit and removed before the second,
and a prompt field that nobody else touches. -/
theorem host_isolation_file :
    ∃ (w w' : Surroundings) (s s' : Session) (es es' : List Event),
      openWith (.file "prompt") [] false w = .ok s ∧ openWith .field [] false w' = .ok s' ∧
      operations es = operations es' ∧
      (Host.file "prompt").read (s.after w es).2 = .ok "b, a, c" ∧
      (∃ x ∈ s.seen w es, x.Failed) ∧
      List.Forall₂ (Observation.Agrees (.file "prompt") .field) (s.seen w es) (s'.seen w' es') := by
  let w : Surroundings := { disk := { root := .directory [("prompt", .ofText "b, a")] } }
  let blocked : Surroundings := { disk := { root := .directory [("prompt", .directory [])] } }
  let w' : Surroundings := { field := "b, a" }
  let s : Session := { selection := Selection.ofText "b, a", host? := some (.file "prompt") }
  let s' : Session := { selection := Selection.ofText "b, a", host? := some .field }
  let add : Event := .own (.edit (.add "c"))
  let es : List Event := [add, .outside blocked, .own .commit, .outside {}, .own .commit]
  let es' : List Event := [add, .own .commit, .own .commit]
  have hread : (Host.file "prompt").read w = .ok "b, a" := by decide +kernel
  have hopen : openWith (.file "prompt") [] false w = .ok s :=
    openWith_eq_ok_iff.mpr ⟨_, hread, rfl⟩
  have hopen' : openWith .field [] false w' = .ok s' := rfl
  obtain ⟨hplace, -, hothers⟩ := host_isolation hopen es
  refine ⟨w, w', s, s', es, es', hopen, hopen', rfl, ?_, ?_, hothers .field w' s' hopen' ?_ es' rfl⟩
  · rw [hplace]
    decide +kernel
  · exact ⟨⟨.commit, .fault (.file .isDirectory), _⟩, .tail _ (.head _), rfl, _, rfl⟩
  · rw [hread]
    rfl

end Session

end PromptTags
