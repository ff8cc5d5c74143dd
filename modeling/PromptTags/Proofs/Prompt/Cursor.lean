/-
A cursor over the bytes of a text.

The cursor is a number of bytes, and every look at the text cuts the text there. A cut inside of a
character or past the end has no answer, and neither has a loop that has made a turn for each
character of the text and would go on; so a result means that there was none of either. What happens
on the way is noted: where the cursor stood, how far each turn of a loop went, how deep the groups
were.

The cursor stands in front of some characters when these are what the cut gives (`Stands`). A run of
characters moves it behind them and nowhere else (`takeRun_eq`), by induction on the characters that
are left, and so do a weight and a tag (`takeWeight_eq`, `takePlain_eq`), which are those of the
reader that goes from one list of characters to the next.
-/
import Mathlib.Data.String.Basic
import PromptTags.Proofs.Prompt.WeightText

set_option autoImplicit false

namespace PromptTags.Prompt

open Text (isBlank trimmed)

/-! ## 1. Cutting a text at bytes -/

/-- What stands behind so many bytes of a text. -/
def textBehind (text : String) (start : Nat) : Option String :=
  (text.pos? ⟨start⟩).map fun p => (text.sliceFrom p).copy

/-- What stands between two bytes of a text. -/
def textBetween (text : String) (start stop : Nat) : Option String := do
  let p ← text.pos? ⟨start⟩
  let q ← text.pos? ⟨stop⟩
  let between ← text.slice? p q
  some between.copy

theorem exists_pos {text front rest : String} (h : text = front ++ rest) :
    ∃ p : text.Pos, text.pos? ⟨front.utf8ByteSize⟩ = some p ∧ p.Splits front rest := by
  have hvalid : String.Pos.Raw.IsValid text front.rawEndPos :=
    String.Pos.Raw.isValid_iff_exists_append.mpr ⟨front, rest, h, rfl⟩
  have hslice : String.Pos.Raw.isValidForSlice text.toSlice front.rawEndPos = true :=
    String.Pos.Raw.isValidForSlice_eq_true_iff.mpr
      (String.Pos.Raw.isValidForSlice_toSlice_iff.mpr hvalid)
  have hpos : text.pos? ⟨front.utf8ByteSize⟩ = some (text.pos front.rawEndPos hvalid) := by
    rw [String.pos?, String.Slice.pos?]
    exact congrArg (Option.map String.Pos.ofToSlice) (dif_pos hslice)
  exact ⟨text.pos front.rawEndPos hvalid, hpos, h, rfl⟩

theorem textBehind_eq {text front rest : String} (h : text = front ++ rest) :
    textBehind text front.utf8ByteSize = some rest := by
  obtain ⟨p, hp, hsplits⟩ := exists_pos h
  rw [textBehind, hp, Option.map_some, hsplits.copy_sliceFrom_eq]

theorem textBetween_eq {text front between rest : String} (h : text = front ++ between ++ rest) :
    textBetween text front.utf8ByteSize (front ++ between).utf8ByteSize = some between := by
  obtain ⟨p, hp, hfront⟩ := exists_pos (h.trans String.append_assoc)
  obtain ⟨q, hq, hbehind⟩ := exists_pos h
  obtain ⟨hle, hcopy⟩ := String.copy_slice_eq_iff_splits.mpr ⟨front, rest, hfront, hbehind⟩
  simp only [textBetween, hp, hq, Option.bind_eq_bind, Option.bind_some, String.slice?,
    dif_pos hle, hcopy]

/-! ## 2. The cursor -/

/-- What is noted while a text is read. -/
inductive Event where
  /-- The cursor is at this byte. -/
  | stands (pos : Nat)
  /-- One turn of a loop went from this byte to that one. -/
  | turn (start stop : Nat)
  /-- A group starts; with it so many are being read, and this is the count of open ones. -/
  | group (groups depth : Nat)
  /-- A value was read inside of so many groups, with the count of open ones before and after. -/
  | value (groups before after : Nat)
deriving DecidableEq

/-- A place in a text, the count of open groups, and what was noted so far. -/
structure Cursor where
  pos : Nat := 0
  depth : Nat := 0
  events : List Event := [.stands 0]

namespace Cursor

def note (e : Event) (c : Cursor) : Cursor := { c with events := e :: c.events }

def moveTo (pos : Nat) (c : Cursor) : Cursor := { c with pos := pos }.note (.stands pos)

/-- The character that is next, if there is one. -/
def peek (text : String) (c : Cursor) : Option (Option Char) :=
  (textBehind text c.pos).map (·.toList.head?)

/-- Passes over a character. -/
def bump (text : String) (c : Cursor) : Option Cursor := do
  match ← peek text c with
  | some a => some (c.moveTo (c.pos + a.utf8Size))
  | none => some c

/-- Passes over a character if it is this one, and tells whether it was. -/
def eat (text : String) (a : Char) (c : Cursor) : Option (Bool × Cursor) := do
  let next ← peek text c
  if next = some a then some (true, c.moveTo (c.pos + a.utf8Size)) else some (false, c)

/-! ## 3. Runs of characters -/

/-- A rule for runs of characters: which ones come next, as far as it depends on those before. -/
abbrev Rule (σ : Type) := σ → Char → Option σ

/-- All characters of a kind. -/
def Rule.kind (p : Char → Bool) : Rule Unit := fun _ a => if p a then some () else none

/-- Digits and one point, if it may still come. -/
def Rule.number : Rule Bool := fun point a =>
  if a.isDigit then some point else if point && a == '.' then some false else none

/-- The longest run at the start of some characters, and what is left. -/
def Rule.cut {σ : Type} (rule : Rule σ) (s : σ) : List Char → List Char × List Char
  | [] => ([], [])
  | a :: cs =>
    match rule s a with
    | some s' => (a :: (rule.cut s' cs).1, (rule.cut s' cs).2)
    | none => ([], a :: cs)

/-- One turn for each character of the text, and one to see that there are no more. -/
def enoughTurns (text : String) : Nat := text.length + 1

/-- Passes over the longest run, in no more than so many turns. -/
def passRun {σ : Type} (text : String) (rule : Rule σ) : (turns : Nat) → σ → Cursor → Option Cursor
  | 0, _, _ => none
  | turns + 1, s, c => do
    match ← peek text c with
    | none => some c
    | some a =>
      match rule s a with
      | none => some c
      | some s' => passRun text rule turns s' (c.moveTo (c.pos + a.utf8Size))

/-- Passes over the longest run and gives its text. -/
def takeRun {σ : Type} (text : String) (rule : Rule σ) (s : σ) (c : Cursor) :
    Option (List Char × Cursor) := do
  let behind ← passRun text rule (enoughTurns text) s c
  let run ← textBetween text c.pos behind.pos
  some (run.toList, behind)

def passBlanks (text : String) (c : Cursor) : Option Cursor := do
  let (_, c) ← takeRun text (.kind isBlank) () c
  some c

/-! ## 4. Weights and tags -/

def takeWeight (text : String) (c : Cursor) : Option (Option Float × Cursor) := do
  let c ← passBlanks text c
  let (colon, c) ← eat text ':' c
  if colon then
    let (number, c) ← takeRun text .number true c
    some (some (writtenWeight number), c)
  else some (none, c)

def takePlain (text : String) (c : Cursor) : Option (Option Token × Cursor) := do
  let (run, c) ← takeRun text (.kind (!isDelimiter ·)) () c
  let (weight?, c) ← takeWeight text c
  some (if (trimmed run).isEmpty then none
    else some (.plain (String.ofList (trimmed run)) (weight?.getD defaultWeight)), c)

end Cursor

/-! ## 5. Where the cursor stands -/

/-- What has to hold of all that is noted. The cursor is never inside of a character or past the
end, each turn of a loop goes on by some characters, and as many groups are counted as are being
read, no more than the most that may be open, before a value and after it. -/
def Event.Sound (text : String) : Event → Prop
  | stands pos => String.Pos.Raw.IsValid text ⟨pos⟩
  | turn start stop => ∃ front passed rest : String, text = front ++ passed ++ rest ∧
      passed ≠ "" ∧ start = front.utf8ByteSize ∧ stop = (front ++ passed).utf8ByteSize
  | group groups depth => depth = groups ∧ groups ≤ maxDepth
  | value groups before after => before = groups ∧ groups ≤ maxDepth ∧ after = before

namespace Cursor

/-- The cursor stands in front of the characters `rest` of the text, and all that it noted is
sound. -/
structure Stands (text : String) (c : Cursor) (rest : List Char) : Prop where
  splits : ∃ front : String, text = front ++ String.ofList rest ∧ c.pos = front.utf8ByteSize
  sound : ∀ e ∈ c.events, e.Sound text

/-- From one place the cursor got to another one further on, and as many groups are open. -/
structure Advances (text : String) (c c' : Cursor) (cs rest : List Char) : Prop where
  stands : Stands text c' rest
  suffix : rest <:+ cs
  depth_eq : c'.depth = c.depth

variable {text : String} {c c' c'' : Cursor} {cs rest rest' : List Char} {a : Char}

theorem Advances.refl (h : Stands text c cs) : Advances text c c cs cs :=
  ⟨h, List.suffix_refl cs, rfl⟩

theorem Advances.trans (h : Advances text c c' cs rest) (h' : Advances text c' c'' rest rest') :
    Advances text c c'' cs rest' :=
  ⟨h'.stands, h'.suffix.trans h.suffix, h'.depth_eq.trans h.depth_eq⟩

theorem stands_note {e : Event} (h : Stands text c cs) (he : e.Sound text) :
    Stands text (c.note e) cs :=
  ⟨h.splits, List.forall_mem_cons.mpr ⟨he, h.sound⟩⟩

theorem stands_start (text : String) : Stands text {} text.toList := by
  refine ⟨⟨"", ?_, rfl⟩, List.forall_mem_singleton.mpr ?_⟩
  · rw [String.empty_append, String.ofList_toList]
  · exact String.Pos.Raw.isValid_zero

/-- Between two places of the cursor stands what it passed over on the way from one to the other. -/
theorem exists_passed (h : Stands text c (cs ++ rest)) (h' : Stands text c' rest) :
    ∃ front : String, text = front ++ String.ofList cs ++ String.ofList rest ∧
      c.pos = front.utf8ByteSize ∧ c'.pos = (front ++ String.ofList cs).utf8ByteSize := by
  obtain ⟨front, htext, hpos⟩ := h.splits
  obtain ⟨front', htext', hpos'⟩ := h'.splits
  rw [String.ofList_append, ← String.append_assoc] at htext
  rw [htext, String.append_left_inj] at htext'
  exact ⟨front, htext, hpos, htext' ▸ hpos'⟩

theorem size_le_pos_iff (h : Stands text c cs) : text.utf8ByteSize ≤ c.pos ↔ cs = [] := by
  obtain ⟨front, htext, hpos⟩ := h.splits
  have hsize : (String.ofList cs).utf8ByteSize = 0 ↔ cs = [] :=
    String.utf8ByteSize_eq_zero_iff.trans String.ofList_eq_empty_iff
  rw [← hsize, htext, String.utf8ByteSize_append, hpos]
  omega

theorem Stands.lt_enoughTurns (h : Stands text c cs) : cs.length < enoughTurns text := by
  obtain ⟨front, htext, -⟩ := h.splits
  rw [enoughTurns, htext, String.length_append, String.length_ofList]
  omega

/-! ## 6. Looking and going on -/

theorem peek_eq (h : Stands text c cs) : peek text c = some cs.head? := by
  obtain ⟨front, htext, hpos⟩ := h.splits
  rw [peek, hpos, textBehind_eq htext, Option.map_some, String.toList_ofList]

theorem advances_moveTo (h : Stands text c (a :: cs)) :
    Advances text c (c.moveTo (c.pos + a.utf8Size)) (a :: cs) cs := by
  obtain ⟨⟨front, htext, hpos⟩, hsound⟩ := h
  rw [String.ofList_cons, ← String.append_assoc] at htext
  have hbehind : c.pos + a.utf8Size = (front ++ String.singleton a).utf8ByteSize := by
    rw [hpos, String.utf8ByteSize_append, String.utf8ByteSize_singleton]
  have hstands : Stands text (c.moveTo (c.pos + a.utf8Size)) cs := by
    refine ⟨⟨_, htext, hbehind⟩, List.forall_mem_cons.mpr ⟨?_, hsound⟩⟩
    exact String.Pos.Raw.isValid_iff_exists_append.mpr ⟨_, _, htext, String.Pos.Raw.ext hbehind⟩
  exact ⟨hstands, List.suffix_cons a cs, rfl⟩

theorem bump_eq (h : Stands text c (a :: cs)) :
    bump text c = some (c.moveTo (c.pos + a.utf8Size)) := by
  rw [bump, peek_eq h]
  rfl

theorem eat_eq (h : Stands text c (a :: cs)) :
    eat text a c = some (true, c.moveTo (c.pos + a.utf8Size)) := by
  rw [eat, peek_eq h]
  exact if_pos rfl

theorem eat_of_ne (h : Stands text c cs) (ha : cs.head? ≠ some a) :
    eat text a c = some (false, c) := by
  rw [eat, peek_eq h]
  exact if_neg ha

/-! ## 7. Passing over a run -/

theorem Rule.cut_append {σ : Type} (rule : Rule σ) (s : σ) (cs : List Char) :
    (rule.cut s cs).1 ++ (rule.cut s cs).2 = cs := by
  induction cs generalizing s with
  | nil => rfl
  | cons a cs ih =>
    rw [cut]
    cases rule s a with
    | some s' => exact congrArg (a :: ·) (ih s')
    | none => rfl

theorem Rule.cut_kind (p : Char → Bool) (cs : List Char) :
    (kind p).cut () cs = (cs.takeWhile p, cs.dropWhile p) := by
  induction cs with
  | nil => rfl
  | cons a cs ih =>
    rw [cut]
    cases ha : p a with
    | true =>
      have hnext : kind p () a = some () := if_pos ha
      rw [hnext, List.takeWhile_cons_of_pos ha, List.dropWhile_cons_of_pos ha]
      simp only [ih]
    | false =>
      have hnext : kind p () a = none := if_neg (Bool.not_eq_true _ ▸ ha)
      have hneg : ¬ p a = true := Bool.not_eq_true _ ▸ ha
      rw [hnext, List.takeWhile_cons_of_neg hneg, List.dropWhile_cons_of_neg hneg]

/-- Behind the point come digits only. -/
theorem Rule.cut_number_false (cs : List Char) :
    (number.cut false cs).1 = cs.takeWhile Char.isDigit := by
  induction cs with
  | nil => rfl
  | cons a cs ih =>
    rw [cut, number, List.takeWhile_cons]
    cases a.isDigit with
    | true => exact congrArg (a :: ·) ih
    | false => rfl

theorem Rule.cut_number (cs : List Char) :
    number.cut true cs = (numberText cs, cs.drop (numberText cs).length) := by
  have hrun : (number.cut true cs).1 = numberText cs := by
    induction cs with
    | nil => rfl
    | cons a cs ih =>
      rw [cut, number]
      by_cases hdigit : a.isDigit = true
      · rw [numberText_cons_digit hdigit, ← ih, if_pos hdigit]
      · rw [if_neg hdigit]
        by_cases hpoint : a = '.'
        · subst hpoint
          rw [numberText_point, ← cut_number_false]
          rfl
        · rw [numberText_cons_of_ne hdigit hpoint, if_neg (by simpa using hpoint)]
  have hcs := (cut_append number true cs).trans (numberText_append_drop cs).symm
  rw [hrun] at hcs
  exact Prod.ext hrun (List.append_cancel_left hcs)

variable {σ : Type}

theorem passRun_eq (h : Stands text c cs) (rule : Rule σ) (s : σ) {turns : Nat}
    (hturns : cs.length < turns) :
    ∃ c', passRun text rule turns s c = some c' ∧ Advances text c c' cs (rule.cut s cs).2 := by
  induction turns generalizing c cs s with
  | zero => exact absurd hturns (Nat.not_lt_zero _)
  | succ turns ih =>
    rw [passRun, peek_eq h]
    cases cs with
    | nil => exact ⟨c, rfl, .refl h⟩
    | cons a cs =>
      rw [Rule.cut]
      cases hnext : rule s a with
      | none => exact ⟨c, by simp [hnext], .refl h⟩
      | some s' =>
        have hmove := advances_moveTo h
        obtain ⟨c', hrun, hadvances⟩ := ih hmove.stands s' (Nat.lt_of_succ_lt_succ hturns)
        exact ⟨c', by simp [hnext, hrun], hmove.trans hadvances⟩

/-- **A run is given as it stands in the text, and the cursor is behind it.** -/
theorem takeRun_eq (h : Stands text c cs) (rule : Rule σ) (s : σ) :
    ∃ c', takeRun text rule s c = some ((rule.cut s cs).1, c') ∧
      Advances text c c' cs (rule.cut s cs).2 := by
  obtain ⟨c', hrun, hadvances⟩ := passRun_eq h rule s h.lt_enoughTurns
  have hcs := Rule.cut_append rule s cs
  rw [← hcs] at h
  obtain ⟨front, htext, hpos, hpos'⟩ := exists_passed h hadvances.stands
  refine ⟨c', ?_, hadvances⟩
  rw [takeRun, hrun, Option.bind_eq_bind, Option.bind_some, hpos, hpos', textBetween_eq htext,
    Option.bind_eq_bind, Option.bind_some, String.toList_ofList]

theorem passBlanks_eq (h : Stands text c cs) :
    ∃ c', passBlanks text c = some c' ∧ Advances text c c' cs (Text.skipBlanks cs) := by
  obtain ⟨c', hrun, hadvances⟩ := takeRun_eq h (.kind isBlank) ()
  rw [Rule.cut_kind] at hrun hadvances
  refine ⟨c', ?_, hadvances⟩
  rw [passBlanks, hrun]
  rfl

/-! ## 8. Passing over a weight or a tag -/

theorem takeWeight_eq (h : Stands text c cs) :
    ∃ c', takeWeight text c = some ((readWeight cs).value, c') ∧
      Advances text c c' cs (readWeight cs).rest := by
  obtain ⟨c₁, hblanks, hfirst⟩ := passBlanks_eq h
  rw [takeWeight, hblanks, Option.bind_eq_bind, Option.bind_some]
  by_cases hcolon : (Text.skipBlanks cs).head? = some ':'
  · obtain ⟨r, hr⟩ := List.head?_eq_some_iff.mp hcolon
    obtain ⟨hvalue, hrest⟩ := readWeight_of_colon hr
    rw [hr] at hfirst
    have hmove := advances_moveTo hfirst.stands
    obtain ⟨c', hrun, hnumber⟩ := takeRun_eq hmove.stands .number true
    rw [Rule.cut_number] at hrun hnumber
    refine ⟨c', ?_, ?_⟩
    · rw [eat_eq hfirst.stands, hvalue]
      simp [hrun]
    · rw [hrest]
      exact (hfirst.trans hmove).trans hnumber
  · obtain ⟨hvalue, hrest⟩ := readWeight_of_no_colon hcolon
    refine ⟨c₁, ?_, ?_⟩
    · rw [eat_of_ne hfirst.stands hcolon, hvalue]
      rfl
    · rw [hrest]
      exact hfirst

theorem takePlain_eq (h : Stands text c cs) :
    ∃ c', takePlain text c = some ((readPlain [] cs).value, c') ∧
      Advances text c c' cs (readPlain [] cs).rest := by
  obtain ⟨c₁, hrun, hfirst⟩ := takeRun_eq h (.kind (!isDelimiter ·)) ()
  rw [Rule.cut_kind] at hrun hfirst
  obtain ⟨c', hweight, hsecond⟩ := takeWeight_eq hfirst.stands
  refine ⟨c', ?_, hfirst.trans hsecond⟩
  simp only [takePlain, hrun, hweight, Option.bind_eq_bind, Option.bind_some, readPlain,
    List.nil_append]

end Cursor
end PromptTags.Prompt
