/-
Moves that can be asked for in one word.

The grammar of a move cuts at two colons and trims, and the grammar of a prompt never lets a colon
into a name or a blank to its ends. So a name of a prompt stands in a move as it is, with any blanks
around it, whatever else is in it. What is read as a move is said from both sides at once
(`ofText_eq_ok_iff`): the first two colons are found again, since neither the name nor the word for
the side holds one.
-/
import PromptTags.CommandLine.Move
import PromptTags.Proofs.Selection.Moving
import PromptTags.Proofs.Selection.Rereading
import PromptTags.Proofs.Text.Cutting

set_option autoImplicit false

namespace PromptTags

open Text

/-! ## 1. Blanks around a text -/

/-- A text with nothing but blanks around it. -/
def Padded (core text : String) : Prop :=
  ∃ v w : String, AllBlank v.toList ∧ AllBlank w.toList ∧ text = v ++ core ++ w

theorem trim_of_padded {core text : String} (hcore : trim core = core) (h : Padded core text) :
    trim text = core := by
  obtain ⟨v, w, hv, hw, rfl⟩ := h
  rw [trim, String.toList_append, String.toList_append, trimmed_append_right hw,
    trimmed_append_left hv]
  exact hcore

theorem padded_trim (text : String) : Padded (trim text) text := by
  obtain ⟨v, w, hv, hw, htext⟩ := exists_trimmed text.toList
  refine ⟨String.ofList v, String.ofList w, ?_, ?_, ?_⟩
  · rw [String.toList_ofList]
    exact hv
  · rw [String.toList_ofList]
    exact hw
  · apply String.toList_injective
    simp only [trim, String.toList_append, String.toList_ofList, List.append_assoc]
    exact htext

/-- Blanks around a text bring no other character into it. -/
theorem not_mem_of_padded {core text : String} {c : Char} (hc : isBlank c = false)
    (hcore : c ∉ core.toList) (h : Padded core text) : c ∉ text.toList := by
  obtain ⟨v, w, hv, hw, rfl⟩ := h
  simp only [String.toList_append, List.mem_append, not_or]
  refine ⟨⟨fun hmem => ?_, hcore⟩, fun hmem => ?_⟩
  · exact absurd (hv c hmem) (by rw [hc]; exact Bool.false_ne_true)
  · exact absurd (hw c hmem) (by rw [hc]; exact Bool.false_ne_true)

/-! ## 2. What is read as a move -/

/-- The word for a side. -/
def Placement.word : Placement → String
  | before _ => "before"
  | after _ => "after"

theorem Placement.trim_word (place : Placement) : trim place.word = place.word := by
  cases place with
  | before _ => exact (by decide : trim "before" = "before")
  | after _ => exact (by decide : trim "after" = "after")

theorem Placement.colon_not_mem_word (place : Placement) : ':' ∉ place.word.toList := by
  cases place with
  | before _ => exact (by decide : ':' ∉ "before".toList)
  | after _ => exact (by decide : ':' ∉ "after".toList)

namespace Move

theorem parts?_eq_some_iff {text name side target : String} :
    parts? text = some (name, side, target) ↔
      ':' ∉ name.toList ∧ ':' ∉ side.toList ∧ text = name ++ ":" ++ side ++ ":" ++ target := by
  have htext : text = name ++ ":" ++ side ++ ":" ++ target ↔
      text.toList = name.toList ++ ':' :: (side.toList ++ ':' :: target.toList) := by
    rw [← String.toList_inj]
    simp
  rw [htext]
  constructor
  · intro h
    unfold parts? at h
    split at h
    · cases h
    next front rest hfirst =>
      split at h
      · cases h
      next middle last hsecond =>
        obtain ⟨hfront, hcs⟩ := cutFirst_eq_some_iff.mp hfirst
        obtain ⟨hmiddle, hrest⟩ := cutFirst_eq_some_iff.mp hsecond
        obtain ⟨rfl, rfl, rfl⟩ : String.ofList front = name ∧ String.ofList middle = side ∧
            String.ofList last = target := by simpa using h
        simp only [String.toList_ofList]
        exact ⟨hfront, hmiddle, by rw [hcs, hrest]⟩
  · rintro ⟨hname, hside, hcs⟩
    have hfirst := cutFirst_eq_some_iff.mpr ⟨hname, hcs⟩
    have hsecond := cutFirst_eq_some_iff.mpr
      ⟨hside, (rfl : side.toList ++ ':' :: target.toList = _)⟩
    simp only [parts?, hfirst, hsecond, String.ofList_toList]

theorem placement?_eq_some_iff {side target : String} {place : Placement} :
    placement? side target = some place ↔ side = place.word ∧ place.target = target := by
  unfold placement?
  split_ifs with hbefore hafter
  · cases place <;> simp [Placement.word, Placement.target, hbefore, eq_comm]
  · cases place <;> simp [Placement.word, Placement.target, hafter, eq_comm]
  · cases place <;> simp [Placement.word, hbefore, hafter]

/-- **What is read as a move, and as which one.** -/
theorem ofText_eq_ok_iff {text : String} {m : Move} :
    ofText text = .ok m ↔ ∃ name side target, text = name ++ ":" ++ side ++ ":" ++ target ∧
      ':' ∉ name.toList ∧ Padded m.placement.word side ∧
      trim name ≠ "" ∧ trim target ≠ "" ∧
      m.name = trim name ∧ m.placement.target = trim target := by
  constructor
  · intro h
    unfold ofText at h
    split at h
    · cases h
    next name side target hparts =>
      split at h
      · cases h
      next hblank =>
        split at h
        next place hplace =>
          obtain rfl := Except.ok.inj h
          obtain ⟨hname, -, htext⟩ := parts?_eq_some_iff.mp hparts
          obtain ⟨hword, htarget⟩ := placement?_eq_some_iff.mp hplace
          simp only [Bool.or_eq_true, String.isEmpty_iff, not_or] at hblank
          refine ⟨name, side, target, htext, hname, ?_, hblank.1, hblank.2, rfl, htarget⟩
          rw [← hword]
          exact padded_trim side
        · cases h
  · rintro ⟨name, side, target, htext, hname, hside, hnameBlank, htargetBlank, hm, htarget⟩
    have hcolon : ':' ∉ side.toList :=
      not_mem_of_padded (by decide) m.placement.colon_not_mem_word hside
    have hword : trim side = m.placement.word := trim_of_padded m.placement.trim_word hside
    have hplace : placement? (trim side) (trim target) = some m.placement :=
      placement?_eq_some_iff.mpr ⟨hword, htarget⟩
    have hblank : ¬ ((trim name).isEmpty || (trim target).isEmpty) = true := by
      simp only [Bool.or_eq_true, String.isEmpty_iff, not_or]
      exact ⟨hnameBlank, htargetBlank⟩
    simp only [ofText, parts?_eq_some_iff.mpr ⟨hname, hcolon, htext⟩]
    rw [if_neg hblank, hplace, ← hm]

end Move

/-! ## 3. Moves within a prompt -/

namespace Selection

variable {s : Selection}

theorem mem_names_ofText {text name : String} (h : name ∈ (ofText text).names) :
    Prompt.IsPlain name.toList := by
  obtain ⟨e, he, rfl⟩ := List.mem_map.mp h
  exact (readable_ofText text e.tag (List.mem_map_of_mem he)).plain

theorem name_of_find? {name : String} {e : Entry} (h : s.find? name = some e) :
    e.name = trim name :=
  eq_of_beq (List.find?_some h :)

/-- In a selection every name can be moved next to every other one. -/
theorem reorder_of_mem (hs : s.WellFormed) {name : String} {place : Placement}
    (hname : name ∈ s.names) (htarget : place.target ∈ s.names) (hne : name ≠ place.target) :
    ∃ e target, e.name = name ∧ target.name = place.target ∧ (s.reorder name place).1 = true ∧
      MovesNextTo place e target s.entries (s.reorder name place).2.entries := by
  have htrim := (hs.keys name hname).trim_eq
  have htrimTarget := (hs.keys place.target htarget).trim_eq
  obtain ⟨hiff, hmoves, -⟩ := reorder_moves_next_to s name place
  rw [contains_iff, contains_iff, htrim, htrimTarget] at hiff
  have hdone := hiff.mpr ⟨hne, hname, htarget⟩
  obtain ⟨_, _, e, target, -, -, -, -, -, he, ht, hnext⟩ := hmoves hdone
  exact ⟨e, target, (name_of_find? he).trans htrim, (name_of_find? ht).trans htrimTarget, hdone,
    hnext⟩

end Selection

/-- **Every move within a prompt can be asked for, and nothing else is read as a move.** Let two
different names be read from a text. With any blanks around the name, around the word for a side and
around the target, the three with colons between them are read as the move of the name to that side
of the target, and the move is carried out: the entry of the name stands right before or behind that
of the target, and all others are in their old order. The other way round, a text that is read as a
move is a name that is not blank and has no colon, a colon, a side with blanks around it, a colon,
and a rest that is not blank. What is read is that name and that rest, both trimmed, and that side.
-/
theorem moves_within_a_prompt :
    (∀ (text name : String) (place : Placement), name ∈ (Selection.ofText text).names →
      place.target ∈ (Selection.ofText text).names → name ≠ place.target →
      ∀ paddedName paddedSide paddedTarget : String, Padded name paddedName →
        Padded place.word paddedSide → Padded place.target paddedTarget →
        Move.ofText (paddedName ++ ":" ++ paddedSide ++ ":" ++ paddedTarget) = .ok ⟨name, place⟩ ∧
        ∃ e target, e.name = name ∧ target.name = place.target ∧
          ((Selection.ofText text).reorder name place).1 = true ∧
          Selection.MovesNextTo place e target (Selection.ofText text).entries
            ((Selection.ofText text).reorder name place).2.entries) ∧
    ∀ (text : String) (m : Move), Move.ofText text = .ok m →
      ∃ name side target : String, text = name ++ ":" ++ side ++ ":" ++ target ∧
        ':' ∉ name.toList ∧ trim name ≠ "" ∧ Padded m.placement.word side ∧ trim target ≠ "" ∧
        m.name = trim name ∧ m.placement.target = trim target := by
  constructor
  · intro text name place hname htarget hne paddedName paddedSide paddedTarget hpadName hpadSide
      hpadTarget
    have hs := Selection.wellFormed_ofText text
    refine ⟨Move.ofText_eq_ok_iff.mpr ?_, Selection.reorder_of_mem hs hname htarget hne⟩
    obtain ⟨hnameNe, hnameTrim⟩ := hs.keys name hname
    obtain ⟨htargetNe, htargetTrim⟩ := hs.keys place.target htarget
    have hread := trim_of_padded hnameTrim hpadName
    have hreadTarget := trim_of_padded htargetTrim hpadTarget
    have hcolon : ':' ∉ name.toList := fun hmem =>
      absurd ((Selection.mem_names_ofText hname).noDelimiter ':' hmem) (by decide)
    refine ⟨paddedName, paddedSide, paddedTarget, rfl, not_mem_of_padded (by decide) hcolon hpadName,
      hpadSide, ?_, ?_, hread.symm, hreadTarget.symm⟩
    · rw [hread]
      exact hnameNe
    · rw [hreadTarget]
      exact htargetNe
  · intro text m h
    obtain ⟨name, side, target, htext, hname, hside, hblank, htargetBlank, hm, htarget⟩ :=
      Move.ofText_eq_ok_iff.mp h
    exact ⟨name, side, target, htext, hname, hblank, hside, htargetBlank, hm, htarget⟩

/-- A name that is the word for a side, and a target with a line break in it, which stands in front
of it before the move. -/
theorem moves_within_a_prompt_line_break :
    let s := Selection.ofText "two\nlines, before"
    s.names = ["two\nlines", "before"] ∧
      Move.ofText " before:before :\ttwo\nlines" = .ok ⟨"before", .before "two\nlines"⟩ ∧
      (s.reorder "before" (.before "two\nlines")).1 = true := by
  intro s
  have hnames : s.names = ["two\nlines", "before"] := by decide +kernel
  have hname : "before" ∈ s.names := by
    rw [hnames]
    decide
  have htarget : (Placement.before "two\nlines").target ∈ s.names := by
    rw [hnames]
    decide
  obtain ⟨hmove, _, _, -, -, hdone, -⟩ := moves_within_a_prompt.1 _ "before" (.before "two\nlines")
    hname htarget (by decide) " before" "before " "\ttwo\nlines" ⟨" ", "", by decide, by decide, rfl⟩
    ⟨"", " ", by decide, by decide, rfl⟩ ⟨"\t", "", by decide, by decide, rfl⟩
  exact ⟨hnames, hmove, hdone⟩

end PromptTags
