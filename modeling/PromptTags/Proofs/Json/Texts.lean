/-
Text that is written in JSON and read again.

A character stands in quoted text for itself, behind a backslash, or as a code unit by its number.
The reader takes it as one piece in each case (`readPieces_quoteChar`), and a piece that a character
was written as is joined to no other one: only control characters are written by their number, and
these are no halves of surrogate pairs (`joinPieces_pieceOf`). So quoted text is read as the text
that it was made from (`readText_quoteText`).
-/
import Mathlib.Tactic.IntervalCases
import Mathlib.Tactic.SplitIfs
import PromptTags.Json.Reader
import PromptTags.Json.Writer

set_option autoImplicit false

namespace PromptTags.Json

/-! ## 1. One character -/

/-- The characters that have a letter of their own behind a backslash. -/
def hasLetter (c : Char) : Bool :=
  c == '"' || c == '\\' || c == '\x08' || c == '\x0c' || c == '\n' || c == '\r' || c == '\t'

/-- The piece of quoted text that a character is written as. -/
def pieceOf (c : Char) : Piece := if c < ' ' && !hasLetter c then .unit c.toNat else .char c

theorem lt_space_iff (c : Char) : c < ' ' ↔ c.toNat < 32 := Iff.rfl

theorem readPieces_controlEscape {n : Nat} (h : n < 32) (r : List Char) :
    readPieces ('\\' :: 'u' :: (Nat.toDigits 16 n).leftpad 4 '0' ++ r) =
      (readPieces r).map fun (ps, r) => (.unit n :: ps, r) := by
  interval_cases n <;> rfl

theorem quoteChar_of_not_hasLetter {c : Char} (h : hasLetter c = false) :
    quoteChar c = if c < ' ' then controlEscape c else [c] := by
  simp only [hasLetter, Bool.or_eq_false_iff, beq_eq_false_iff_ne] at h
  obtain ⟨⟨⟨⟨⟨⟨hquote, hbackslash⟩, hb⟩, hf⟩, hn⟩, hr⟩, ht⟩ := h
  rw [quoteChar, if_neg hquote, if_neg hbackslash, if_neg hb, if_neg hf, if_neg hn, if_neg hr,
    if_neg ht]

theorem readPieces_quoteChar (c : Char) (r : List Char) :
    readPieces (quoteChar c ++ r) = (readPieces r).map fun (ps, r) => (pieceOf c :: ps, r) := by
  cases hletter : hasLetter c with
  | true =>
    simp only [hasLetter, Bool.or_eq_true, beq_iff_eq] at hletter
    obtain (((((rfl | rfl) | rfl) | rfl) | rfl) | rfl) | rfl := hletter <;> rfl
  | false =>
    rw [quoteChar_of_not_hasLetter hletter, pieceOf, hletter, Bool.not_false, Bool.and_true]
    simp only [decide_eq_true_eq]
    split_ifs with hcontrol
    · exact readPieces_controlEscape hcontrol r
    · simp only [hasLetter, Bool.or_eq_false_iff, beq_eq_false_iff_ne] at hletter
      obtain ⟨⟨⟨⟨⟨⟨hquote, hbackslash⟩, -⟩, -⟩, -⟩, -⟩, -⟩ := hletter
      have hplain : (c < ' ' || c == '\\') = false := by simp [hcontrol, hbackslash]
      rw [List.singleton_append, readPieces, hplain, if_neg Bool.false_ne_true]
      · exact hquote
      · exact fun _ _ _ _ _ h => absurd h hbackslash
      · exact fun _ _ h => absurd h hbackslash

/-! ## 2. Characters in a row -/

/-- A code unit that stands for a character alone, whatever piece comes behind it. -/
theorem joinPieces_unit {n : Nat} (h : n < 0xD800) (ps : List Piece) :
    joinPieces (.unit n :: ps) = (joinPieces ps).map (Char.ofNat n :: ·) := by
  have hhigh : isHighHalf n = false := by simp [isHighHalf]; omega
  have hlow : isLowHalf n = false := by simp [isLowHalf]; omega
  rcases ps with _ | ⟨_ | m, ps⟩ <;> simp [joinPieces, hhigh, hlow]

theorem joinPieces_pieceOf (c : Char) (ps : List Piece) :
    joinPieces (pieceOf c :: ps) = (joinPieces ps).map (c :: ·) := by
  unfold pieceOf
  split_ifs with h
  · rw [Bool.and_eq_true, decide_eq_true_eq, lt_space_iff] at h
    rw [joinPieces_unit (by omega), Char.ofNat_toNat]
  · rw [joinPieces]

theorem readPieces_flatMap_quoteChar (cs r : List Char) :
    readPieces (cs.flatMap quoteChar ++ '"' :: r) = some (cs.map pieceOf, r) := by
  induction cs with
  | nil => rfl
  | cons c cs ih => rw [List.flatMap_cons, List.append_assoc, readPieces_quoteChar, ih]; rfl

theorem joinPieces_map_pieceOf (cs : List Char) : joinPieces (cs.map pieceOf) = some cs := by
  induction cs with
  | nil => rfl
  | cons c cs ih => rw [List.map_cons, joinPieces_pieceOf, ih]; rfl

/-- **Quoted text is read as the text that it was made from**, behind its opening quote. -/
theorem readText_quoteText (s : String) (r : List Char) :
    ∃ cs, quoteText s ++ r = '"' :: cs ∧ readText cs = some (some s, r) := by
  refine ⟨s.toList.flatMap quoteChar ++ '"' :: r, by simp [quoteText], ?_⟩
  rw [readText, readPieces_flatMap_quoteChar]
  simp only [Option.map_some, joinPieces_map_pieceOf, String.ofList_toList]

end PromptTags.Json
