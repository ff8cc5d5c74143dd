/-
Lines of a TOML document.

A document is read line by line, and a line with a statement is read for itself
(`readStatements_line`). Text and whole numbers are read back as values where they stand at the end
of a line, and so is a line with a key and such a value (`readStatement_pair`).
-/
import PromptTags.Proofs.Toml.Integers
import PromptTags.Proofs.Toml.Texts
import PromptTags.Toml.Reader

set_option autoImplicit false

namespace PromptTags.Toml

variable {cs r : List Char} {s : Statement} {fuel : Nat}

/-- A line that starts with a bracket or with a letter holds a statement. -/
theorem readStatements_line {c : Char} (hhead : cs.head? = some c)
    (hc : c = '[' ∨ isKeyChar c = true) (h : readStatement cs = some (s, r)) :
    readStatements (fuel + 1) cs = (readStatements fuel r).map (s :: ·) := by
  obtain ⟨cs, rfl⟩ := List.head?_eq_some_iff.mp hhead
  have hwhite : isWhite c = false := by
    rcases hc with rfl | hc
    · rfl
    · cases hw : isWhite c with
      | false => rfl
      | true =>
        simp only [isWhite, Bool.or_eq_true, beq_iff_eq] at hw
        rcases hw with rfl | rfl <;> exact absurd hc (by decide)
  have hstart : (c == '#' || c == '\n' || c == '\r') = false := by
    rcases hc with rfl | hc
    · rfl
    · cases hs : c == '#' || c == '\n' || c == '\r' with
      | false => rfl
      | true =>
        simp only [Bool.or_eq_true, beq_iff_eq] at hs
        rcases hs with (rfl | rfl) | rfl <;> exact absurd hc (by decide)
  rw [readStatements, skipWhite, List.dropWhile_cons_of_neg (by simp [hwhite])]
  simp only [hstart, h, Bool.false_eq_true, if_false]

theorem readStatements_empty_line (r : List Char) :
    readStatements (fuel + 1) ('\n' :: r) = readStatements fuel r := rfl

theorem exists_textChars_eq_cons (s : String) :
    ∃ q cs, textChars s = q :: cs ∧ (q = '"' ∨ q = '\'') := by
  unfold textChars
  cases TextForm.of s.toList with
  | basic => exact ⟨'"', _, rfl, Or.inl rfl⟩
  | literal => exact ⟨'\'', _, rfl, Or.inr rfl⟩
  | basicLines => exact ⟨'"', _, rfl, Or.inl rfl⟩
  | literalLines => exact ⟨'\'', _, rfl, Or.inr rfl⟩

theorem readValue_textChars (room : Nat) (text : String) (r : List Char) :
    readValue (fuel + 1) room (textChars text ++ '\n' :: r) = some (.text text, '\n' :: r) := by
  have hread := @readText_textChars ('\n' :: r) text (by simp) (by simp)
  obtain ⟨q, cs, hcs, hq⟩ := exists_textChars_eq_cons text
  rw [hcs] at hread ⊢
  have hvalue : readValue (fuel + 1) room (q :: cs ++ '\n' :: r) =
      (readText (q :: cs ++ '\n' :: r)).map fun p => (.text (String.ofList p.1), p.2) := by
    rcases hq with rfl | rfl <;> rfl
  rw [hvalue, hread, Option.map_some]
  simp only [String.ofList_toList]

theorem readValue_digits {n : Nat} (h : n ≤ greatestInteger) (room : Nat) (r : List Char) :
    readValue (fuel + 1) room (Decimal.digits n ++ '\n' :: r) = some (.integer n, '\n' :: r) := by
  have hread := readScalar_digits h r
  obtain ⟨d, ds, hds, hd⟩ := Decimal.exists_digits_eq_cons n
  rw [hds] at hread ⊢
  rw [List.cons_append] at hread ⊢
  rw [readValue.eq_def]
  dsimp only
  split
  · next heq => exact absurd heq (Decimal.cons_ne_cons_of_isDigit hd (by decide))
  · next heq => exact absurd heq (Decimal.cons_ne_cons_of_isDigit hd (by decide))
  · next heq =>
    obtain ⟨rfl, rfl⟩ := List.cons.inj heq
    have hquote : (d == '"' || d == '\'') = false := by
      simp [Decimal.ne_of_isDigit hd (by decide : ('"').isDigit = false),
        Decimal.ne_of_isDigit hd (by decide : ('\'').isDigit = false)]
    rw [hquote, if_neg Bool.false_ne_true, hread]
  · next heq => cases heq

/-- A line with a key, an equals sign between spaces, and a value. -/
theorem readStatement_pair {key : List String} {d : Char} {v : Value} {value : List Char}
    (hhead : cs.head? ≠ some '[') (hkey : readKey cs = some (key, '=' :: ' ' :: value))
    (hfirst : value.head? = some d) (hd : isWhite d = false)
    (hvalue : ∀ fuel room, readValue (fuel + 1) room value = some (v, '\n' :: r)) :
    readStatement cs = some (.pair key v, r) := by
  obtain ⟨behind, rfl⟩ := List.head?_eq_some_iff.mp hfirst
  have hskip : skipWhite (' ' :: d :: behind) = d :: behind := by
    rw [skipWhite, List.dropWhile_cons_of_pos (by rfl), List.dropWhile_cons_of_neg (by simp [hd])]
  have hpair : readPair cs = some (.pair key v, '\n' :: r) := by
    simp only [readPair, hkey, hskip, hvalue, Option.map_some]
  unfold readStatement
  split
  · exact absurd rfl hhead
  · rw [hpair]
    rfl

end PromptTags.Toml
