/-
JSON values that are written and read again.

What a value is read as follows its shape: lists and objects keep theirs, text comes back as it is,
and a number is what its digits stand for (`Value.reread`). A value ends where its last character
says so, except for a number, so behind each one there has to be something that a number does not go
on with; a comma, a bracket and a brace are such, and the end of the text is. The reader has more
steps than there are characters to read, and each step takes at least one of them
(`readValue_compactChars`).
-/
import PromptTags.Proofs.Json.Numbers
import PromptTags.Proofs.Json.Texts

set_option autoImplicit false

namespace PromptTags.Json

namespace Value

mutual
/-- What a value is read as after it was written. A number past the range of doubles was written as
null, and half a surrogate pair as no text. -/
def reread : Value → Value
  | null => null
  | bool b => bool b
  | number none => null
  | number (some n) => n.reread
  | text s? => text (some (s?.getD ""))
  | list vs => list (rereadItems vs)
  | object fs => object (rereadFields fs)

def rereadItems : List Value → List Value
  | [] => []
  | v :: vs => reread v :: rereadItems vs

def rereadFields : List (Option String × Value) → List (Option String × Value)
  | [] => []
  | (name, v) :: fs => (some (name.getD ""), reread v) :: rereadFields fs
end

theorem rereadItems_eq_map (vs : List Value) : rereadItems vs = vs.map reread := by
  induction vs with
  | nil => rfl
  | cons v vs ih => rw [rereadItems, ih, List.map_cons]

end Value

open Value (compactItems compactFields rereadItems rereadFields)

variable {r : List Char} {fuel : Nat}

/-! ## 1. How values start and end -/

theorem numberEnds_cons {c : Char} (hdigit : c.isDigit = false) (hc : c ∉ ['.', 'e', 'E']) :
    NumberEnds (c :: r) := by
  simp only [List.mem_cons, List.not_mem_nil, or_false, not_or] at hc
  refine ⟨⟨?_, by simp [hc]⟩, by simp [hc]⟩
  rintro d hd
  obtain rfl : c = d := by simpa using hd
  exact hdigit

theorem skipSpace_cons {c : Char} (h : isSpace c = false) : skipSpace (c :: r) = c :: r := by
  rw [skipSpace, List.dropWhile_cons_of_neg (by simp [h])]

theorem isSpace_of_isDigit {c : Char} (h : c.isDigit = true) : isSpace c = false := by
  simp only [isSpace, Bool.or_eq_false_iff, beq_eq_false_iff_ne]
  exact ⟨⟨⟨Decimal.ne_of_isDigit h (by decide), Decimal.ne_of_isDigit h (by decide)⟩,
    Decimal.ne_of_isDigit h (by decide)⟩, Decimal.ne_of_isDigit h (by decide)⟩

/-- No value starts with white or as if there were none. -/
theorem exists_compactChars_eq_cons (v : Value) :
    ∃ c cs, v.compactChars = c :: cs ∧ isSpace c = false ∧ c ≠ ']' := by
  cases v with
  | null => exact ⟨'n', _, rfl, by decide, by decide⟩
  | bool b => cases b <;> exact ⟨_, _, rfl, by decide, by decide⟩
  | number n? =>
    cases n? with
    | none => exact ⟨'n', _, rfl, by decide, by decide⟩
    | some n =>
      obtain ⟨c, cs, hcs, hc⟩ := exists_numberChars_eq_cons n
      refine ⟨c, cs, hcs, ?_⟩
      obtain rfl | hc := hc
      · exact ⟨by decide, by decide⟩
      · exact ⟨isSpace_of_isDigit hc, Decimal.ne_of_isDigit hc (by decide)⟩
  | text s? => exact ⟨'"', _, rfl, by decide, by decide⟩
  | list vs => exact ⟨'[', _, rfl, by decide, by decide⟩
  | object fs => exact ⟨'\x7b', _, rfl, by decide, by decide⟩

/-! ## 2. Reading -/

theorem readValue_number {c : Char} {cs : List Char} (hc : c = '-' ∨ c.isDigit = true) :
    readValue (fuel + 1) (c :: cs) = readNumber (c :: cs) := by
  obtain rfl | hc := hc
  · rfl
  · rw [readValue, skipSpace_cons (isSpace_of_isDigit hc)]
    split
    · next heq => exact absurd heq (Decimal.cons_ne_cons_of_isDigit hc (by decide))
    · next heq => exact absurd heq (Decimal.cons_ne_cons_of_isDigit hc (by decide))
    · next heq => exact absurd heq (Decimal.cons_ne_cons_of_isDigit hc (by decide))
    · next heq => exact absurd heq (Decimal.cons_ne_cons_of_isDigit hc (by decide))
    · next heq => exact absurd heq (Decimal.cons_ne_cons_of_isDigit hc (by decide))
    · next heq => exact absurd heq (Decimal.cons_ne_cons_of_isDigit hc (by decide))
    · rfl

theorem compactItems_cons_cons (v w : Value) (vs : List Value) :
    compactItems (v :: w :: vs) = v.compactChars ++ ',' :: compactItems (w :: vs) := by
  rw [compactItems]
  exact List.cons_ne_nil w vs

theorem compactFields_cons_cons (name name' : Option String) (v w : Value)
    (fs : List (Option String × Value)) :
    compactFields ((name, v) :: (name', w) :: fs) =
      nameChars name ++ ':' :: v.compactChars ++ ',' :: compactFields ((name', w) :: fs) := by
  rw [compactFields]
  exact List.cons_ne_nil _ fs

theorem exists_compactItems_eq_cons (v : Value) (vs : List Value) :
    ∃ c cs, compactItems (v :: vs) = c :: cs ∧ isSpace c = false ∧ c ≠ ']' := by
  obtain ⟨c, cs, hcs, hc⟩ := exists_compactChars_eq_cons v
  cases vs with
  | nil => exact ⟨c, cs, hcs, hc⟩
  | cons w vs => exact ⟨c, _, by rw [compactItems_cons_cons, hcs]; rfl, hc⟩

theorem readValue_list {c : Char} {cs : List Char} (hspace : isSpace c = false) (hc : c ≠ ']') :
    readValue (fuel + 1) ('[' :: c :: cs) =
      (readItems fuel (c :: cs)).map fun (vs, r) => (.list vs, r) := by
  rw [readValue, skipSpace_cons (by decide)]
  simp only [skipSpace_cons hspace]
  split
  · next heq => exact absurd (List.cons.inj heq).1 hc
  · rfl

theorem exists_compactFields_eq_append (name : Option String) (v : Value)
    (fs : List (Option String × Value)) :
    ∃ cs, compactFields ((name, v) :: fs) = nameChars name ++ cs := by
  cases fs with
  | nil => exact ⟨_, rfl⟩
  | cons f fs => exact ⟨_, by rw [compactFields_cons_cons, List.append_assoc]⟩

theorem readValue_object (name : Option String) (cs : List Char) :
    readValue (fuel + 1) ('\x7b' :: (nameChars name ++ cs)) =
      (readFields fuel (nameChars name ++ cs)).map fun (fs, r) => (.object fs, r) := by
  obtain ⟨ds, hds, -⟩ := readText_quoteText (name.getD "") cs
  rw [nameChars, hds]
  rfl

/-- The name of a field and the colon behind it. -/
theorem readFields_nameChars (name : Option String) (cs : List Char) :
    readFields (fuel + 1) (nameChars name ++ ':' :: cs) =
      match readValue fuel cs with
      | none => none
      | some (v, r) =>
        match skipSpace r with
        | ',' :: r => (readFields fuel r).map fun (fs, r) => ((some (name.getD ""), v) :: fs, r)
        | '\x7d' :: r => some ([(some (name.getD ""), v)], r)
        | _ => none := by
  obtain ⟨ds, hds, hread⟩ := readText_quoteText (name.getD "") (':' :: cs)
  rw [nameChars, hds, readFields, skipSpace_cons (by decide)]
  simp only [hread]
  rfl

mutual
/-- **A value is read as `reread` says** if a step is left for each of its characters. -/
theorem readValue_compactChars : ∀ (v : Value) (fuel : Nat) (r : List Char),
    v.compactChars.length < fuel → NumberEnds r →
      readValue fuel (v.compactChars ++ r) = some (v.reread, r)
  | v, 0, r, hfuel, _ => absurd hfuel (Nat.not_lt_zero _)
  | .null, fuel + 1, r, _, _ => rfl
  | .bool true, fuel + 1, r, _, _ => rfl
  | .bool false, fuel + 1, r, _, _ => rfl
  | .number none, fuel + 1, r, _, _ => rfl
  | .number (some n), fuel + 1, r, _, hr => by
    obtain ⟨c, cs, hcs, hc⟩ := exists_numberChars_eq_cons n
    have hread := readNumber_numberChars n hr
    rw [hcs] at hread
    rw [Value.compactChars, hcs]
    exact (readValue_number hc).trans hread
  | .text s?, fuel + 1, r, _, _ => by
    obtain ⟨cs, hcs, hread⟩ := readText_quoteText (s?.getD "") r
    rw [Value.compactChars, hcs]
    show (readText cs).map _ = _
    rw [hread]
    rfl
  | .list [], fuel + 1, r, _, _ => rfl
  | .list (v :: vs), fuel + 1, r, hfuel, _ => by
    rw [Value.compactChars] at hfuel ⊢
    simp only [List.length_append, List.length_cons, List.length_nil] at hfuel
    have hitems := readItems_compactItems v vs fuel r (by omega)
    obtain ⟨c, cs, hcs, hspace, hc⟩ := exists_compactItems_eq_cons v vs
    rw [hcs] at hitems ⊢
    simp only [List.cons_append, List.append_assoc, List.nil_append] at hitems ⊢
    rw [readValue_list hspace hc, hitems]
    rfl
  | .object [], fuel + 1, r, _, _ => rfl
  | .object ((name, v) :: fs), fuel + 1, r, hfuel, _ => by
    rw [Value.compactChars] at hfuel ⊢
    simp only [List.length_append, List.length_cons, List.length_nil] at hfuel
    have hfields := readFields_compactFields name v fs fuel r (by omega)
    obtain ⟨cs, hcs⟩ := exists_compactFields_eq_append name v fs
    rw [hcs] at hfields ⊢
    simp only [List.cons_append, List.append_assoc, List.nil_append] at hfields ⊢
    rw [readValue_object, hfields]
    rfl

/-- The items of a list, with the bracket behind them. -/
theorem readItems_compactItems : ∀ (v : Value) (vs : List Value) (fuel : Nat) (r : List Char),
    (compactItems (v :: vs)).length + 1 < fuel →
      readItems fuel (compactItems (v :: vs) ++ ']' :: r) = some (rereadItems (v :: vs), r)
  | v, vs, 0, r, hfuel => absurd hfuel (Nat.not_lt_zero _)
  | v, [], fuel + 1, r, hfuel => by
    rw [compactItems] at hfuel ⊢
    have hv := readValue_compactChars v fuel (']' :: r) (by omega)
      (numberEnds_cons (by decide) (by decide))
    rw [readItems, hv]
    rfl
  | v, w :: vs, fuel + 1, r, hfuel => by
    rw [compactItems_cons_cons] at hfuel ⊢
    simp only [List.length_append, List.length_cons] at hfuel
    have hv := readValue_compactChars v fuel (',' :: (compactItems (w :: vs) ++ ']' :: r))
      (by omega) (numberEnds_cons (by decide) (by decide))
    have hvs := readItems_compactItems w vs fuel r (by omega)
    rw [List.append_assoc, List.cons_append, readItems, hv]
    simp only [skipSpace_cons (show isSpace ',' = false by decide), hvs]
    rfl

/-- The fields of an object, with the brace behind them. -/
theorem readFields_compactFields : ∀ (name : Option String) (v : Value)
    (fs : List (Option String × Value)) (fuel : Nat) (r : List Char),
    (compactFields ((name, v) :: fs)).length + 1 < fuel →
      readFields fuel (compactFields ((name, v) :: fs) ++ '\x7d' :: r) =
        some (rereadFields ((name, v) :: fs), r)
  | name, v, fs, 0, r, hfuel => absurd hfuel (Nat.not_lt_zero _)
  | name, v, [], fuel + 1, r, hfuel => by
    rw [compactFields] at hfuel ⊢
    simp only [List.length_append, List.length_cons] at hfuel
    have hv := readValue_compactChars v fuel ('\x7d' :: r) (by omega)
      (numberEnds_cons (by decide) (by decide))
    rw [List.append_assoc, List.cons_append, readFields_nameChars, hv]
    rfl
  | name, v, (name', w) :: fs, fuel + 1, r, hfuel => by
    rw [compactFields_cons_cons] at hfuel ⊢
    simp only [List.length_append, List.length_cons] at hfuel
    have hv := readValue_compactChars v fuel
      (',' :: (compactFields ((name', w) :: fs) ++ '\x7d' :: r)) (by omega)
      (numberEnds_cons (by decide) (by decide))
    have hfs := readFields_compactFields name' w fs fuel r (by omega)
    simp only [List.append_assoc, List.cons_append]
    rw [readFields_nameChars, hv]
    simp only [skipSpace_cons (show isSpace ',' = false by decide), hfs]
    rfl
end

/-- **What is read from the compact text of a value.** -/
theorem read?_compact (v : Value) : read? v.compact = some v.reread := by
  have hread := readValue_compactChars v (2 * v.compactChars.length + 2) [] (by omega)
    ⟨⟨nofun, by simp⟩, by simp⟩
  rw [List.append_nil] at hread
  rw [read?, Value.compact, String.toList_ofList, hread]
  rfl

end PromptTags.Json
