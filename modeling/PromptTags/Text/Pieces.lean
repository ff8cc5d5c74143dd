/-
Cutting text at a separator.

There is always one piece more than there are separators, so a text without the separator is one
piece, and pieces at the ends or between two separators can be empty. Putting the pieces together
again, with a separator between each two, gives the text.
-/

set_option autoImplicit false

namespace PromptTags.Text

/-- Adds a character to the front of the first piece. -/
def extendFirst (c : Char) : List (List Char) → List (List Char)
  | [] => [[c]]
  | p :: ps => (c :: p) :: ps

/-- The pieces between the separators. -/
def pieces (sep : Char) : List Char → List (List Char)
  | [] => [[]]
  | c :: cs => if c = sep then [] :: pieces sep cs else extendFirst c (pieces sep cs)

/-- A text cut at its first separator; the second part is absent when there is none. -/
def cutFirst (sep : Char) : List Char → List Char × Option (List Char)
  | [] => ([], none)
  | c :: cs =>
    if c = sep then ([], some cs)
    else ((c :: (cutFirst sep cs).1), (cutFirst sep cs).2)

theorem pieces_nil (sep : Char) : pieces sep [] = [[]] := rfl

theorem pieces_ne_nil (sep : Char) (cs : List Char) : pieces sep cs ≠ [] := by
  cases cs with
  | nil => simp [pieces]
  | cons c cs =>
    rw [pieces]
    split
    · simp
    · cases pieces sep cs <;> simp [extendFirst]

/-- The pieces of a text, with the separator put back between them, are the text. -/
theorem intercalate_pieces (sep : Char) (cs : List Char) :
    [sep].intercalate (pieces sep cs) = cs := by
  induction cs with
  | nil => simp [pieces, List.intercalate]
  | cons c cs ih =>
    rw [pieces]
    have hne := pieces_ne_nil sep cs
    split
    · next h =>
      cases hp : pieces sep cs with
      | nil => exact absurd hp hne
      | cons p ps => rw [hp] at ih; subst h; simpa [List.intercalate] using ih
    · cases hp : pieces sep cs with
      | nil => exact absurd hp hne
      | cons p ps =>
        rw [hp] at ih
        cases ps with
        | nil => simpa [List.intercalate, extendFirst] using ih
        | cons q qs => simpa [List.intercalate, extendFirst] using ih

end PromptTags.Text
