/-
Blanks: the characters that may stand around a tag name without being part of it.

The class is Unicode's White_Space property, so the wide space of East Asian text counts and the
zero-width ones do not. `trimmed` takes blanks off both ends, and `skipBlanks` off the front; both
are stated over lists of characters, because the prompt reader works on those.
-/
import PromptTags.Text.Ranges

set_option autoImplicit false

namespace PromptTags.Text

/-- Code points with the property White_Space. -/
def blankRanges : List (Nat × Nat) := [
  (0x09, 0x0D), (0x20, 0x20), (0x85, 0x85), (0xA0, 0xA0), (0x1680, 0x1680), (0x2000, 0x200A),
  (0x2028, 0x2029), (0x202F, 0x202F), (0x205F, 0x205F), (0x3000, 0x3000)]

/-- Whether a character is a blank. -/
def isBlank (c : Char) : Bool := covers blankRanges c

def skipBlanks (cs : List Char) : List Char := cs.dropWhile isBlank

def trimmed (cs : List Char) : List Char :=
  (skipBlanks (skipBlanks cs).reverse).reverse

def trim (s : String) : String := String.ofList (trimmed s.toList)

theorem skipBlanks_nil : skipBlanks [] = [] := rfl

theorem skipBlanks_length_le (cs : List Char) : (skipBlanks cs).length ≤ cs.length :=
  (List.dropWhile_suffix isBlank).length_le

/-- What is left after the blanks starts with a character that is none. -/
theorem not_isBlank_of_skipBlanks_eq_cons {cs r : List Char} {c : Char}
    (h : skipBlanks cs = c :: r) : isBlank c = false := by
  induction cs with
  | nil => simp [skipBlanks] at h
  | cons a l ih =>
    by_cases ha : isBlank a = true
    · exact ih (by simpa [skipBlanks, List.dropWhile_cons, ha] using h)
    · simp only [skipBlanks, List.dropWhile_cons, ha, if_false, Bool.false_eq_true] at h
      obtain ⟨rfl, rfl⟩ := List.cons.inj h
      simpa using ha

theorem trimmed_nil : trimmed [] = [] := rfl

end PromptTags.Text
