/-
Whether one text occurs within another.
-/

set_option autoImplicit false

namespace PromptTags.Text

/-- Whether the characters of `part` stand next to each other somewhere in `cs`. -/
def occursIn (part : List Char) : (cs : List Char) → Bool
  | [] => part.isEmpty
  | c :: cs => part.isPrefixOf (c :: cs) || occursIn part cs

theorem occursIn_iff {part cs : List Char} : occursIn part cs = true ↔ part <:+: cs := by
  induction cs with
  | nil => simp [occursIn]
  | cons c cs ih =>
    rw [occursIn, Bool.or_eq_true, List.isPrefixOf_iff_prefix, ih, List.infix_cons_iff]

end PromptTags.Text
