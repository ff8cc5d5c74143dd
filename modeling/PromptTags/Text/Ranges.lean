/-
Sets of characters given by ranges of code points.

A Unicode property is data: a list of first and last code points in ascending order. `covers` asks
whether a character is in one of the ranges, and is all that the other text modules need of a
property.
-/

set_option autoImplicit false

namespace PromptTags.Text

/-- Whether a character lies in one of the ranges, both ends included. -/
def covers (ranges : List (Nat × Nat)) (c : Char) : Bool :=
  ranges.any fun r => decide (r.1 ≤ c.toNat) && decide (c.toNat ≤ r.2)

theorem covers_nil (c : Char) : covers [] c = false := rfl

theorem covers_append (rs ss : List (Nat × Nat)) (c : Char) :
    covers (rs ++ ss) c = (covers rs c || covers ss c) := by
  simp only [covers, List.any_append]

end PromptTags.Text
