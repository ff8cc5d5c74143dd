/-
Writing tags back into prompt text.

Written text is flat: groups are not rebuilt, and every tag carries its own weight. A tag whose
weight is exactly 1.0 is its bare name; any other weight follows a colon with two decimal places.
Nothing in a name is escaped, so a name that holds a delimiter does not read back as one tag.
-/
import PromptTags.Decimal.Fixed
import PromptTags.Prompt.Token

set_option autoImplicit false

namespace PromptTags

def weightPlaces : Nat := 2

/-- A tag as it stands in prompt text. -/
def Tag.text (t : Tag) : String :=
  if t.weight == defaultWeight then t.name
  else t.name ++ ":" ++ Decimal.fixed weightPlaces t.weight

namespace Prompt

def serialize (tags : List Tag) : String := ", ".intercalate (tags.map Tag.text)

theorem serialize_nil : serialize [] = "" := rfl

theorem serialize_singleton (t : Tag) : serialize [t] = t.text := rfl

theorem serialize_cons_cons (t u : Tag) (ts : List Tag) :
    serialize (t :: u :: ts) = t.text ++ ", " ++ serialize (u :: ts) := by
  rw [serialize, List.map_cons, List.map_cons, String.intercalate_cons_cons]
  rfl

end Prompt

end PromptTags
