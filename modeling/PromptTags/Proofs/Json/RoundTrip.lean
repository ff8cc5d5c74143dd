/-
Every type of records comes back from JSON.

Tokens and entries of trees can be nested, and the reader stops at a certain depth; 40 groups or
directories inside each other are well within it. What comes back is the record that was written,
with one proviso: a weight comes back if it is finite and its digits are read as the same double
(`Format.RoundTrips`).
-/
import PromptTags.Proofs.Json.Tokens
import PromptTags.Proofs.Json.Trees

set_option autoImplicit false

namespace PromptTags.Json

/-- **Records of all types come back from JSON.** -/
theorem records_round_trip :
    Prompt.Token.format.RoundTrips ∧ Tag.format.RoundTrips ∧ Entry.format.RoundTrips ∧
      Record.format.RoundTrips ∧ TreeItem.format.RoundTrips :=
  ⟨Prompt.Token.lawful_format.roundTrips, Tag.lawful_format.roundTrips,
    Entry.lawful_format.roundTrips, Record.lawful_format.roundTrips,
    TreeItem.lawful_format.roundTrips⟩

/-- A group within a group, with a name that has to be escaped and a weight with a sign. -/
theorem records_round_trip_nested_group :
    let f := Prompt.Token.format
    let t : Prompt.Token := .group [.plain "a \"b\"\n" 1.25, .group [.plain "" (-0.0)] 1e300] 0.1
    f.decode? (f.encode t) = some t := by
  intro f t
  exact (records_round_trip.1.1 t trivial (by decide +kernel) (by decide +kernel)).mpr
    (by decide +kernel)

end PromptTags.Json
