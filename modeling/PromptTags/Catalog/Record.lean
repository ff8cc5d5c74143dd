/-
Catalog records and the lookups over a list of them.

A record has a human name and aliases, which are the spellings that go into a prompt. It answers to
its name and to each alias, letter by letter. Of several records that answer to a name, the first
one counts. Searching ignores case and looks for a part of a name or of an alias.
-/
import PromptTags.Selection
import PromptTags.Text.LowerCase
import PromptTags.Text.Search

set_option autoImplicit false

namespace PromptTags

/-- What the catalog knows about one tag. -/
structure Record where
  name : String := ""
  aliases : List String := []
  description? : Option String := none
  wiki? : Option String := none
deriving DecidableEq, Repr, Inhabited

namespace Record

/-- Whether `key` is the name or one of the aliases. -/
def answersTo (r : Record) (key : String) : Bool := r.name == key || r.aliases.contains key

/-- Whether a lower-case term occurs in the name or in an alias, case aside. -/
def holds (r : Record) (term : List Char) : Bool :=
  (r.name :: r.aliases).any fun s => Text.occursIn term (Text.lowerFrom [] s.toList)

/-- Whether a search finds the record. The empty term finds every record. -/
def foundBy (r : Record) (term : String) : Bool :=
  let lower := Text.lowerFrom [] term.toList
  lower.isEmpty || r.holds lower

end Record

/-- Records in browse order. -/
abbrev Catalog := List Record

namespace Catalog

def find? (c : Catalog) (key : String) : Option Record := List.find? (·.answersTo key) c

def position? (c : Catalog) (key : String) : Option Nat := c.findIdx? (·.answersTo key)

/-- The human label of a prompt tag: the name of the first record that answers to it. A record
without a name gives no label. -/
def displayName? (c : Catalog) (key : String) : Option String :=
  (find? c key).bind fun r => if r.name.isEmpty then none else some r.name

/-- Adds a key with its position unless it is empty or known. -/
def rankKey (position : Nat) (known : Ranking) (key : String) : Ranking :=
  if key.isEmpty || (known.lookup key).isSome then known else known ++ [(key, position)]

/-- The position of every name and alias: that of the first record with it. -/
def referenceOrder (c : Catalog) : Ranking :=
  c.zipIdx.foldl (fun known (r, i) => (r.name :: r.aliases).foldl (rankKey i) known) []

def search (c : Catalog) (term : String) : Catalog := c.filter (·.foundBy term)

/-- Where the records stand that a search finds. -/
def searchPositions (c : Catalog) (term : String) : List Nat :=
  (c.zipIdx.filter (·.1.foundBy term)).map (·.2)

end Catalog

end PromptTags
