/-
The selection: the tags that have been picked, in prompt order, each at most once.

A selection is a list of entries. Names are looked up after blanks at their ends are taken off, so
every operation takes a name as it was typed. No operation fails: one whose condition is not met
leaves the selection as it is and says so in its answer.
-/
import PromptTags.Prompt.Reader
import PromptTags.Prompt.Writer

set_option autoImplicit false

namespace PromptTags

open Text (trim)

/-! ## 1. Entries -/

/-- A picked tag. -/
structure Entry where
  /-- The text that goes into the prompt. -/
  name : String
  /-- The human label that the catalog has for it. -/
  display? : Option String
  weight : Float
deriving DecidableEq, Repr, Inhabited

/-- Decimal places of a weight in a label, unless others are asked for. -/
def labelPlaces : Nat := 3

namespace Entry

def tag (e : Entry) : Tag := ⟨e.name, e.weight⟩

/-- Whether the entry is the one of a name, which is given without blanks at its ends. -/
def hasName (name : String) (e : Entry) : Bool := e.name == name

/-- Applies a change to the weight if the entry is the one of a name. -/
def reweigh (name : String) (change : Float → Float) (e : Entry) : Entry :=
  if e.hasName name then { e with weight := change e.weight } else e

/-- The line that shows an entry, as in `smile - Smile ×1.050`. -/
def label (places : Nat) (e : Entry) : String :=
  let shown :=
    match e.display? with
    | some d => e.name ++ " - " ++ d
    | none => e.name
  shown ++ " ×" ++ Decimal.fixed places e.weight

end Entry

/-- Where a moved entry goes, relative to another one. -/
inductive Placement where
  | before (target : String)
  | after (target : String)
deriving DecidableEq, Repr

def Placement.target : Placement → String
  | before t => t
  | after t => t

/-- What one adjustment adds to a weight, or takes from it. -/
def weightStep : Float := 0.05

/-- Positions of known names; the first pair of a name counts. -/
abbrev Ranking := List (String × Nat)

/-- The rank of the names that a ranking does not know: the largest position there is. -/
def lastRank : Nat := Decimal.twoTo 64 - 1

def Ranking.rank (r : Ranking) (name : String) : Nat := (r.lookup name).getD lastRank

/-! ## 2. The selection -/

/-- Picked tags in prompt order. -/
structure Selection where
  entries : List Entry := []
deriving DecidableEq, Repr, Inhabited

namespace Selection

def empty : Selection := {}

def names (s : Selection) : List String := s.entries.map Entry.name

def find? (s : Selection) (name : String) : Option Entry :=
  s.entries.find? (Entry.hasName (trim name))

def contains (s : Selection) (name : String) : Bool :=
  s.entries.any (Entry.hasName (trim name))

def size (s : Selection) : Nat := s.entries.length

def isEmpty (s : Selection) : Bool := s.entries.isEmpty

def tags (s : Selection) : List Tag := s.entries.map Entry.tag

def text (s : Selection) : String := Prompt.serialize s.tags

def labels (s : Selection) (places : Nat) : List String := s.entries.map (Entry.label places)

/-- Picks a name: it comes last, with the default weight. A blank name and one that is picked
already are refused. -/
def add (s : Selection) (name : String) (display? : Option String) : Bool × Selection :=
  if (trim name).isEmpty || s.contains name then (false, s)
  else (true, { entries := s.entries ++ [⟨trim name, display?, defaultWeight⟩] })

/-- Takes a name out; the answer tells whether it was there. -/
def remove (s : Selection) (name : String) : Bool × Selection :=
  (s.contains name, { entries := s.entries.eraseP (Entry.hasName (trim name)) })

/-- Takes a name out if it is there, and picks it otherwise. The answer tells whether it is picked
afterwards. -/
def toggle (s : Selection) (name : String) (display? : Option String) : Bool × Selection :=
  if s.contains name then (false, (s.remove name).2) else s.add name display?

/-- Applies a change to the weight of a name. -/
def updateWeight (s : Selection) (name : String) (change : Float → Float) : Selection :=
  { entries := s.entries.map (Entry.reweigh (trim name) change) }

/-- Raises or lowers a weight by one step, without limits, and answers the new weight. -/
def adjust (s : Selection) (name : String) (up : Bool) : Option Float × Selection :=
  let change := fun w => if up then w + weightStep else w - weightStep
  ((s.find? name).map (change ·.weight), s.updateWeight name change)

/-- Gives a name a weight; the answer tells whether the name is picked. -/
def setWeight (s : Selection) (name : String) (weight : Float) : Bool × Selection :=
  (s.contains name, s.updateWeight name fun _ => weight)

def position? (s : Selection) (name : String) : Option Nat :=
  s.entries.findIdx? (Entry.hasName (trim name))

/-- Takes the entry at one position out and puts it back so that it stands at another. -/
def moveIndex (s : Selection) (source target : Nat) : Selection :=
  match s.entries[source]? with
  | some e => { entries := (s.entries.eraseIdx source).insertIdx target e }
  | none => s

/-- The position that an entry moved away from `source` has to go to, so that it stands next to the
entry at `anchor`. Taking it out moves everything behind it one place forward. -/
def landing (source anchor : Nat) : Placement → Nat
  | .before _ => if source < anchor then anchor - 1 else anchor
  | .after _ => (if source < anchor then anchor - 1 else anchor) + 1

/-- Moves a name next to another one. It is refused unless both are picked and different. -/
def reorder (s : Selection) (name : String) (place : Placement) : Bool × Selection :=
  -- A name has no place next to itself.
  if trim name = trim place.target then (false, s)
  else
    match s.position? name, s.position? place.target with
    | some source, some anchor => (true, s.moveIndex source (landing source anchor place))
    | _, _ => (false, s)

/-- Picks a tag that was read, and gives it its weight whether it is new or not. -/
def importTag (s : Selection) (t : Tag) : Selection :=
  ((s.add t.name none).2.setWeight t.name t.weight).2

/-- Picks every tag of some tokens in order. Of a name that occurs several times, the last weight
stays. -/
def importTokens (s : Selection) (tokens : List Prompt.Token) : Selection :=
  (tokens.flatMap Prompt.Token.leaves).foldl importTag s

/-- The selection that prompt text holds. -/
def ofText (text : String) : Selection := empty.importTokens (Prompt.parseTokens text)

/-- Sorts by rank. Entries of equal rank keep their order. -/
def sortBy (s : Selection) (ranking : Ranking) : Selection :=
  { entries := s.entries.mergeSort fun a b =>
      decide (ranking.rank a.name ≤ ranking.rank b.name) }

end Selection

namespace Prompt

/-- Prompt text in flat form, with every name once. -/
def normalize (text : String) : String := (Selection.ofText text).text

end Prompt

end PromptTags
