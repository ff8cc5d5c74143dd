/-
A move, as it is written on the command line: `NAME:before:TARGET` or `NAME:after:TARGET`.

The text is cut at its first two colons, so only the target can hold colons. Blanks around the three
parts do not count.
-/
import PromptTags.Selection
import PromptTags.Text.Pieces

set_option autoImplicit false

namespace PromptTags

open Text (trim)

/-- A name and where it goes. -/
structure Move where
  name : String
  placement : Placement
deriving DecidableEq, Repr

/-- Why a text is no move. -/
inductive MoveFault where
  | tooFewParts (text : String)
  | emptyName (text : String)
  | unknownSide (side : String)
deriving DecidableEq, Repr

namespace MoveFault

def message : MoveFault → String
  | tooFewParts s => "expected NAME:before|after:TARGET, got '" ++ s ++ "'"
  | emptyName s => "empty tag name in '" ++ s ++ "'"
  | unknownSide s => "unknown placement '" ++ s ++ "', use before or after"

end MoveFault

namespace Move

/-- The three parts of a move. -/
def parts? (text : String) : Option (String × String × String) :=
  match Text.cutFirst ':' text.toList with
  | (_, none) => none
  | (name, some rest) =>
    match Text.cutFirst ':' rest with
    | (_, none) => none
    | (side, some target) =>
      some (String.ofList name, String.ofList side, String.ofList target)

/-- The place next to a target that a word names. -/
def placement? (side target : String) : Option Placement :=
  if side = "before" then some (.before target)
  else if side = "after" then some (.after target)
  else none

/-- Reads a move. An empty name is reported before an unknown side. -/
def ofText (text : String) : Except MoveFault Move :=
  match parts? text with
  | none => .error (.tooFewParts text)
  | some (name, side, target) =>
    if (trim name).isEmpty || (trim target).isEmpty then .error (.emptyName text)
    else
      match placement? (trim side) (trim target) with
      | some p => .ok ⟨trim name, p⟩
      | none => .error (.unknownSide (trim side))

end Move

end PromptTags
