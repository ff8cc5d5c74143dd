/-
Writing JSON text.

The compact form has no white at all. The pretty form has one item or field a line, indented by two
spaces for each list or object around it; empty ones stay on one line. Only quotes, backslashes and
control characters are escaped.
-/
import PromptTags.Decimal.Shortest
import PromptTags.Json.Value

set_option autoImplicit false

namespace PromptTags.Json

/-! ## 1. Scalars -/

/-- How doubles are written: without an exponent from 1e-5 up to below 1e16. -/
def layout : Decimal.Layout :=
  { tie := .even, least := some (-5), greatest := some 15, plus := true }

/-- The characters of a number; one past the range of doubles is left out. -/
def numberChars : Option Number → List Char
  | none => "null".toList
  | some (.whole n) => (toString n).toList
  | some (.double x) => layout.chars x

/-- A code unit of one byte as an escape. -/
def controlEscape (c : Char) : List Char :=
  '\\' :: 'u' :: (Nat.toDigits 16 c.toNat).leftpad 4 '0'

/-- How one character stands in quoted text. -/
def quoteChar (c : Char) : List Char :=
  if c = '"' then ['\\', '"']
  else if c = '\\' then ['\\', '\\']
  else if c = '\x08' then ['\\', 'b']
  else if c = '\x0c' then ['\\', 'f']
  else if c = '\n' then ['\\', 'n']
  else if c = '\r' then ['\\', 'r']
  else if c = '\t' then ['\\', 't']
  else if c < ' ' then controlEscape c
  else [c]

def quoteText (s : String) : List Char := '"' :: s.toList.flatMap quoteChar ++ ['"']

def nameChars (name : Option String) : List Char := quoteText (name.getD "")

/-! ## 2. The compact form -/

namespace Value

mutual
/-- The characters of a value, without white. -/
def compactChars : Value → List Char
  | null => "null".toList
  | bool b => (toString b).toList
  | number n? => numberChars n?
  | text s? => quoteText (s?.getD "")
  | list vs => '[' :: compactItems vs ++ [']']
  | object fs => '\x7b' :: compactFields fs ++ ['\x7d']

def compactItems : List Value → List Char
  | [] => []
  | [v] => compactChars v
  | v :: vs => compactChars v ++ ',' :: compactItems vs

def compactFields : List (Option String × Value) → List Char
  | [] => []
  | [(name, v)] => nameChars name ++ ':' :: compactChars v
  | (name, v) :: fs => nameChars name ++ ':' :: compactChars v ++ ',' :: compactFields fs
end

def compact (v : Value) : String := String.ofList v.compactChars

/-! ## 3. The pretty form -/

def newLine (depth : Nat) : List Char := '\n' :: List.replicate (2 * depth) ' '

mutual
/-- The characters of a value, within `depth` lists and objects. -/
def prettyChars (depth : Nat) : Value → List Char
  | null => "null".toList
  | bool b => (toString b).toList
  | number n? => numberChars n?
  | text s? => quoteText (s?.getD "")
  | list [] => ['[', ']']
  | list (v :: vs) => '[' :: prettyItems (depth + 1) (v :: vs) ++ newLine depth ++ [']']
  | object [] => ['\x7b', '\x7d']
  | object (f :: fs) => '\x7b' :: prettyFields (depth + 1) (f :: fs) ++ newLine depth ++ ['\x7d']

/-- The items of a list, each on a line of its own. -/
def prettyItems (depth : Nat) : List Value → List Char
  | [] => []
  | [v] => newLine depth ++ prettyChars depth v
  | v :: vs => newLine depth ++ prettyChars depth v ++ ',' :: prettyItems depth vs

/-- The fields of an object, each on a line of its own. -/
def prettyFields (depth : Nat) : List (Option String × Value) → List Char
  | [] => []
  | [(name, v)] => newLine depth ++ nameChars name ++ ':' :: ' ' :: prettyChars depth v
  | (name, v) :: fs =>
    newLine depth ++ nameChars name ++ ':' :: ' ' :: prettyChars depth v ++
      ',' :: prettyFields depth fs
end

def pretty (v : Value) : String := String.ofList (v.prettyChars 0)

end Value

end PromptTags.Json
