/-
Reading TOML documents.

A document is read line by line into headers and pairs, which are then put together. The readers of
values run on a number (`fuel`) that is greater than the count of steps they can take, and on
`room`, which is how many lists and tables may still be inside each other.
-/
import PromptTags.Toml.Scalar

set_option autoImplicit false

namespace PromptTags.Toml

/-! ## 1. Keys -/

/-- Whether a character may stand in a key without quotes. -/
def isKeyChar (c : Char) : Bool := c.isAlphanum || c == '_' || c == '-'

/-- One key, between dots. -/
def readSimpleKey (cs : List Char) : Option (String × List Char) :=
  match cs with
  | '"' :: r => (readLine '"' true (r.length + 1) r).map fun (k, r) => (String.ofList k, r)
  | '\'' :: r => (readLine '\'' false (r.length + 1) r).map fun (k, r) => (String.ofList k, r)
  | r =>
    let k := r.takeWhile isKeyChar
    if k.isEmpty then none else some (String.ofList k, r.dropWhile isKeyChar)

/-- Keys with dots between them; white around each key does not count. -/
def readKeys : (fuel : Nat) → List Char → Option (List String × List Char)
  | 0, _ => none
  | fuel + 1, cs =>
    match readSimpleKey (skipWhite cs) with
    | none => none
    | some (k, r) =>
      match skipWhite r with
      | '.' :: r => (readKeys fuel r).map fun (ks, r) => (k :: ks, r)
      | r => some ([k], r)

/-- How many keys a dotted key can have, and how deep lists and tables can be inside each other. -/
def deepest : Nat := 79

def readKey (cs : List Char) : Option (List String × List Char) :=
  match readKeys (cs.length + 1) cs with
  | some (ks, r) => if ks.length ≤ deepest then some (ks, r) else none
  | none => none

/-! ## 2. Values -/

/-- What follows white, line breaks and comments. -/
def skipLayout : (fuel : Nat) → List Char → List Char
  | 0, cs => cs
  | fuel + 1, cs =>
    let r := skipWhite cs
    let afterComment :=
      match r with
      | '#' :: r => r.dropWhile isPlain
      | r => r
    match newLine? afterComment with
    | some r => skipLayout fuel r
    | none => r

/-- Skips layout within a list. -/
def skipBetween (cs : List Char) : List Char := skipLayout (cs.length + 1) cs

mutual
/-- A value. -/
def readValue : (fuel room : Nat) → List Char → Option (Value × List Char)
  | 0, _, _ => none
  | fuel + 1, room, cs =>
    match cs with
    | '[' :: r =>
      if room = 0 then none
      else (readItems fuel (room - 1) r).map fun (vs, r) => (.list vs, r)
    | '\x7b' :: r =>
      if room = 0 then none
      else
        match skipWhite r with
        | '\x7d' :: r => some (.table [], r)
        | r =>
          match readPairs fuel (room - 1) r with
          | some (pairs, r) => (inlineTable? pairs).map fun v => (v, r)
          | none => none
    | c :: _ =>
      if c == '"' || c == '\'' then
        (readText cs).map fun (s, r) => (.text (String.ofList s), r)
      else readScalar cs
    | [] => none

/-- The items of a list up to its end; a comma can stand behind the last one. -/
def readItems : (fuel room : Nat) → List Char → Option (List Value × List Char)
  | 0, _, _ => none
  | fuel + 1, room, cs =>
    match skipBetween cs with
    | ']' :: r => some ([], r)
    | r =>
      match readValue fuel room r with
      | none => none
      | some (v, r) =>
        match skipBetween r with
        | ',' :: r => (readItems fuel room r).map fun (vs, r) => (v :: vs, r)
        | ']' :: r => some ([v], r)
        | _ => none

/-- The pairs of a table in braces up to its end; there is at least one, and no comma behind the
last one. -/
def readPairs : (fuel room : Nat) → List Char →
    Option (List (List String × Value) × List Char)
  | 0, _, _ => none
  | fuel + 1, room, cs =>
    match readKey cs with
    | some (ks, '=' :: r) =>
      match readValue fuel room (skipWhite r) with
      | none => none
      | some (v, r) =>
        match skipWhite r with
        | ',' :: r => (readPairs fuel room r).map fun (ps, r) => ((ks, v) :: ps, r)
        | '\x7d' :: r => some ([(ks, v)], r)
        | _ => none
    | _ => none
end

/-! ## 3. Documents -/

/-- What follows the end of a line, with a comment before it or without. -/
def endLine (cs : List Char) : Option (List Char) :=
  let r := skipWhite cs
  let r :=
    match r with
    | '#' :: r => r.dropWhile isPlain
    | r => r
  if r.isEmpty then some [] else newLine? r

/-- A header from behind its brackets, up to the brackets that close it. -/
def readHeader (cs : List Char) : Option (Statement × List Char) :=
  match cs with
  | '[' :: r =>
    match readKey r with
    | some (ks, ']' :: ']' :: r) => some (.itemHeader ks, r)
    | _ => none
  | r =>
    match readKey r with
    | some (ks, ']' :: r) => some (.header ks, r)
    | _ => none

def readPair (cs : List Char) : Option (Statement × List Char) :=
  match readKey cs with
  | some (ks, '=' :: r) =>
    let r := skipWhite r
    (readValue (2 * r.length + 2) deepest r).map fun (v, r) => (.pair ks v, r)
  | _ => none

def readStatement (cs : List Char) : Option (Statement × List Char) := do
  let (s, r) ←
    match cs with
    | '[' :: r => readHeader r
    | cs => readPair cs
  return (s, ← endLine r)

/-- The statements of a document. A line can also be empty but for a comment. -/
def readStatements : (fuel : Nat) → List Char → Option (List Statement)
  | 0, _ => none
  | fuel + 1, cs =>
    match skipWhite cs with
    | [] => some []
    | c :: r =>
      if c == '#' || c == '\n' || c == '\r' then
        (endLine (c :: r)).bind fun r => readStatements fuel r
      else
        match readStatement (c :: r) with
        | some (s, r) => (readStatements fuel r).map (s :: ·)
        | none => none

/-- The table that a document is; a byte order mark in front of it does not count. -/
def read? (text : String) : Option (List (String × Value)) :=
  let cs :=
    match text.toList with
    | '\ufeff' :: r => r
    | cs => cs
  (readStatements (cs.length + 1) cs).bind tableOf?

end PromptTags.Toml
