/-
A place in YAML text.

YAML's layout depends on columns and on line breaks, so a cursor counts both while it moves, a
column for each character; its distance from the start of the text is in bytes. A line break is a
carriage return, a line feed, the two together, or one of three Unicode breaks; all but the last two
are read as a line feed.
-/

set_option autoImplicit false

namespace PromptTags.Yaml

def isBreak (c : Char) : Bool :=
  c == '\n' || c == '\r' || c == '\x85' || c == '\u2028' || c == '\u2029'

def isWhite (c : Char) : Bool := c == ' ' || c == '\t'

/-- Whether a character may stand in a name: a letter, a digit, a line or a hyphen. -/
def isNameChar (c : Char) : Bool := c.isAlphanum || c == '_' || c == '-'

/-- Whether YAML text may hold the character at all. -/
def isAllowed (c : Char) : Bool :=
  let n := c.toNat
  n == 0x09 || n == 0x0A || n == 0x0D || (0x20 ≤ n && n ≤ 0x7E) || n == 0x85 ||
    (0xA0 ≤ n && n ≤ 0xD7FF) || (0xE000 ≤ n && n ≤ 0xFFFD) || (0x10000 ≤ n)

def byteCount (cs : List Char) : Nat := cs.foldl (fun n c => n + c.utf8Size) 0

/-- What is left of a text, and how far its start is from the start of the whole. -/
structure Cursor where
  rest : List Char
  /-- How many bytes have been passed. -/
  index : Nat := 0
  line : Nat := 0
  column : Nat := 0
deriving Repr

namespace Cursor

def peek? (c : Cursor) (distance : Nat) : Option Char := c.rest[distance]?

def at? (c : Cursor) (distance : Nat) (ch : Char) : Bool := c.peek? distance == some ch

def whiteAt (c : Cursor) (distance : Nat) : Bool := (c.peek? distance).any isWhite

/-- Whether a line break or the end of the text is at a distance. -/
def endsLineAt (c : Cursor) (distance : Nat) : Bool := (c.peek? distance).all isBreak

/-- Whether white, a line break or the end of the text is at a distance. -/
def endsWordAt (c : Cursor) (distance : Nat) : Bool :=
  (c.peek? distance).all fun ch => isWhite ch || isBreak ch

/-- Moves past characters of the same line. -/
def skip (c : Cursor) (n : Nat) : Cursor :=
  { rest := c.rest.drop n, index := c.index + byteCount (c.rest.take n)
    line := c.line, column := c.column + n }

/-- Moves past the characters of the line for which a condition holds, and gives them. -/
def span (c : Cursor) (p : Char → Bool) : List Char × Cursor :=
  let taken := c.rest.takeWhile fun ch => !isBreak ch && p ch
  (taken, c.skip taken.length)

def skipWhite (c : Cursor) : Cursor := (c.span isWhite).2

/-- Moves past a comment, if one starts here. -/
def skipComment (c : Cursor) : Cursor :=
  if c.at? 0 '#' then (c.span fun _ => true).2 else c

/-- Moves past a line break, if one is here, and gives its reading. -/
def takeBreak (c : Cursor) : List Char × Cursor :=
  let past (n : Nat) : Cursor :=
    { rest := c.rest.drop n, index := c.index + byteCount (c.rest.take n)
      line := c.line + 1, column := 0 }
  match c.rest with
  | '\r' :: '\n' :: _ => (['\n'], past 2)
  | ch :: _ =>
    if ch == '\u2028' || ch == '\u2029' then ([ch], past 1)
    else if isBreak ch then (['\n'], past 1)
    else ([], c)
  | [] => ([], c)

/-- Whether a line with one of the marks between documents starts here. -/
def atDocumentMark (c : Cursor) : Bool :=
  let mark := c.rest.take 3
  c.column == 0 && (mark == ['-', '-', '-'] || mark == ['.', '.', '.']) && c.endsWordAt 3

end Cursor

end PromptTags.Yaml
