/-
Writing text in TOML.

Text is written in the first of four forms that needs no escapes: between double quotes, between
single quotes, and the same with three quotes and with line breaks as they are. Text that none of
them can hold is written with escapes, in several lines if it has several. A tab is no reason to
leave the first form, where it is written as an escape.
-/
import PromptTags.Toml.Value

set_option autoImplicit false

namespace PromptTags.Toml

/-! ## 1. What a text asks for -/

/-- Whether a character can only be written by an escape: the control characters but for tab and
line feed. -/
def needsEscape (c : Char) : Bool := (c < ' ' && c != '\t' && c != '\n') || c == '\x7f'

def longestRun (mark : Char) (cs : List Char) : Nat :=
  (cs.foldl (fun (longest, current) c =>
    if c == mark then (max longest (current + 1), current + 1) else (longest, 0)) (0, 0)).1

/-- The written forms of text. -/
inductive TextForm where
  /-- Double quotes. -/
  | basic
  /-- Single quotes; nothing is escaped. -/
  | literal
  /-- Three double quotes. -/
  | basicLines
  /-- Three single quotes; nothing is escaped. -/
  | literalLines
deriving DecidableEq, Repr

/-- The form in which text is written. -/
def TextForm.of (cs : List Char) : TextForm :=
  let control := cs.any needsEscape
  let backslash := cs.contains '\\'
  let lines := cs.contains '\n'
  if !control && !backslash && !cs.contains '"' && !lines then basic
  else if !control && !cs.contains '\'' && !lines then literal
  else if !control && !backslash && longestRun '"' cs ≤ 2 then basicLines
  else if !control && longestRun '\'' cs ≤ 2 then literalLines
  else if lines then basicLines
  else basic

/-! ## 2. Writing -/

/-- A character by its number, in four digits. -/
def numberEscape (c : Char) : List Char :=
  '\\' :: 'u' :: ((Nat.toDigits 16 c.toNat).map Char.toUpper).leftpad 4 '0'

/-- How a character other than a double quote stands between double quotes. -/
def escapeChar (lines : Bool) (c : Char) : List Char :=
  if c = '\x08' then ['\\', 'b']
  else if c = '\t' then ['\\', 't']
  else if c = '\n' then (if lines then ['\n'] else ['\\', 'n'])
  else if c = '\x0c' then ['\\', 'f']
  else if c = '\r' then ['\\', 'r']
  else if c = '\\' then ['\\', '\\']
  else if needsEscape c then numberEscape c
  else [c]

/-- Text between double quotes, without them. As many double quotes in a row as `free` says stand as
they are, and the next one is escaped; `run` counts those since the last other character. -/
def escapeText (lines : Bool) (free : Nat) : (run : Nat) → List Char → List Char
  | _, [] => []
  | run, c :: cs =>
    if c = '"' then
      if run < free then '"' :: escapeText lines free (run + 1) cs
      else '\\' :: '"' :: escapeText lines free 0 cs
    else escapeChar lines c ++ escapeText lines free 0 cs

/-- The characters of text in a given form. Of the forms with three quotes, text that has several
lines starts on a line of its own. -/
def TextForm.chars (form : TextForm) (cs : List Char) : List Char :=
  let opening := if cs.contains '\n' then ['\n'] else []
  match form with
  | basic => '"' :: escapeText false 0 0 cs ++ ['"']
  | literal => '\'' :: cs ++ ['\'']
  | basicLines => ['"', '"', '"'] ++ opening ++ escapeText true 2 0 cs ++ ['"', '"', '"']
  | literalLines => ['\'', '\'', '\''] ++ opening ++ cs ++ ['\'', '\'', '\'']

def textChars (s : String) : List Char := (TextForm.of s.toList).chars s.toList

end PromptTags.Toml
