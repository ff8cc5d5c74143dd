/-
Quoted text, as error messages show it.

The text stands between double quotes; the usual escapes are used for the quote, the backslash,
tab, line feed, carriage return and the null character, and every other unprintable character is
written by its number in braces. A single quote stands for itself.
-/
import PromptTags.Text.Unprintable

set_option autoImplicit false

namespace PromptTags.Text

def hexDigits (n : Nat) : List Char := Nat.toDigits 16 n

/-- A character by its number. -/
def numberEscape (c : Char) : List Char :=
  '\\' :: 'u' :: '\x7b' :: hexDigits c.toNat ++ ['\x7d']

/-- How one character stands in quoted text. -/
def quoteChar (c : Char) : List Char :=
  if c = '\x00' then ['\\', '0']
  else if c = '\t' then ['\\', 't']
  else if c = '\r' then ['\\', 'r']
  else if c = '\n' then ['\\', 'n']
  else if c = '\\' then ['\\', '\\']
  else if c = '"' then ['\\', '"']
  else if isUnprintable c then numberEscape c
  else [c]

def quoted (s : String) : String :=
  String.ofList ('"' :: s.toList.flatMap quoteChar ++ ['"'])

end PromptTags.Text
