/-
Numbers written in a base up to sixteen, and characters given by their number.
-/

set_option autoImplicit false

namespace PromptTags.Text

/-- The value of a digit in any base up to sixteen; no digit has the value sixteen. -/
def digitValue (c : Char) : Nat :=
  if c.isDigit then c.toNat - '0'.toNat
  else if 'a' ≤ c ∧ c ≤ 'f' then c.toNat - 'a'.toNat + 10
  else if 'A' ≤ c ∧ c ≤ 'F' then c.toNat - 'A'.toNat + 10
  else 16

def isDigitIn (base : Nat) (c : Char) : Bool := digitValue c < base

/-- The number written by digits of a base, at least one. -/
def numberIn? (base : Nat) (cs : List Char) : Option Nat :=
  if !cs.isEmpty && cs.all (isDigitIn base) then
    some (cs.foldl (fun n c => base * n + digitValue c) 0)
  else none

def charOfNumber? (n : Nat) : Option Char :=
  if n < 0xD800 ∨ (0xDFFF < n ∧ n ≤ 0x10FFFF) then some (Char.ofNat n) else none

end PromptTags.Text
