/-
Numbers written in digits.

A numeral is a sign, a whole number and a power of ten. Its value as a double is the nearest one;
powers of ten so large or so small that they settle the answer are not computed.
-/
import PromptTags.Decimal.Binary64

set_option autoImplicit false

namespace PromptTags.Decimal

/-! ## 1. Digits -/

def digitValue (c : Char) : Nat := c.toNat - '0'.toNat

/-- The number that a run of decimal digits stands for. -/
def ofDigits (cs : List Char) : Nat := cs.foldl (fun n c => 10 * n + digitValue c) 0

def digits (n : Nat) : List Char := Nat.toDigits 10 n

@[simp] theorem ofDigits_nil : ofDigits [] = 0 := rfl

theorem ofDigits_append_singleton (cs : List Char) (c : Char) :
    ofDigits (cs ++ [c]) = 10 * ofDigits cs + digitValue c := by
  simp only [ofDigits, List.foldl_append, List.foldl_cons, List.foldl_nil]

/-! ## 2. Numerals -/

/-- The number `± coefficient * 10 ^ exponent`. -/
structure Numeral where
  negative : Bool
  coefficient : Nat
  exponent : Int
deriving Repr, DecidableEq

namespace Numeral

/-- Past this many places, a power of ten alone is out of the range of doubles. -/
def farAway : Nat := 400

/-- The double nearest to the absolute value. -/
def magnitude (n : Numeral) : Float :=
  match n.exponent with
  | .ofNat e =>
    if n.coefficient = 0 then 0.0
    else if farAway < e then Float.ofBits (UInt64.ofNat infinityBits)
    else nearest (n.coefficient * tenTo e) 1
  | .negSucc e =>
    if farAway + (digits n.coefficient).length < e then 0.0
    else nearest n.coefficient (tenTo (e + 1))

/-- The double nearest to the number; infinite when it is out of range. -/
def toFloat (n : Numeral) : Float := if n.negative then -n.magnitude else n.magnitude

end Numeral

end PromptTags.Decimal
