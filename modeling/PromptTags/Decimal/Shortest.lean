/-
The fewest digits that read back as the same double.

For one digit, two digits, and so on up to seventeen, the two decimal numbers of that many digits
that enclose the double are tried; the first number of digits at which one of them reads back is
taken. Of two that read back the nearer one is taken.

Which one is taken when both are as near, and how the digits are then laid out, with or without an
exponent, is up to the format that writes them, and is given by a `Layout`.
-/
import PromptTags.Decimal.Numeral

set_option autoImplicit false

namespace PromptTags.Decimal

/-! ## 1. The digits -/

/-- How many times a number of units below one is multiplied by ten to reach one. -/
def leadingPlaces : (fuel : Nat) → (u : Nat) → Nat
  | 0, _ => 0
  | fuel + 1, u => if unitsPerOne ≤ u then 0 else leadingPlaces fuel (10 * u) + 1

/-- The least `k` with the value below `10 ^ k`, for a positive number of units. No double needs
more than 324 places to its first digit. -/
def pointPosition (u : Nat) : Int :=
  if unitsPerOne ≤ u then (digits (u / unitsPerOne)).length
  else 1 - (leadingPlaces 330 u : Int)

/-- The fraction `u / 10 ^ e` of units, as numerator and denominator. -/
def scaledBy (u : Nat) : (e : Int) → Nat × Nat
  | .ofNat e => (u, unitsPerOne * tenTo e)
  | .negSucc e => (u * tenTo (e + 1), unitsPerOne)

/-- Whether `c * 10 ^ e` reads back as the double with this pattern. -/
def readsBack (bits c : Nat) : (e : Int) → Bool
  | .ofNat e => nearestBits (c * tenTo e) 1 == bits
  | .negSucc e => nearestBits c (tenTo (e + 1)) == bits

/-- Which of two numbers is taken when both are as near. -/
inductive Tie where
  | even
  | greater
deriving DecidableEq, Repr

/-- The number of `n` digits that reads back, if one of the two around the double does. -/
def withDigits (tie : Tie) (bits n : Nat) : Option (Nat × Int) :=
  let u := units bits
  let e := pointPosition u - n
  let (num, den) := scaledBy u e
  let low := num / den
  let high := low + 1
  let twice := 2 * (num % den)
  -- The nearer one goes first; between two that are as near, the tie decides.
  let lowFirst := if twice = den then tie = .even ∧ low % 2 = 0 else twice < den
  let (first, second) := if lowFirst then (low, high) else (high, low)
  let found :=
    if readsBack bits first e then some first
    else if readsBack bits second e then some second
    else none
  -- Rounding up can carry to a power of ten, which has one digit only.
  found.map fun c => if c = tenTo n then (1, e + n) else (c, e)

/-- All digits of a finite double: a unit is `5 ^ 1074 * 10 ^ -1074`. -/
def allDigits (bits : Nat) : Nat × Int := (units bits * Nat.pow 5 1074, -1074)

/-- The shortest numeral of a positive finite double. Should seventeen digits not be enough, it has
all of them. -/
def shortestDigits (tie : Tie) (bits : Nat) : Nat × Int :=
  ((List.range 17).findSome? fun i => withDigits tie bits (i + 1)).getD (allDigits bits)

def Numeral.shortest (tie : Tie) (x : Float) : Numeral :=
  let (c, e) := if magnitudeBits x = 0 then (0, 0) else shortestDigits tie (magnitudeBits x)
  { negative := isNegative x, coefficient := c, exponent := e }

/-! ## 2. The layout -/

/-- Which digits are taken, when they are written without an exponent, and how the exponent is
written else. -/
structure Layout where
  tie : Tie
  /-- The least power of ten of the first digit that is written without an exponent. -/
  least : Option Int
  /-- The greatest such power. -/
  greatest : Option Int
  /-- Whether a positive exponent has a plus sign. -/
  plus : Bool

namespace Layout

/-- Whether a number whose first digit stands for `10 ^ p` is written without an exponent. -/
def positional (l : Layout) (p : Int) : Bool :=
  l.least.all (fun b => decide (b ≤ p)) && l.greatest.all (fun b => decide (p ≤ b))

/-- Digits times a power of ten without an exponent; there is always a digit after the point. -/
def positionalChars (ds : List Char) (e : Int) : List Char :=
  let point := ds.length + e
  if 0 ≤ e then ds ++ List.replicate e.toNat '0' ++ ['.', '0']
  else if 0 < point then ds.take point.toNat ++ '.' :: ds.drop point.toNat
  else '0' :: '.' :: List.replicate (-point).toNat '0' ++ ds

/-- Digits times a power of ten with an exponent; a single digit has no point. -/
def exponentChars (l : Layout) (ds : List Char) (e : Int) : List Char :=
  let power := ds.length + e - 1
  let mantissa :=
    match ds with
    | d :: r@(_ :: _) => d :: '.' :: r
    | ds => ds
  let sign := if power < 0 then ['-'] else if l.plus then ['+'] else []
  mantissa ++ 'e' :: sign ++ digits power.natAbs

/-- The characters of a numeral in this layout. -/
def numeralChars (l : Layout) (n : Numeral) : List Char :=
  let ds := digits n.coefficient
  let unsigned :=
    if n.coefficient = 0 then ['0', '.', '0']
    else if l.positional (ds.length + n.exponent - 1) then positionalChars ds n.exponent
    else l.exponentChars ds n.exponent
  if n.negative then '-' :: unsigned else unsigned

def chars (l : Layout) (x : Float) : List Char := l.numeralChars (Numeral.shortest l.tie x)

end Layout

end PromptTags.Decimal
