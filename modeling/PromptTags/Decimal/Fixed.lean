/-
A double with a fixed number of decimal places.

The exact value is rounded to the last place, a half going to the even neighbour, and written
without an exponent. The sign bit is always shown, so a small negative number can come out as
`-0.00`.
-/
import PromptTags.Decimal.Numeral

set_option autoImplicit false

namespace PromptTags.Decimal

/-- A whole number of the last place, with the point put before the last `places` digits. -/
def pointed (places n : Nat) : List Char :=
  let ds := (digits n).leftpad (places + 1) '0'
  if places = 0 then ds
  else ds.take (ds.length - places) ++ '.' :: ds.drop (ds.length - places)

/-- The absolute value of a finite double, as a whole number of the last place. -/
def lastPlaces (places : Nat) (x : Float) : Nat :=
  roundDiv (magnitude x * tenTo places) unitsPerOne

/-- The characters of a double with a fixed number of decimal places. -/
def fixedChars (places : Nat) (x : Float) : List Char :=
  if x.isNaN then "NaN".toList
  else
    let sign := if isNegative x then ['-'] else []
    sign ++ if x.isInf then "inf".toList else pointed places (lastPlaces places x)

def fixed (places : Nat) (x : Float) : String := String.ofList (fixedChars places x)

end PromptTags.Decimal
