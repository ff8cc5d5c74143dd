/-
Numbers in JSON text.

A number without a point and without an exponent is a whole number, if it fits in 64 bits. Every
other one is a double, and is computed in doubles: the digits from the left that fit in 64 bits make
a significand, and the significand is multiplied with or divided by a power of ten. Each of these
steps is rounded, so the result can be a neighbour of the nearest double. A product past the range
of doubles is no number.
-/
import PromptTags.Decimal.Numeral

set_option autoImplicit false

namespace PromptTags.Json

open Decimal (digitValue nearest ofDigits tenTo twoTo)

/-! ## 1. Numbers -/

/-- A number, as a whole number of 64 bits or as a double. -/
inductive Number where
  | whole (n : Int)
  | double (x : Float)
deriving Repr

/-- The double nearest to a whole number. -/
def nearestTo (n : Int) : Float :=
  if n < 0 then -(nearest n.natAbs 1) else nearest n.natAbs 1

def Number.toFloat : Number → Float
  | whole n => nearestTo n
  | double x => x

/-! ## 2. Powers of ten -/

def greatestPower : Nat := 308

def powerOfTen (e : Nat) : Float := nearest (tenTo e) 1

/-- A double times a power of ten, unless that is past the range of doubles. -/
def timesPower (x : Float) (e : Nat) : Option Float :=
  if e ≤ greatestPower then
    let product := x * powerOfTen e
    if product.isInf then none else some product
  else if x == 0.0 then some x
  else none

/-- A significand divided by a power of ten. Past the greatest power it takes two divisions, and two
by the greatest power leave zero. -/
def overPower (x : Float) (e : Nat) : Float :=
  if e ≤ greatestPower then x / powerOfTen e
  else if e ≤ 2 * greatestPower then x / powerOfTen greatestPower / powerOfTen (e - greatestPower)
  else 0.0

def scaled (significand : Nat) : (exponent : Int) → Option Float
  | .ofNat e => timesPower (nearest significand 1) e
  | .negSucc e => some (overPower (nearest significand 1) (e + 1))

/-! ## 3. What digits stand for -/

/-- Puts digits behind a significand as long as it stays below 2 ^ 64, and counts them. -/
def gather (significand : Nat) : List Char → Nat × Nat
  | [] => (significand, 0)
  | d :: ds =>
    let next := 10 * significand + digitValue d
    if next < twoTo 64 then
      let (s, count) := gather next ds
      (s, count + 1)
    else (significand, 0)

/-- A number as it is written: its sign, the digits in front of the point and behind it, and the
exponent if it has one. -/
structure NumberText where
  negative : Bool
  front : List Char
  behind : List Char
  exponent? : Option Int

namespace NumberText

/-- The double that a number stands for. Digits in front of the point that do not fit count for
their places only, and digits behind the point that do not fit count for nothing. -/
def double? (t : NumberText) : Option Float :=
  let (s, inFront) := gather 0 t.front
  let (s, inBehind) := gather s t.behind
  -- Digits in front that were not gathered still count as tens.
  let places : Int := ((t.front.length - inFront : Nat) : Int) - inBehind
  (scaled s (places + t.exponent?.getD 0)).map fun x => if t.negative then -x else x

/-- The whole number that a number stands for, if it is written as one and fits. There is no
negative zero among the whole numbers. -/
def whole? (t : NumberText) : Option Int :=
  let n := ofDigits t.front
  if !t.behind.isEmpty || t.exponent?.isSome then none
  else if t.negative then if 0 < n ∧ n ≤ twoTo 63 then some (-n) else none
  else if n < twoTo 64 then some n
  else none

def number? (t : NumberText) : Option Number :=
  match t.whole? with
  | some n => some (.whole n)
  | none => t.double?.map .double

end NumberText

end PromptTags.Json
