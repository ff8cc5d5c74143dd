/-
Doubles as exact numbers, and the double nearest to a fraction.

Without its sign bit, the pattern of a finite double counts the doubles from zero upwards, and its
value is a whole number of units of 2 ^ -1074 (`units`). So everything here is arithmetic on natural
numbers: `nearestBits num den` is the pattern of the double nearest to `num / den`, a tie going to
the even pattern, and a fraction past the largest double gives the pattern of infinity.
-/

set_option autoImplicit false

namespace PromptTags.Decimal

/-! ## 1. Rounding a quotient -/

/-- The whole number nearest to `num / den`; a half goes to the even neighbour. -/
def roundDiv (num den : Nat) : Nat :=
  let q := num / den
  let r := num % den
  if 2 * r < den then q
  else if den < 2 * r then q + 1
  else q + q % 2

theorem roundDiv_mul (q den : Nat) (h : 0 < den) : roundDiv (q * den) den = q := by
  simp [roundDiv, Nat.mul_div_cancel _ h, Nat.mul_mod_left, h]

/-! ## 2. What a pattern stands for -/

def twoTo (e : Nat) : Nat := Nat.pow 2 e

def tenTo (e : Nat) : Nat := Nat.pow 10 e

/-- How many units of 2 ^ -1074 make one. -/
def unitsPerOne : Nat := twoTo 1074

def patternsPerExponent : Nat := twoTo 52

/-- The pattern of infinity, without a sign. -/
def infinityBits : Nat := 0x7FF * patternsPerExponent

/-- The value of a pattern without its sign, in units. The patterns with exponent field zero have no
leading one. -/
def units (bits : Nat) : Nat :=
  let field := bits / patternsPerExponent
  let rest := bits % patternsPerExponent
  if field = 0 then rest else (patternsPerExponent + rest) * twoTo (field - 1)

/-- The pattern of a double without its sign bit. -/
def magnitudeBits (x : Float) : Nat := x.toBits.toNat % twoTo 63

def isNegative (x : Float) : Bool := decide (twoTo 63 ≤ x.toBits.toNat)

/-- The absolute value of a finite double, in units. -/
def magnitude (x : Float) : Nat := units (magnitudeBits x)

/-! ## 3. The nearest double -/

/-- The pattern of the double nearest to `num / den`. The quotient is cut to 53 binary digits by
leaving out `shift` of them; a carry out of the 53 digits moves the pattern to the next exponent by
itself. -/
def nearestBits (num den : Nat) : Nat :=
  let exact := num * unitsPerOne
  -- Below 53 digits nothing is left out, and the pattern is the number of units.
  let shift := (exact / den).log2 + 1 - 53
  min (shift * patternsPerExponent + roundDiv exact (den * twoTo shift)) infinityBits

def nearest (num den : Nat) : Float := Float.ofBits (UInt64.ofNat (nearestBits num den))

end PromptTags.Decimal
