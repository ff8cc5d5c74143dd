/-
What a scalar means.

A quoted scalar is text. For an unquoted one the rules are those of YAML 1.2's core schema, with
three words each for the truth values and a few spellings of null. A run of digits with a leading
zero is text. Whole numbers from -2^63 up to 2^64 - 1 are numbers; larger ones that still fit in 128
bits have no meaning, and one beyond even those is read as a double.
-/
import PromptTags.Decimal.Numeral
import PromptTags.Text.Digits
import PromptTags.Yaml.Tag
import PromptTags.Yaml.Value

set_option autoImplicit false

namespace PromptTags.Yaml

open Decimal (Numeral ofDigits twoTo)
open Text (numberIn?)

/-! ## 1. Words -/

def isNullWord (s : String) : Bool := ["null", "Null", "NULL", "~"].contains s

def boolWord? (s : String) : Option Bool :=
  if ["true", "True", "TRUE"].contains s then some true
  else if ["false", "False", "FALSE"].contains s then some false
  else none

/-! ## 2. Whole numbers -/

/-- The number behind one of the marks `0x`, `0o` and `0b`. -/
def marked? : List Char → Option Nat
  | '0' :: 'x' :: r => numberIn? 16 r
  | '0' :: 'o' :: r => numberIn? 8 r
  | '0' :: 'b' :: r => numberIn? 2 r
  | _ => none

/-- Digits with a leading zero, which are no number. -/
def hasLeadingZero (cs : List Char) : Bool :=
  let ds :=
    match cs with
    | '-' :: r => r
    | '+' :: r => r
    | r => r
  match ds with
  | '0' :: r@(_ :: _) => r.all Char.isDigit
  | _ => false

/-- A whole number in one of its notations, whatever its size. -/
def wholeNumber? (cs : List Char) : Option Int :=
  match cs with
  | '-' :: r =>
    match marked? r with
    | some n => some (-n)
    | none => if hasLeadingZero cs then none else (numberIn? 10 r).map fun n => -(n : Int)
  | _ =>
    let r :=
      match cs with
      | '+' :: r => r
      | r => r
    match marked? r with
    | some n => some n
    | none => if hasLeadingZero cs then none else (numberIn? 10 r).map fun n => (n : Int)

/-- What the size of a whole number makes of it. -/
inductive Magnitude where
  | usable
  | unusable
  | beyond

def magnitudeOf (n : Int) : Magnitude :=
  if -(twoTo 63 : Int) ≤ n ∧ n < twoTo 64 then .usable
  else if -(twoTo 127 : Int) ≤ n ∧ n < twoTo 128 then .unusable
  else .beyond

/-! ## 3. Doubles -/

/-- A decimal number with an optional point and exponent, its sign taken off before. -/
def decimal? (negative : Bool) (cs : List Char) : Option Numeral :=
  let whole := cs.takeWhile Char.isDigit
  let (fraction, rest) :=
    match cs.dropWhile Char.isDigit with
    | '.' :: r => (r.takeWhile Char.isDigit, r.dropWhile Char.isDigit)
    | r => ([], r)
  if whole.isEmpty && fraction.isEmpty then none
  else
    let number (e : Int) : Numeral :=
      { negative, coefficient := ofDigits (whole ++ fraction), exponent := e - fraction.length }
    match rest with
    | [] => some (number 0)
    | c :: r =>
      if c = 'e' ∨ c = 'E' then
        let (down, ds) :=
          match r with
          | '-' :: ds => (true, ds)
          | '+' :: ds => (false, ds)
          | ds => (false, ds)
        if ds.isEmpty || !ds.all Char.isDigit then none
        else
          let e : Int := ofDigits ds
          some (number (if down then -e else e))
      else none

/-- A double in one of its notations. A decimal past the range of doubles is none. -/
def double? (s : String) : Option Float :=
  let infinity : Float := 1.0 / 0.0
  if [".inf", ".Inf", ".INF", "+.inf", "+.Inf", "+.INF"].contains s then some infinity
  else if ["-.inf", "-.Inf", "-.INF"].contains s then some (-infinity)
  else if [".nan", ".NaN", ".NAN"].contains s then some (0.0 / 0.0)
  else
    let numeral? :=
      match s.toList with
      | '-' :: r => decimal? true r
      | '+' :: r => decimal? false r
      | r => decimal? false r
    numeral?.bind fun n =>
      let x := n.toFloat
      if x.isFinite then some x else none

/-! ## 4. Scalars -/

/-- The number that text writes as a whole number. Nothing is found in text that is none; text
that is one of unusable size has no meaning at all (`some none`). -/
def integer? (s : String) : Option (Option Value) :=
  match wholeNumber? s.toList with
  | none => none
  | some n =>
    match magnitudeOf n with
    | .usable => some (some (.number (.whole n)))
    | .unusable => some none
    | .beyond => none

/-- The value of an unquoted scalar without a tag, if it has one. -/
def plainValue (s : String) : Option Value :=
  if s.isEmpty || isNullWord s then some .null
  else
    match boolWord? s, integer? s with
    | some b, _ => some (.bool b)
    | none, some v => v
    | none, none =>
      if hasLeadingZero s.toList then some (.text s)
      else
        match double? s with
        | some x => some (.number (.double x))
        | none => some (.text s)

/-- The value of a scalar, if it has one. The core tags ask for a notation of their kind, quoted or
not; a local tag stays on the value; any other tag makes text. -/
def scalarValue (tag? : Option Tag) (plain : Bool) (s : String) : Option Value :=
  let untagged := if plain then plainValue s else some (.text s)
  match tag? with
  | none => untagged
  | some (.own name) => untagged.map (.tagged name)
  | some .unnamed => untagged
  | some .bool => (boolWord? s).map .bool
  | some .int => (integer? s).join
  | some .float => (double? s).map fun x => .number (.double x)
  | some .null => if isNullWord s then some .null else none
  | some .other => some (.text s)

end PromptTags.Yaml
