/-
TOML scalars: text in its four written forms, numbers, dates and times.

Every reader takes the text from where the scalar starts and gives what follows it. Readers of
quoted text run on a number (`fuel`) that is greater than the count of characters left.
-/
import PromptTags.Text.Digits
import PromptTags.Toml.Value

set_option autoImplicit false

namespace PromptTags.Toml

open Decimal (Numeral ofDigits)

/-! ## 1. Blanks and line ends -/

/-- Whether a character is a space or a tab. -/
def isWhite (c : Char) : Bool := c == ' ' || c == '\t'

def skipWhite (cs : List Char) : List Char := cs.dropWhile isWhite

/-- Whether a character may stand in text and in comments as it is. -/
def isPlain (c : Char) : Bool := c == '\t' || (' ' ≤ c && c != '\x7f')

/-- What follows a line break. -/
def newLine? : List Char → Option (List Char)
  | '\n' :: r => some r
  | '\r' :: '\n' :: r => some r
  | _ => none

/-! ## 2. Text -/

/-- The character that a letter stands for behind a backslash. -/
def escaped? : Char → Option Char
  | 'b' => some '\x08'
  | 't' => some '\t'
  | 'n' => some '\n'
  | 'f' => some '\x0c'
  | 'r' => some '\r'
  | '"' => some '"'
  | '\\' => some '\\'
  | _ => none

/-- A character by its number in a fixed count of hexadecimal digits. -/
def readNumbered (count : Nat) (cs : List Char) : Option (Char × List Char) :=
  if cs.length < count then none
  else
    ((Text.numberIn? 16 (cs.take count)).bind Text.charOfNumber?).map fun c => (c, cs.drop count)

def readEscape : List Char → Option (Char × List Char)
  | 'u' :: r => readNumbered 4 r
  | 'U' :: r => readNumbered 8 r
  | c :: r => (escaped? c).map fun d => (d, r)
  | [] => none

/-- Text up to the quote that ends its line; `escapes` tells whether a backslash is special. -/
def readLine (quote : Char) (escapes : Bool) :
    (fuel : Nat) → List Char → Option (List Char × List Char)
  | 0, _ => none
  | _, [] => none
  | fuel + 1, c :: r =>
    if c == quote then some ([], r)
    else if escapes && c == '\\' then
      match readEscape r with
      | some (d, r) => (readLine quote escapes fuel r).map fun (cs, r) => (d :: cs, r)
      | none => none
    else if isPlain c then (readLine quote escapes fuel r).map fun (cs, r) => (c :: cs, r)
    else none

/-- What follows white and line breaks. -/
def skipLines (cs : List Char) : (fuel : Nat) → List Char
  | 0 => cs
  | fuel + 1 =>
    match newLine? (skipWhite cs) with
    | some r => skipLines r fuel
    | none => skipWhite cs

/-- What follows an escaped line break, after the backslash. -/
def skipBreak? (cs : List Char) : Option (List Char) :=
  (newLine? (skipWhite cs)).map fun r => skipLines r r.length

/-- Text of several lines up to its three closing quotes. Up to two quotes more can stand before
them; one or two quotes elsewhere are text. -/
def readLines (quote : Char) (escapes : Bool) :
    (fuel : Nat) → List Char → Option (List Char × List Char)
  | 0, _ => none
  | _, [] => none
  | fuel + 1, c :: r =>
    if c == quote then
      -- Three quotes close the text, and two more in front of them still belong to it.
      let run := (r.takeWhile (· == quote)).length + 1
      let after := r.dropWhile (· == quote)
      if run < 3 then
        (readLines quote escapes fuel after).map fun (cs, r) => (List.replicate run quote ++ cs, r)
      else if run ≤ 5 then some (List.replicate (run - 3) quote, after)
      else none
    else if escapes && c == '\\' then
      match skipBreak? r with
      | some r => readLines quote escapes fuel r
      | none =>
        match readEscape r with
        | some (d, r) => (readLines quote escapes fuel r).map fun (cs, r) => (d :: cs, r)
        | none => none
    else
      match newLine? (c :: r) with
      | some r => (readLines quote escapes fuel r).map fun (cs, r) => ('\n' :: cs, r)
      | none =>
        if isPlain c then (readLines quote escapes fuel r).map fun (cs, r) => (c :: cs, r)
        else none

/-- Quoted text in one of its four forms. A line break right behind three opening quotes does not
count. -/
def readText : List Char → Option (List Char × List Char)
  | '"' :: '"' :: '"' :: r => readLines '"' true (r.length + 1) ((newLine? r).getD r)
  | '\'' :: '\'' :: '\'' :: r => readLines '\'' false (r.length + 1) ((newLine? r).getD r)
  | '"' :: r => readLine '"' true (r.length + 1) r
  | '\'' :: r => readLine '\'' false (r.length + 1) r
  | _ => none

/-! ## 3. Numbers -/

/-- The digits of a base at the front; single underscores can stand between two of them. -/
def moreDigits (base : Nat) : List Char → List Char × List Char
  | '_' :: c :: r =>
    if Text.isDigitIn base c then
      let (ds, r) := moreDigits base r
      (c :: ds, r)
    else ([], '_' :: c :: r)
  | c :: r =>
    if Text.isDigitIn base c then
      let (ds, r) := moreDigits base r
      (c :: ds, r)
    else ([], c :: r)
  | [] => ([], [])

/-- Digits of a base, at least one; the first character is none of the underscores. -/
def readDigits (base : Nat) : List Char → Option (List Char × List Char)
  | c :: r =>
    if Text.isDigitIn base c then
      let (ds, r) := moreDigits base r
      some (c :: ds, r)
    else none
  | [] => none

/-- A sign, if there is one, and whether it is a minus. -/
def readSign : List Char → Bool × List Char
  | '-' :: r => (true, r)
  | '+' :: r => (false, r)
  | r => (false, r)

/-- The digits of a decimal number: a zero stands alone. -/
def readWhole : List Char → Option (List Char × List Char)
  | '0' :: r => some (['0'], r)
  | r => readDigits 10 r

def greatestInteger : Nat := Decimal.twoTo 63 - 1

/-- An integer in a base other than ten, from behind its mark. -/
def readMarked (base : Nat) (cs : List Char) : Option (Value × List Char) :=
  match readDigits base cs with
  | some (ds, r) =>
    match Text.numberIn? base ds with
    | some n => if n ≤ greatestInteger then some (.integer n, r) else none
    | none => none
  | none => none

/-- An integer. -/
def readInteger : List Char → Option (Value × List Char)
  | '0' :: 'x' :: r => readMarked 16 r
  | '0' :: 'o' :: r => readMarked 8 r
  | '0' :: 'b' :: r => readMarked 2 r
  | cs =>
    let (negative, r) := readSign cs
    match readWhole r with
    | some (ds, r) =>
      let n := ofDigits ds
      if negative then
        if n ≤ greatestInteger + 1 then some (.integer (-(n : Int)), r) else none
      else if n ≤ greatestInteger then some (.integer n, r)
      else none
    | none => none

/-- The exponent of a number, from its letter on. -/
def readExponent : List Char → Option (Int × List Char)
  | c :: r =>
    if c == 'e' || c == 'E' then
      let (negative, r) := readSign r
      (readDigits 10 r).map fun (ds, r) =>
        (if negative then -(ofDigits ds : Int) else ofDigits ds, r)
    else none
  | [] => none

/-- The digits behind the point, from the point on. -/
def readPlaces : List Char → Option (List Char × List Char)
  | '.' :: r => readDigits 10 r
  | _ => none

/-- Infinity and the double that is no number, without a sign. -/
def readSpecial : List Char → Option (Float × List Char)
  | 'i' :: 'n' :: 'f' :: r => some (1.0 / 0.0, r)
  | 'n' :: 'a' :: 'n' :: r => some (0.0 / 0.0, r)
  | _ => none

/-- A number with a point or an exponent. Nothing rounds to positive infinity. -/
def readFraction (cs : List Char) : Option (Value × List Char) := do
  let (negative, r) := readSign cs
  let (ds, r) ← readWhole r
  let (places, exponent, r) ←
    match readExponent r with
    | some (e, r) => some ([], e, r)
    | none => do
      -- Without an exponent right behind it there has to be a point.
      let (places, r) ← readPlaces r
      match readExponent r with
      | some (e, r) => some (places, e, r)
      | none => some (places, 0, r)
  let n : Numeral :=
    { negative := negative, coefficient := ofDigits (ds ++ places)
      exponent := exponent - places.length }
  if n.toFloat.isInf && !negative then none else some (.float n.toFloat, r)

/-- A number with a point or an exponent, or one of the special doubles. -/
def readFloat (cs : List Char) : Option (Value × List Char) :=
  match readFraction cs with
  | some answer => some answer
  | none =>
    let (negative, r) := readSign cs
    (readSpecial r).map fun (x, r) => (.float (if negative then -x else x), r)

/-! ## 4. Dates and times -/

/-- A number of a fixed count of digits within bounds. -/
def readFixed (count least greatest : Nat) (cs : List Char) : Option (Nat × List Char) :=
  let ds := cs.take count
  if ds.length = count ∧ ds.all Char.isDigit ∧ least ≤ ofDigits ds ∧ ofDigits ds ≤ greatest then
    some (ofDigits ds, cs.drop count)
  else none

/-- What follows a given character. -/
def readMark (mark : Char) : List Char → Option (List Char)
  | c :: r => if c == mark then some r else none
  | [] => none

/-- How many days a month has. -/
def daysIn (year month : Nat) : Nat :=
  let leap := year % 4 = 0 ∧ (year % 100 ≠ 0 ∨ year % 400 = 0)
  if month = 2 then (if leap then 29 else 28)
  else if [4, 6, 9, 11].contains month then 30
  else 31

def readDate (cs : List Char) : Option (List Char) := do
  let (year, r) ← readFixed 4 0 9999 cs
  let (month, r) ← readFixed 2 1 12 (← readMark '-' r)
  let (_, r) ← readFixed 2 1 (daysIn year month) (← readMark '-' r)
  some r

/-- What follows a time of day. -/
def readTime (cs : List Char) : Option (List Char) := do
  let (_, r) ← readFixed 2 0 23 cs
  let (_, r) ← readFixed 2 0 59 (← readMark ':' r)
  let (_, r) ← readFixed 2 0 60 (← readMark ':' r)
  match r with
  | '.' :: c :: r => if c.isDigit then some (r.dropWhile Char.isDigit) else none
  | '.' :: [] => none
  | r => some r

/-- What follows the distance from universal time, which can be missing. -/
def readOffset (cs : List Char) : Option (List Char) :=
  match cs with
  | [] => some []
  | c :: r =>
    if c == 'Z' || c == 'z' then some r
    else if c == '+' || c == '-' then do
      let (_, r) ← readFixed 2 0 23 r
      let (_, r) ← readFixed 2 0 59 (← readMark ':' r)
      some r
    else some cs

/-- What follows a date, a time, or a date with a time. -/
def afterMoment (cs : List Char) : Option (List Char) :=
  match readDate cs with
  | none => readTime cs
  | some [] => some []
  | some (c :: r) =>
    -- What stands behind a date is part of it only if a time follows.
    if c == 'T' || c == 't' || c == ' ' then
      match readTime r with
      | some r => readOffset r
      | none => some (c :: r)
    else some (c :: r)

/-- A date, a time, or a date with a time. -/
def readMoment (cs : List Char) : Option (Value × List Char) :=
  (afterMoment cs).map fun r => (.moment (cs.take (cs.length - r.length)), r)

/-! ## 5. Scalars without quotes -/

def readBool : List Char → Option (Value × List Char)
  | 't' :: 'r' :: 'u' :: 'e' :: r => some (.bool true, r)
  | 'f' :: 'a' :: 'l' :: 's' :: 'e' :: r => some (.bool false, r)
  | _ => none

def readScalar (cs : List Char) : Option (Value × List Char) :=
  -- A date starts like an integer, and so does a float, so they are tried first.
  (readBool cs).or ((readMoment cs).or ((readFloat cs).or (readInteger cs)))

end PromptTags.Toml
