/-
Reading JSON text.

The text is one value with nothing but white around it. Text in quotes is read in two steps: first
into characters and escaped code units, and then the code units are joined, two halves of a
surrogate pair into one character. Numbers have no superfluous zeros in front.
-/
import PromptTags.Json.Value
import PromptTags.Text.Digits

set_option autoImplicit false

namespace PromptTags.Json

/-! ## 1. Text -/

def isSpace (c : Char) : Bool := c == ' ' || c == '\t' || c == '\n' || c == '\r'

/-- The text from its first character that is no white. -/
def skipSpace (cs : List Char) : List Char := cs.dropWhile isSpace

/-- A piece of quoted text. -/
inductive Piece where
  | char (c : Char)
  /-- A code unit of sixteen bits, written by its number. -/
  | unit (n : Nat)
deriving Repr

/-- The character that a letter stands for behind a backslash. -/
def escaped? : Char → Option Char
  | '"' => some '"'
  | '\\' => some '\\'
  | '/' => some '/'
  | 'b' => some '\x08'
  | 'f' => some '\x0c'
  | 'n' => some '\n'
  | 'r' => some '\r'
  | 't' => some '\t'
  | _ => none

/-- The pieces of quoted text, from behind its opening quote to its closing one. -/
def readPieces : List Char → Option (List Piece × List Char)
  | [] => none
  | '"' :: r => some ([], r)
  | '\\' :: 'u' :: a :: b :: c :: d :: r =>
    match Text.numberIn? 16 [a, b, c, d] with
    | some n => (readPieces r).map fun (ps, r) => (.unit n :: ps, r)
    | none => none
  | '\\' :: e :: r =>
    match escaped? e with
    | some c => (readPieces r).map fun (ps, r) => (.char c :: ps, r)
    | none => none
  | c :: r =>
    if c < ' ' || c == '\\' then none
    else (readPieces r).map fun (ps, r) => (.char c :: ps, r)

def isHighHalf (n : Nat) : Bool := 0xD800 ≤ n && n < 0xDC00

def isLowHalf (n : Nat) : Bool := 0xDC00 ≤ n && n < 0xE000

/-- The characters that pieces stand for; a half of a pair alone stands for none. -/
def joinPieces : List Piece → Option (List Char)
  | [] => some []
  | .char c :: ps => (joinPieces ps).map (c :: ·)
  | .unit m :: .unit n :: ps =>
    if isHighHalf m && isLowHalf n then
      (joinPieces ps).map (Char.ofNat (0x10000 + (m - 0xD800) * 0x400 + (n - 0xDC00)) :: ·)
    else if isHighHalf m || isLowHalf m then none
    else (joinPieces (.unit n :: ps)).map (Char.ofNat m :: ·)
  | .unit m :: ps =>
    if isHighHalf m || isLowHalf m then none else (joinPieces ps).map (Char.ofNat m :: ·)

/-- Quoted text from behind its opening quote, and what follows it. -/
def readText (cs : List Char) : Option (Option String × List Char) :=
  (readPieces cs).map fun (ps, r) => ((joinPieces ps).map String.ofList, r)

/-! ## 2. Numbers -/

/-- The digits at the front, at least one, and what follows them. -/
def readDigits (cs : List Char) : Option (List Char × List Char) :=
  let ds := cs.takeWhile Char.isDigit
  if ds.isEmpty then none else some (ds, cs.dropWhile Char.isDigit)

/-- The digits behind the point; there are none without a point. -/
def readPlaces : List Char → Option (List Char × List Char)
  | '.' :: r => readDigits r
  | cs => some ([], cs)

/-- The exponent, if there is one. -/
def readExponent (cs : List Char) : Option (Option Int × List Char) :=
  let signed (negative : Bool) (cs : List Char) : Option (Option Int × List Char) :=
    (readDigits cs).map fun (ds, r) =>
      let n : Int := Decimal.ofDigits ds
      (some (if negative then -n else n), r)
  match cs with
  | c :: r =>
    if c == 'e' || c == 'E' then
      match r with
      | '-' :: r => signed true r
      | '+' :: r => signed false r
      | r => signed false r
    else some (none, cs)
  | [] => some (none, [])

/-- A number without its sign. -/
def readUnsigned (negative : Bool) (cs : List Char) : Option (Value × List Char) := do
  let (front, r) ← readDigits cs
  if front.head? == some '0' && front.length != 1 then none
  let (behind, r) ← readPlaces r
  let (exponent?, r) ← readExponent r
  let t : NumberText := { negative, front, behind, exponent? }
  some (.number t.number?, r)

def readNumber : List Char → Option (Value × List Char)
  | '-' :: r => readUnsigned true r
  | cs => readUnsigned false cs

/-! ## 3. Values -/

mutual
/-- The value at the front, and what follows it. Each step into a list or an object and each step
along it takes one of `fuel`. -/
def readValue : (fuel : Nat) → List Char → Option (Value × List Char)
  | 0, _ => none
  | fuel + 1, cs =>
    match skipSpace cs with
    | '"' :: r => (readText r).map fun (s?, r) => (.text s?, r)
    | '[' :: r =>
      match skipSpace r with
      | ']' :: r => some (.list [], r)
      | r => (readItems fuel r).map fun (vs, r) => (.list vs, r)
    | '\x7b' :: r =>
      match skipSpace r with
      | '\x7d' :: r => some (.object [], r)
      | r => (readFields fuel r).map fun (fs, r) => (.object fs, r)
    | 'n' :: 'u' :: 'l' :: 'l' :: r => some (.null, r)
    | 't' :: 'r' :: 'u' :: 'e' :: r => some (.bool true, r)
    | 'f' :: 'a' :: 'l' :: 's' :: 'e' :: r => some (.bool false, r)
    | r => readNumber r

/-- The items of a list up to its end. -/
def readItems : (fuel : Nat) → List Char → Option (List Value × List Char)
  | 0, _ => none
  | fuel + 1, cs =>
    match readValue fuel cs with
    | none => none
    | some (v, r) =>
      match skipSpace r with
      | ',' :: r => (readItems fuel r).map fun (vs, r) => (v :: vs, r)
      | ']' :: r => some ([v], r)
      | _ => none

/-- The fields of an object up to its end. -/
def readFields : (fuel : Nat) → List Char → Option (List (Option String × Value) × List Char)
  | 0, _ => none
  | fuel + 1, cs =>
    match skipSpace cs with
    | '"' :: r =>
      match readText r with
      | none => none
      | some (name, r) =>
        match skipSpace r with
        | ':' :: r =>
          match readValue fuel r with
          | none => none
          | some (v, r) =>
            match skipSpace r with
            | ',' :: r => (readFields fuel r).map fun (fs, r) => ((name, v) :: fs, r)
            | '\x7d' :: r => some ([(name, v)], r)
            | _ => none
        | _ => none
    | _ => none
end

/-- The value of a JSON text. Two steps for each character are always enough. -/
def read? (text : String) : Option Value :=
  match readValue (2 * text.toList.length + 2) text.toList with
  | some (v, r) => if (skipSpace r).isEmpty then some v else none
  | none => none

end PromptTags.Json
