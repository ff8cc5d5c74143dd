/-
YAML values.

A value is what a document means once its layout, its aliases and its scalar notations are resolved.
Mappings keep the order of the document. Two values are the same key of a mapping when `same` holds:
a whole number is never the same as a fraction, and the order of a mapping does not matter.
-/
import PromptTags.Decimal.Shortest
import PromptTags.Text.Quoted

set_option autoImplicit false

namespace PromptTags.Yaml

/-! ## 1. Values -/

/-- A number, as a whole number or as a double. -/
inductive Number where
  | whole (n : Int)
  | double (x : Float)
deriving DecidableEq, Repr

/-- A YAML value. -/
inductive Value where
  | null
  | bool (b : Bool)
  | number (n : Number)
  | text (s : String)
  | list (items : List Value)
  | map (pairs : List (Value × Value))
  | tagged (tag : String) (value : Value)
deriving Repr, Inhabited

/-! ## 2. Equality of keys -/

/-- Whether two numbers are the same key. All NaNs are one. -/
def Number.same : Number → Number → Bool
  | whole a, whole b => a == b
  | double a, double b => a == b || (a.isNaN && b.isNaN)
  | _, _ => false

namespace Value

mutual
/-- Whether two values are the same key. -/
def same : Value → Value → Bool
  | null, null => true
  | bool a, bool b => a == b
  | number a, number b => a.same b
  | text a, text b => a == b
  | list as, list bs => sameItems as bs
  | map ps, map qs => ps.length == qs.length && samePairs ps qs
  | tagged s a, tagged t b => s == t && same a b
  | _, _ => false

def sameItems : List Value → List Value → Bool
  | [], [] => true
  | a :: as, b :: bs => same a b && sameItems as bs
  | _, _ => false

/-- Whether every pair of the first mapping is in the second. -/
def samePairs : List (Value × Value) → List (Value × Value) → Bool
  | [], _ => true
  | (k, v) :: ps, qs => qs.any (fun q => same k q.1 && same v q.2) && samePairs ps qs
end

/-- The value without the tags around it. -/
def untagged : Value → Value
  | tagged _ v => untagged v
  | v => v

end Value

/-! ## 3. Notation -/

/-- How a double is written as a key: without an exponent from 1e-5 to 1e15. -/
def keyLayout : Decimal.Layout :=
  { tie := .even, least := some (-5), greatest := some 15, plus := false }

def Number.text : Number → String
  | whole n => toString n
  | double x =>
    if x.isNaN then ".nan"
    else if x.isInf then (if Decimal.isNegative x then "-.inf" else ".inf")
    else String.ofList (keyLayout.chars x)

namespace Value

def scalarText? : Value → Option String
  | text s => some s
  | number n => some n.text
  | bool b => some (toString b)
  | _ => none

mutual
/-- A value with the names of its parts, for error messages. -/
def shown : Value → String
  | null => "Null"
  | bool b => "Bool(" ++ toString b ++ ")"
  | number n => "Number(" ++ n.text ++ ")"
  | text s => "String(" ++ Text.quoted s ++ ")"
  | list vs => "Sequence [" ++ ", ".intercalate (shownItems vs) ++ "]"
  | map ps => "Mapping \x7b" ++ ", ".intercalate (shownPairs ps) ++ "\x7d"
  | tagged t v => "TaggedValue \x7b tag: !" ++ t ++ ", value: " ++ shown v ++ " \x7d"

def shownItems : List Value → List String
  | [] => []
  | v :: vs => shown v :: shownItems vs

/-- The pairs of a mapping, each shown; a scalar key stands without the name of its kind. -/
def shownPairs : List (Value × Value) → List String
  | [] => []
  | (k, v) :: ps =>
    let key :=
      match k with
      | bool b => toString b
      | number n => n.text
      | text s => Text.quoted s
      | k => shown k
    (key ++ ": " ++ shown v) :: shownPairs ps
end

end Value

end PromptTags.Yaml
