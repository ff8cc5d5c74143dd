/-
JSON values.

A value keeps what its text says: an object keeps the order of its fields and those that occur
twice. Text can be written with one half of a surrogate pair alone, and a number can be past the
range of doubles; both are well-formed but stand for nothing, and are kept as `none`.
-/
import PromptTags.Json.Number

set_option autoImplicit false

namespace PromptTags.Json

/-- A JSON value. -/
inductive Value where
  | null
  | bool (b : Bool)
  | number (n? : Option Number)
  | text (s? : Option String)
  | list (items : List Value)
  | object (fields : List (Option String × Value))
deriving Repr, Inhabited

namespace Value

/-! ## 1. Making values -/

def ofText (s : String) : Value := text (some s)

/-- A double as a value; JSON has no notation for one that is not finite. -/
def ofFloat (x : Float) : Value := if x.isFinite then number (some (.double x)) else null

def ofFields (fields : List (String × Value)) : Value :=
  object (fields.map fun f => (some f.1, f.2))

/-! ## 2. Taking values apart -/

def text? : Value → Option String
  | text s? => s?
  | _ => none

/-- The double that a value is; every number in the range of doubles is one. -/
def float? : Value → Option Float
  | number n? => n?.map Number.toFloat
  | _ => none

def texts? : Value → Option (List String)
  | list vs => vs.mapM text?
  | _ => none

def optionalText? : Value → Option (Option String)
  | null => some none
  | v => v.text?.map some

/-- What a field holds: `none` when it is there twice, and `some none` when it is not there. -/
def field? (name : String) (fields : List (Option String × Value)) : Option (Option Value) :=
  match fields.filter (·.1 == some name) with
  | [] => some none
  | [f] => some (some f.2)
  | _ => none

/-- What the fields of a record hold, for an object or for a list of the fields in order. An object
may hold other fields, but none of these twice; a list can be too short but not too long. -/
def record? (names : List String) : Value → Option (List (Option Value))
  | object fields =>
    if fields.all (·.1.isSome) then names.mapM fun name => field? name fields else none
  | list vs =>
    if vs.length ≤ names.length then
      some (names.zipIdx.map fun name => vs[name.2]?)
    else none
  | _ => none

/-! ## 3. Sound values -/

mutual
/-- Whether all text stands for characters, all numbers are in the range of doubles, and no more
than `room` lists and objects are inside each other. -/
def sound : (room : Nat) → Value → Bool
  | _, null => true
  | _, bool _ => true
  | _, number n? => n?.isSome
  | _, text s? => s?.isSome
  | 0, list _ => false
  | room + 1, list vs => soundItems room vs
  | 0, object _ => false
  | room + 1, object fs => soundFields room fs

def soundItems : (room : Nat) → List Value → Bool
  | _, [] => true
  | room, v :: vs => sound room v && soundItems room vs

def soundFields : (room : Nat) → List (Option String × Value) → Bool
  | _, [] => true
  | room, (name, v) :: fs => name.isSome && sound room v && soundFields room fs
end

end Value

/-- How deep lists and objects can be inside each other. -/
def deepest : Nat := 127

end PromptTags.Json
