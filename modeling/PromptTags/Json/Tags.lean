/-
Tags, entries and tokens as JSON.

Each is an object with its fields in a fixed order, and is read from an object with its fields in
any order or from a list of them. The payload of a token is an object too, with the kind of the
token under `kind` and the tag name or the members under `value`. When the payload names its kind
first, only what the kind asks for is looked at; when it names the value first, all of the value has
to be sound.
-/
import PromptTags.Json.Reader
import PromptTags.Json.Writer
import PromptTags.Selection

set_option autoImplicit false

namespace PromptTags

open Json (Value)

/-! ## 1. Tags and entries -/

def Tag.toJson (t : Tag) : Value :=
  .ofFields [("name", .ofText t.name), ("weight", .ofFloat t.weight)]

def Tag.ofJson? (v : Value) : Option Tag :=
  match v.record? ["name", "weight"] with
  | some [some name, some weight] => do return ⟨← name.text?, ← weight.float?⟩
  | _ => none

/-- An entry as a JSON value; it has no field for a label that is not there. -/
def Entry.toJson (e : Entry) : Value :=
  let display :=
    match e.display? with
    | some d => [("display_name", Value.ofText d)]
    | none => []
  .ofFields ([("name", .ofText e.name)] ++ display ++ [("weight", .ofFloat e.weight)])

def Entry.ofJson? (v : Value) : Option Entry :=
  match v.record? ["name", "display_name", "weight"] with
  | some [some name, display?, some weight] => do
    return ⟨← name.text?, ← (display?.getD .null).optionalText?, ← weight.float?⟩
  | _ => none

/-! ## 2. Tokens -/

namespace Prompt

/-- The two kinds of tokens. -/
inductive Kind where
  | plain
  | group
deriving DecidableEq, Repr

namespace Kind

def name : Kind → String
  | plain => "plain"
  | group => "group"

def named? (name : String) : Option Kind :=
  if name = "plain" then some plain else if name = "group" then some group else none

/-- The kind at the front of a payload that is a list. Within a value that was read ahead of its
kind, a kind can also be given by its number. -/
def ofItem? (ahead : Bool) : Value → Option Kind
  | .text (some name) => named? name
  | .number (some (.whole 0)) => if ahead then some plain else none
  | .number (some (.whole 1)) => if ahead then some group else none
  | _ => none

/-- The kind in a field of a payload that is an object: its name, or an object of its own with the
name as the only field and nothing in it. Nothing is null, and within a value that was read ahead of
its kind an empty object too. -/
def ofField? (room : Nat) (ahead : Bool) : Value → Option Kind
  | .text (some name) => named? name
  | .object [(some name, .null)] => if room = 0 then none else named? name
  | .object [(some name, .object [])] => if ahead then named? name else none
  | _ => none

end Kind

namespace Token

def kind : Token → Kind
  | plain _ _ => .plain
  | group _ _ => .group

mutual
def toJson : Token → Value
  | plain name weight => payloadJson .plain (.ofText name) weight
  | group members weight => payloadJson .group (.list (membersJson members)) weight

def membersJson : List Token → List Value
  | [] => []
  | t :: ts => toJson t :: membersJson ts

/-- A token from its kind, what is in it, and its weight. -/
def payloadJson (kind : Kind) (content : Value) (weight : Float) : Value :=
  .ofFields [("value", .ofFields [("kind", .ofText kind.name), ("value", content)]),
    ("weight", .ofFloat weight)]
end

/-- The kind and the content of a payload, and whether the content came ahead of the kind. No more
than `room` lists and objects may be inside each other in what the payload holds. -/
def payload? (room : Nat) (ahead : Bool) : Value → Option (Kind × Value × Bool)
  | .list [kind, content] => (Kind.ofItem? ahead kind).map (·, content, ahead)
  | .object fields =>
    if !fields.all (·.1.isSome) then none
    else
      match fields.filter fun f => f.1 == some "kind" || f.1 == some "value" with
      | [(some "kind", kind), (some "value", content)] =>
        (Kind.ofField? room ahead kind).map (·, content, ahead)
      | [(some "value", content), (some "kind", kind)] =>
        if content.sound room then (Kind.ofField? room ahead kind).map (·, content, true) else none
      | _ => none
  | _ => none

/-- The weight, the kind and the content of a token, and whether the content came ahead of the
kind. No more than `room` lists and objects may be inside each other in what the payload holds. -/
def parts? (room : Nat) (ahead : Bool) (v : Value) : Option (Float × Kind × Value × Bool) :=
  match v.record? ["value", "weight"] with
  | some [some payload, some weight] => do return (← weight.float?, ← payload? room ahead payload)
  | _ => none

/-- The token that a JSON value holds. A token takes up two levels of the room, and the list of the
members of a group a third one. -/
def ofJsonWithin? : (room : Nat) → (ahead : Bool) → Value → Option Token
  | room + 2, ahead, v =>
    match parts? room ahead v with
    | some (weight, .plain, content, _) => content.text?.map fun name => plain name weight
    | some (weight, .group, .list members, ahead) =>
      match room with
      | 0 => none
      | room + 1 => (members.mapM (ofJsonWithin? room ahead)).map fun members => group members weight
    | _ => none
  | _, _, _ => none

def ofJson? (v : Value) : Option Token := ofJsonWithin? Json.deepest false v

end Token

end Prompt

end PromptTags
