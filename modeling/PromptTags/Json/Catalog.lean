/-
Catalog records and trees of tag files as JSON.

A record is an object with its aliases under `alias`; the fields of a record that are missing are
empty. An entry of a tree is an object that names its type, and a directory holds its entries in an
object of its own, sorted by name. An entry can also be read from a list of its type and its fields.
-/
import PromptTags.Catalog.Tree
import PromptTags.Catalog.Record
import PromptTags.Json.Reader
import PromptTags.Json.Writer

set_option autoImplicit false

namespace PromptTags

open Json (Value)

/-! ## 1. Records -/

namespace Record

/-- A record as a JSON value; it has no field for what is not there. -/
def toJson (r : Record) : Value :=
  let optional (name : String) (s? : Option String) : List (String × Value) :=
    match s? with
    | some s => [(name, .ofText s)]
    | none => []
  .ofFields ([("name", .ofText r.name), ("alias", .list (r.aliases.map .ofText))] ++
    optional "description" r.description? ++ optional "wikiURL" r.wiki?)

/-- The record that a JSON value holds. Null stands for no description and for no page, but not for
no name and not for no aliases. -/
def ofJson? (v : Value) : Option Record :=
  match v.record? ["name", "alias", "description", "wikiURL"] with
  | some [name?, aliases?, description?, wiki?] => do
    return {
      name := ← (name?.getD (.ofText "")).text?
      aliases := ← (aliases?.getD (.list [])).texts?
      description? := ← (description?.getD .null).optionalText?
      wiki? := ← (wiki?.getD .null).optionalText? }
  | _ => none

end Record

/-! ## 2. Trees -/

namespace TreeItem

mutual
def toJson : TreeItem → Value
  | file path => .ofFields [("type", .ofText "file"), ("path", .ofText path)]
  | directory path children =>
    .ofFields [("type", .ofText "directory"), ("path", .ofText path),
      ("children", .ofFields (childrenJson children))]

def childrenJson : List (String × TreeItem) → List (String × Value)
  | [] => []
  | (name, item) :: rest => (name, toJson item) :: childrenJson rest
end

/-- Whether a value names the type of directories, or else that of files. Inside of a directory, a
type can also be given by its number. -/
def isDirectory? (inside : Bool) : Value → Option Bool
  | .text (some "directory") => some true
  | .text (some "file") => some false
  | .number (some (.whole 0)) => if inside then some true else none
  | .number (some (.whole 1)) => if inside then some false else none
  | _ => none

/-- The type, the path and the children that an entry gives, where a file gives none. A list gives
them in this order and nothing else; an object may have other fields, but none of these twice. -/
def parts? (inside : Bool) : Value → Option (Value × Option Value)
  | .object fields => do
    let directory ← isDirectory? inside (← (← Value.field? "type" fields))
    let path ← (← Value.field? "path" fields)
    if directory then return (path, some (← (← Value.field? "children" fields)))
    else return (path, none)
  | .list [kind, path] => do
    if ← isDirectory? inside kind then none else return (path, none)
  | .list [kind, path, children] => do
    if ← isDirectory? inside kind then return (path, some children) else none
  | _ => none

/-- The entry that a JSON value holds; what is in it is known to be sound. The children of a
directory take up a second level of the room. Of children of the same name the last one stays. -/
def ofSound? : (room : Nat) → (inside : Bool) → Value → Option TreeItem
  | 0, _, _ => none
  | room + 1, inside, v =>
    match parts? inside v with
    | some (path, none) => path.text?.map file
    | some (path, some (.object children)) =>
      match room with
      | 0 => none
      | room + 1 => do
        let path ← path.text?
        let items ← children.mapM fun c => do return (← c.1, ← ofSound? room true c.2)
        return .directory path (items.foldl (fun t c => TagTree.insert c.1 c.2 t) [])
    | _ => none

/-- The entry of a tree that a JSON value holds. What gives the type can only be a name here; all
else has to be sound. -/
def ofJson? (v : Value) : Option TreeItem :=
  let soundParts : Bool :=
    match v with
    | .object fields =>
      fields.all fun f =>
        f.1.isSome && (f.1 == some "type" || f.2.sound (Json.deepest - 1))
    | .list vs => (vs.drop 1).all fun v => v.sound (Json.deepest - 1)
    | _ => false
  if soundParts then ofSound? Json.deepest false v else none

end TreeItem

def TagTree.toJson (t : TagTree) : Value := .ofFields (TreeItem.childrenJson t)

end PromptTags
