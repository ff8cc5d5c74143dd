/-
Tag files.

A tag file is a YAML document in one of three layouts: a list of records, a mapping from prompt tags
to records, or a mapping with either of those under `content`. In a mapping of tags, the key becomes
the first alias of its record, and nothing at all stands for a record without fields.

The first fault in document order is the one that is reported.
-/
import PromptTags.Catalog.Record
import PromptTags.Yaml.Document

set_option autoImplicit false

namespace PromptTags

open Yaml (Value)

/-! ## 1. What can be wrong -/

/-- What a place in a record asks for. -/
inductive Wanted where
  | record
  | text
  | list
  | fieldName
deriving DecidableEq, Repr

/-- Why a value is no record. -/
inductive RecordFault where
  | unexpected (found : Value) (wanted : Wanted)
  | repeated (field : String)
deriving Repr

/-- Why a document is no tag file. -/
inductive TagFileFault where
  /-- The text is not one YAML document. -/
  | unreadable
  | noTags (found : Value)
  | keyNotScalar (key : Value)
  /-- A fault in a record, and the key that it stands under in a mapping. -/
  | badRecord (key? : Option String) (fault : RecordFault)
deriving Repr

/-- How a double is written in an error message: never with an exponent. -/
def messageLayout : Decimal.Layout :=
  { tie := .greater, least := none, greatest := none, plus := false }

def messageDouble (x : Float) : String :=
  if x.isNaN then "NaN"
  else if x.isInf then (if Decimal.isNegative x then "-inf" else "inf")
  else String.ofList (messageLayout.chars x)

def backquoted (s : String) : String := "\x60" ++ s ++ "\x60"

namespace Wanted

def message : Wanted → String
  | record => "struct CatalogTag"
  | text => "a string"
  | list => "a sequence"
  | fieldName => "field identifier"

end Wanted

namespace RecordFault

/-- The value that was found instead, in an error message. -/
def foundMessage : Value → String
  | .null => "unit value"
  | .bool b => "boolean " ++ backquoted (toString b)
  | .number (.whole n) => "integer " ++ backquoted (toString n)
  | .number (.double x) => "floating point " ++ backquoted (messageDouble x)
  | .text s => "string " ++ Text.quoted s
  | .list _ => "sequence"
  | .map _ => "map"
  | .tagged _ _ => "enum"

def message : RecordFault → String
  | unexpected v w => "invalid type: " ++ foundMessage v ++ ", expected " ++ w.message
  | repeated f => "duplicate field " ++ backquoted f

end RecordFault

namespace TagFileFault

/-- The kind of a value that holds no tags, in an error message. -/
def kindMessage : Value → String
  | .null => "null"
  | .bool _ => "a boolean"
  | .number _ => "a number"
  | .text _ => "a string"
  | .list _ => "a list"
  | .map _ => "a map"
  | .tagged _ _ => "a tagged value"

def message : TagFileFault → String
  | unreadable => "not a single YAML document"
  | noTags v => "expected a list or a map of tags, found " ++ kindMessage v
  | keyNotScalar k => "non-scalar tag key: " ++ k.shown
  | badRecord none f => f.message
  | badRecord (some key) f => "tag '" ++ key ++ "': " ++ f.message

end TagFileFault

/-! ## 2. Records -/

def textOf (v : Value) : Except RecordFault String :=
  match v.untagged with
  | .text s => .ok s
  | other => .error (.unexpected other .text)

def optionalTextOf : Value → Except RecordFault (Option String)
  | .null => .ok none
  | v => (textOf v).map some

/-- A list of texts; nothing at all is an empty one. -/
def textsOf (v : Value) : Except RecordFault (List String) :=
  match v.untagged with
  | .list vs => vs.mapM textOf
  | .null => .ok []
  | other => .error (.unexpected other .list)

/-- The fields of a record that have been read. -/
structure Fields where
  name? : Option String := none
  aliases? : Option (List String) := none
  description? : Option (Option String) := none
  wiki? : Option (Option String) := none

/-- Reads one field; a key that names none is passed over with its value. -/
def Fields.read (f : Fields) (key value : Value) : Except RecordFault Fields :=
  match key.untagged with
  | .text "name" =>
    if f.name?.isSome then .error (.repeated "name")
    else (textOf value).map fun s => { f with name? := some s }
  | .text "alias" =>
    if f.aliases?.isSome then .error (.repeated "alias")
    else (textsOf value).map fun ss => { f with aliases? := some ss }
  | .text "description" =>
    if f.description?.isSome then .error (.repeated "description")
    else (optionalTextOf value).map fun s => { f with description? := some s }
  | .text "wikiURL" =>
    if f.wiki?.isSome then .error (.repeated "wikiURL")
    else (optionalTextOf value).map fun s => { f with wiki? := some s }
  | .text _ => .ok f
  | other => .error (.unexpected other .fieldName)

/-- The record with these fields; the others are empty. -/
def Fields.record (f : Fields) : Record :=
  { name := f.name?.getD "", aliases := f.aliases?.getD []
    description? := f.description?.join, wiki? := f.wiki?.join }

/-- The record that a value holds, tags around it aside. -/
def Record.ofValue (v : Value) : Except RecordFault Record :=
  match v.untagged with
  | .map ps => (ps.foldlM (fun f p => Fields.read f p.1 p.2) ({} : Fields)).map Fields.record
  | .null => .ok {}
  | other => .error (.unexpected other .record)

/-! ## 3. Tag files -/

namespace TagFile

/-- The key under which the tags may stand. -/
def contentKey : String := "content"

def isContentKey (k : Value) : Bool :=
  match k with
  | .text s => s == contentKey
  | _ => false

/-- The value that holds the tags: what a mapping has under the content key, if anything, else the
whole document. -/
def contentOf (document : Value) : Value :=
  match document with
  | .map ps => ((ps.find? fun p => isContentKey p.1).map (·.2)).getD document
  | v => v

/-- The record of one pair of a mapping, with the key as its first alias. -/
def taggedRecord (p : Value × Value) : Except TagFileFault Record :=
  match p.1.scalarText? with
  | none => .error (.keyNotScalar p.1)
  | some key =>
    match Record.ofValue p.2 with
    | .ok r => .ok { r with aliases := key :: r.aliases }
    | .error f => .error (.badRecord (some key) f)

def listedRecord (v : Value) : Except TagFileFault Record :=
  match Record.ofValue v with
  | .ok r => .ok r
  | .error f => .error (.badRecord none f)

def recordsOf : Value → Except TagFileFault Catalog
  | .null => .ok []
  | .list vs => vs.mapM listedRecord
  | .map ps => ps.mapM taggedRecord
  | v => .error (.noTags v)

def ofDocument (document : Value) : Except TagFileFault Catalog := recordsOf (contentOf document)

def decode (text : String) : Except TagFileFault Catalog :=
  match Yaml.load? text with
  | none => .error .unreadable
  | some document => ofDocument document

end TagFile

end PromptTags
