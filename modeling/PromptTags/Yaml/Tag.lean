/-
The tags of nodes.

A tag is written as bytes, because percent escapes can write any byte. It is local if it starts with
an exclamation mark; a value keeps the name of a local tag, and the name is what is behind one mark
or two, or the mark itself if nothing else is there. Of the tags that YAML itself defines, four ask
for a notation of their kind.
-/

set_option autoImplicit false

namespace PromptTags.Yaml

/-- What a tag says about its node. -/
inductive Tag where
  | own (name : String)
  /-- A local tag whose name is not text in UTF-8. -/
  | unnamed
  | bool
  | int
  | float
  | null
  /-- Any other tag makes text of a scalar. -/
  | other
deriving DecidableEq, Repr

def bytesOf (s : String) : List UInt8 := s.toUTF8.toList

/-- What the tags that YAML itself defines start with. -/
def coreStart : List UInt8 := bytesOf "tag:yaml.org,2002:"

def localMark : UInt8 := 0x21

/-- The bytes behind a mark at the front. A mark alone stays. -/
def behindMark : List UInt8 → List UInt8
  | b :: r@(_ :: _) => if b == localMark then r else b :: r
  | bs => bs

namespace Tag

/-- The tag that some bytes write. -/
def ofBytes (bytes : List UInt8) : Tag :=
  if bytes.head? == some localMark then
    match String.fromUTF8? (ByteArray.mk (behindMark (behindMark bytes)).toArray) with
    | some name => own name
    | none => unnamed
  else if bytes = coreStart ++ bytesOf "bool" then bool
  else if bytes = coreStart ++ bytesOf "int" then int
  else if bytes = coreStart ++ bytesOf "float" then float
  else if bytes = coreStart ++ bytesOf "null" then null
  else other

def name? : Tag → Option String
  | own name => some name
  | _ => none

end Tag

end PromptTags.Yaml
