/-
The library: the tag files of a directory, read when they are asked for.

The tree of files is fixed when the library is opened. Only its files are ever read, so no path
leads out of the directory. A file that has been read once is not read again, whatever happens to
it on the disk; a file that could not be read is tried again each time.
-/
import PromptTags.Catalog.TagFile
import PromptTags.Catalog.Tree

set_option autoImplicit false

namespace PromptTags

/-! ## 1. Faults -/

/-- Why the library cannot answer. -/
inductive LibraryFault where
  | missingRoot (root : String)
  | badPath (path : String)
  | notListed (path : String)
  /-- The path is the one on the disk. -/
  | unreadable (path : String) (fault : FileFault)
  | undecodable (path : String) (fault : TagFileFault)

namespace LibraryFault

def message : LibraryFault → String
  | missingRoot root => "catalog data directory not found: " ++ root
  | badPath path => "invalid tag file path '" ++ path ++ "'"
  | notListed path => "tag file not in catalog: " ++ path
  | unreadable path f => "failed to read " ++ path ++ ": " ++ f.message
  | undecodable path f => "failed to decode tag file " ++ path ++ ": " ++ f.message

/-- A fault with the names of its parts. -/
def shown : LibraryFault → String
  | missingRoot root => "MissingDataDir(" ++ Text.quoted root ++ ")"
  | badPath path => "InvalidPath(" ++ Text.quoted path ++ ")"
  | notListed path => "NotFound(" ++ Text.quoted path ++ ")"
  | unreadable path f =>
    "Io \x7b path: " ++ Text.quoted path ++ ", source: " ++ f.shown ++ " \x7d"
  | undecodable path f =>
    "Decode \x7b path: " ++ Text.quoted path ++ ", reason: " ++ Text.quoted f.message ++ " \x7d"

end LibraryFault

/-! ## 2. The library -/

/-- The tag files below a directory, and what has been read of them. -/
structure Library where
  root : String
  tree : TagTree
  /-- The records of the files that have been read, by path. -/
  loaded : List (String × Catalog) := []
deriving Inhabited

namespace Library

def ofRoot (d : Disk) (root : String) : Except LibraryFault Library :=
  match TagTree.scan? d root with
  | some tree => .ok { root := root, tree := tree }
  | none => .error (.missingRoot root)

/-- Whether a path is that of a tag file of the library. -/
def checkPath (l : Library) (path : String) : Except LibraryFault Unit :=
  if !Path.isDescending path then .error (.badPath path)
  else if !l.tree.containsFile path then .error (.notListed path)
  else .ok ()

def diskPath (l : Library) (path : String) : String := Path.join l.root path

/-- Reads a tag file from the disk. -/
def read (l : Library) (d : Disk) (path : String) : Except LibraryFault Catalog := do
  l.checkPath path
  match d.readText (l.diskPath path) with
  | .error f => .error (.unreadable (l.diskPath path) f)
  | .ok text =>
    match TagFile.decode text with
    | .ok records => .ok records
    | .error f => .error (.undecodable path f)

/-- The records of a tag file, from an earlier reading if there was one. -/
def tags (l : Library) (d : Disk) (path : String) : Except LibraryFault Catalog × Library :=
  match l.loaded.lookup path with
  | some records => (.ok records, l)
  | none =>
    match l.read d path with
    | .ok records => (.ok records, { l with loaded := (path, records) :: l.loaded })
    | .error f => (.error f, l)

/-- The records of several tag files in order; files that cannot be read are left out. -/
def tagsOfAll (l : Library) (d : Disk) : List String → Catalog × Library
  | [] => ([], l)
  | path :: paths =>
    let (answer, l) := l.tags d path
    let (others, l) := l.tagsOfAll d paths
    (answer.toOption.getD [] ++ others, l)

def allTags (l : Library) (d : Disk) : Catalog × Library := l.tagsOfAll d l.tree.files

/-- The catalog that names are looked up in: all records in browse order. -/
def index (l : Library) (d : Disk) : Catalog × Library := l.allTags d

end Library

end PromptTags
