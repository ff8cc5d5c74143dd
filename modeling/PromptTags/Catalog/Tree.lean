/-
The tree of tag files below a directory.

A tree holds the files whose names end in `.yaml`, and the directories with such a file somewhere
below them. Entries are sorted by name, code point by code point. Every entry knows its path from
the top of the tree.

Files are listed, and the outline is written, in browse order: at each level the directories come
first with all that is in them, and then the files.
-/
import PromptTags.Files.Disk

set_option autoImplicit false

namespace PromptTags

/-! ## 1. Trees -/

/-- A tag file, or a directory of them. -/
inductive TreeItem where
  | file (path : String)
  | directory (path : String) (children : List (String × TreeItem))
deriving Repr, Inhabited

/-- The entries of one level, sorted by name. -/
abbrev TagTree := List (String × TreeItem)

namespace TreeItem

def path : TreeItem → String
  | file p => p
  | directory p _ => p

def filePath? : TreeItem → Option String
  | file p => some p
  | directory _ _ => none

end TreeItem

namespace TagTree

/-- Puts an entry in its place among sorted ones, and in place of one with its name. -/
def insert (name : String) (item : TreeItem) : TagTree → TagTree
  | [] => [(name, item)]
  | e :: es =>
    if name < e.1 then (name, item) :: e :: es
    else if e.1 < name then e :: insert name item es
    else (name, item) :: es

/-! ## 2. Scanning -/

/-- How the names of tag files end. -/
def tagFileEnding : String := ".yaml"

/-- A name without the ending of tag files, for a name that has it. -/
def stem? (name : String) : Option String :=
  if tagFileEnding.toList.isSuffixOf name.toList then
    some (String.ofList (name.toList.take (name.toList.length - tagFileEnding.toList.length)))
  else none

mutual
/-- The entry for something on the disk, if it belongs into a tree. -/
def scanNode (path name : String) : FileNode → Option TreeItem
  | .file _ => if (stem? name).isSome then some (.file path) else none
  | .directory es =>
    let children := scanEntries path es
    if children.isEmpty then none else some (.directory path children)

/-- The tree of what is in a directory. -/
def scanEntries (path : String) : List (String × FileNode) → TagTree
  | [] => []
  | (name, n) :: es =>
    match scanNode (Path.within path name) name n with
    | some item => insert name item (scanEntries path es)
    | none => scanEntries path es
end

/-- The tree below a directory of the disk, if it is one. -/
def scan? (d : Disk) (root : String) : Option TagTree :=
  match d.find root with
  | .ok (.directory es) => some (scanEntries "" es)
  | _ => none

/-! ## 3. Looking up -/

/-- Whether names lead down to a tag file. -/
def leadsToFile : List String → TagTree → Bool
  | [], _ => false
  | [name], t =>
    match t.lookup name with
    | some (.file _) => true
    | _ => false
  | name :: names, t =>
    match t.lookup name with
    | some (.directory _ children) => leadsToFile names children
    | _ => false

/-- Whether a path names a tag file of the tree. Every slash separates two names. -/
def containsFile (t : TagTree) (path : String) : Bool := leadsToFile (Path.parts path) t

/-! ## 4. Browse order -/

def ownFiles (t : TagTree) : List String := t.filterMap fun e => e.2.filePath?

mutual
def filesBelow : TreeItem → List String
  | .file _ => []
  | .directory _ children => filesInDirectories children ++ ownFiles children

/-- The tag files below the directories of a level, in browse order. -/
def filesInDirectories : List (String × TreeItem) → List String
  | [] => []
  | (_, item) :: rest => filesBelow item ++ filesInDirectories rest
end

def files (t : TagTree) : List String := filesInDirectories t ++ ownFiles t

/-! ## 5. The outline -/

/-- A line of the outline; every level is indented by two spaces. -/
def outlineLine (depth : Nat) (text : String) : String :=
  String.ofList (List.replicate (2 * depth) ' ') ++ text ++ "\n"

/-- The lines of the tag files of one level, each without its ending. -/
def fileLines (depth : Nat) (t : TagTree) : List String :=
  t.filterMap fun e => e.2.filePath?.map fun _ => outlineLine depth ((stem? e.1).getD e.1)

mutual
/-- The lines of an entry and of everything below it; a file has none here. -/
def directoryLines (depth : Nat) (name : String) : TreeItem → List String
  | .file _ => []
  | .directory _ children =>
    outlineLine depth (name ++ "/") ::
      (linesOfDirectories (depth + 1) children ++ fileLines (depth + 1) children)

def linesOfDirectories (depth : Nat) : List (String × TreeItem) → List String
  | [] => []
  | (name, item) :: rest => directoryLines depth name item ++ linesOfDirectories depth rest
end

/-- The tree as indented lines in browse order. Directories end in a slash, files are without their
ending. -/
def outline (t : TagTree) : String := String.join (linesOfDirectories 0 t ++ fileLines 0 t)

end TagTree

end PromptTags
