/-
Files and directories.

A disk is a tree of named entries together with the directory from which relative paths start. A
path is followed part by part, and everything that a part is looked up in has to be a directory, so
a slash behind the name of a file is a fault. Names and paths can also be too long. Nothing else can
go wrong: there are no links and no permissions.

Reading changes nothing. Writing replaces a file as a whole or makes a new one in a directory that
is there; when it fails the disk is as it was.
-/
import PromptTags.Files.Path

set_option autoImplicit false

namespace PromptTags

/-! ## 1. Faults -/

/-- Why a file cannot be read or written. -/
inductive FileFault where
  | missing
  | notDirectory
  | isDirectory
  /-- The bytes are not text in UTF-8. -/
  | notText
  /-- The path holds the null character, which no name can hold. -/
  | badName
  | longName
deriving DecidableEq, Repr

namespace FileFault

/-- What a fault is called, the name of its kind, and its number if it has one. -/
def account : FileFault → String × String × Option Nat
  | missing => ("No such file or directory", "NotFound", some 2)
  | notDirectory => ("Not a directory", "NotADirectory", some 20)
  | isDirectory => ("Is a directory", "IsADirectory", some 21)
  | notText => ("stream did not contain valid UTF-8", "InvalidData", none)
  | badName => ("file name contained an unexpected NUL byte", "InvalidInput", none)
  | longName => ("File name too long", "InvalidFilename", some 36)

def message (f : FileFault) : String :=
  match f.account with
  | (text, _, some code) => text ++ " (os error " ++ toString code ++ ")"
  | (text, _, none) => text

/-- A fault with the names of its parts. -/
def shown (f : FileFault) : String :=
  let (text, kind, code?) := f.account
  let front :=
    match code? with
    | some code => "Os \x7b code: " ++ toString code ++ ", "
    | none => "Error \x7b "
  front ++ "kind: " ++ kind ++ ", message: \"" ++ text ++ "\" \x7d"

end FileFault

/-! ## 2. Entries -/

/-- A file or a directory. -/
inductive FileNode where
  | file (content : ByteArray)
  | directory (entries : List (String × FileNode))
deriving Inhabited

namespace FileNode

def ofText (text : String) : FileNode := file text.toUTF8

/-- What a directory holds under a name. -/
def child? : FileNode → String → Option FileNode
  | directory es, name => es.lookup name
  | file _, _ => none

/-- What is found by following names down. -/
def at? : FileNode → List String → Option FileNode
  | n, [] => some n
  | n, name :: names => (n.child? name).bind fun c => at? c names

/-- Gives the name the node, in place if the name is there and at the end otherwise. -/
def setEntry (name : String) (node : FileNode) :
    List (String × FileNode) → List (String × FileNode)
  | [] => [(name, node)]
  | e :: es => if e.1 = name then (name, node) :: es else e :: setEntry name node es

/-- Puts a node where the names lead, and makes the directories on the way. A file on the way stays
as it is, and so does everything. -/
def put (new : FileNode) : List String → FileNode → FileNode
  | [], _ => new
  | _ :: _, file content => file content
  | name :: names, directory es =>
    directory (setEntry name (put new names ((es.lookup name).getD (directory []))) es)

/-- Takes away what the names lead to, with everything below it. -/
def erase : List String → FileNode → FileNode
  | [], n => n
  | _ :: _, file content => file content
  | [name], directory es => directory (es.filter fun e => e.1 != name)
  | name :: names, directory es =>
    directory (es.map fun e => if e.1 = name then (name, erase names e.2) else e)

mutual
/-- The files at and below a node with the names that lead to them. -/
def files : FileNode → List (List String × ByteArray)
  | file content => [([], content)]
  | directory es => filesOf es

def filesOf : List (String × FileNode) → List (List String × ByteArray)
  | [] => []
  | (name, n) :: es => (files n).map (fun f => (name :: f.1, f.2)) ++ filesOf es
end

end FileNode

/-! ## 3. The disk -/

/-- Files and directories, and the directory in which relative paths start. -/
structure Disk where
  root : FileNode := .directory []
  /-- The names that lead from the root to the working directory. -/
  workingDirectory : List String := []
deriving Inhabited

namespace Disk

def longestName : Nat := 255

def longestPath : Nat := 4095

/-- Goes from a directory, given by the names that lead to it, to one of its parts. -/
def follow (d : Disk) (position : List String) (part : String) :
    Except FileFault (List String) :=
  match d.root.at? position with
  | none => .error .missing
  | some (.file _) => .error .notDirectory
  | some (.directory es) =>
    if part = "" || part = "." then .ok position
    else if part = ".." then .ok position.dropLast
    else if longestName < part.utf8ByteSize then .error .longName
    else if (es.lookup part).isSome then .ok (position ++ [part])
    else .error .missing

def start (d : Disk) (path : String) : List String :=
  if Path.isAbsolute path then [] else d.workingDirectory

def followAll (d : Disk) (path : String) (parts : List String) :
    Except FileFault (List String) :=
  parts.foldlM (follow d) (d.start path)

/-- Whether a path can name anything at all. -/
def checkName (path : String) : Except FileFault Unit :=
  if path.isEmpty then .error .missing
  else if path.toList.contains '\x00' then .error .badName
  else if longestPath < path.utf8ByteSize then .error .longName
  else .ok ()

/-- The position that a path leads to; something is there. -/
def locate (d : Disk) (path : String) : Except FileFault (List String) := do
  checkName path
  d.followAll path (Path.parts path)

def find (d : Disk) (path : String) : Except FileFault FileNode := do
  let position ← d.locate path
  match d.root.at? position with
  | some n => .ok n
  | none => .error .missing

def has (d : Disk) (path : String) : Bool := (d.find path).toOption.isSome

def hasDirectory (d : Disk) (path : String) : Bool :=
  match d.find path with
  | .ok (.directory _) => true
  | _ => false

def readBytes (d : Disk) (path : String) : Except FileFault ByteArray :=
  match d.find path with
  | .ok (.file content) => .ok content
  | .ok (.directory _) => .error .isDirectory
  | .error f => .error f

def decodeText (content : ByteArray) : Except FileFault String :=
  match String.fromUTF8? content with
  | some text => .ok text
  | none => .error .notText

def readText (d : Disk) (path : String) : Except FileFault String :=
  (d.readBytes path).bind decodeText

/-- The parts of a path before its last one, and the last one; slashes at the end do not count. -/
def lastPart (path : String) : List String × String :=
  let parts := ((Path.parts path).reverse.dropWhile (· == "")).reverse
  (parts.dropLast, parts.getLast?.getD "")

/-- Whether a path can only lead to a directory, by its form. -/
def namesDirectory (path : String) : Bool :=
  path.toList.getLast? == some '/' || ["", ".", ".."].contains (lastPart path).2

/-- The position of the file that is written under a path. -/
def locateTarget (d : Disk) (path : String) : Except FileFault (List String) := do
  checkName path
  let (before, name) := lastPart path
  let parent ← d.followAll path before
  match d.root.at? parent with
  | none => .error .missing
  | some (.file _) => .error .notDirectory
  | some (.directory es) =>
    if namesDirectory path then .error .isDirectory
    else if longestName < name.utf8ByteSize then .error .longName
    else
      match es.lookup name with
      | some (.directory _) => .error .isDirectory
      | _ => .ok (parent ++ [name])

def writeText (d : Disk) (path text : String) : Except FileFault Disk :=
  (d.locateTarget path).map fun position =>
    { d with root := (FileNode.ofText text).put position d.root }

/-! ## 4. Changes from outside -/

/-- Where a path leads by its form alone. -/
def positionOf (d : Disk) (path : String) : List String :=
  (Path.parts path).foldl (fun position part =>
    if part = "" || part = "." then position
    else if part = ".." then position.dropLast
    else position ++ [part]) (d.start path)

/-- Puts a node under a path, and makes the directories on the way. -/
def place (d : Disk) (path : String) (node : FileNode) : Disk :=
  { d with root := node.put (d.positionOf path) d.root }

/-- Makes a directory and the directories on the way, unless something is there. -/
def makeDirectory (d : Disk) (path : String) : Disk :=
  if (d.root.at? (d.positionOf path)).isSome then d else d.place path (.directory [])

def erase (d : Disk) (path : String) : Disk :=
  { d with root := d.root.erase (d.positionOf path) }

/-- The files of the working directory with their paths. -/
def files (d : Disk) : List (String × ByteArray) :=
  match d.root.at? d.workingDirectory with
  | some n => n.files.map fun f => ("/".intercalate f.1, f.2)
  | none => []

end Disk

end PromptTags
