/-
The program.

What a command can look at is copied from the machine's disk: the settings file, the directory of
tag files and the prompt file. The command runs on the copy, and the files that are different
afterwards are written back before anything is printed.
-/
import PromptTags.CommandLine.Run

set_option autoImplicit false

namespace PromptTags.Program

open PromptTags.CommandLine

/-! ## 1. Copying from the machine -/

def isDirectory (path : String) : IO Bool :=
  try
    let place ← IO.FS.realPath path
    place.isDir
  catch _ => return false

def bytes? (path : String) : IO (Option ByteArray) :=
  try return some (← IO.FS.readBinFile path) catch _ => return none

def namesIn (path : String) : IO (List String) := do
  let place ← IO.FS.realPath path
  return (← place.readDir).toList.map fun e => e.fileName

/-- What is at a path, with everything below it. -/
partial def copyNode (path : String) : IO (Option FileNode) := do
  if ← isDirectory path then
    let entries ← (← namesIn path).filterMapM fun name => do
      return (← copyNode (path ++ "/" ++ name)).map fun n => (name, n)
    return some (.directory entries)
  else return (← bytes? path).map .file

def absolute (position : List String) : String := "/" ++ "/".intercalate position

/-- Copies the directories on the way to a position, or the file that is in the way. -/
def copyWay (d : Disk) (position : List String) : IO Disk := do
  let mut d := d
  for n in List.range position.length do
    let path := absolute (position.take n)
    if ← isDirectory path then d := d.makeDirectory path
    else
      match ← bytes? path with
      | some content => d := d.place path (.file content)
      | none => return d
  return d

/-- Copies what is at a path. -/
def copyPath (d : Disk) (path : String) : IO Disk := do
  if path.isEmpty then return d
  let position := d.positionOf path
  let d ← copyWay d position
  match ← copyNode (absolute position) with
  | some n => return d.place (absolute position) n
  | none => return d

/-- Copies what a request can look at. The settings come first, as they name the directory of tag
files. -/
def copyFor (env : Environment) (d : Disk) (r : Request) : IO Disk := do
  let d ← copyPath d env.settingsPath
  let d ←
    match settingsFor env d r.dataDir? with
    | .ok s => copyPath d (s.dataDir env)
    | .error _ => pure d
  match r.command with
  | .edit e => copyPath d e.file
  | _ => return d

def inputFor (r : Request) : IO ByteArray := do
  match r.command with
  | .parse none _ => (← IO.getStdin).readBinToEnd
  | .format none => (← IO.getStdin).readBinToEnd
  | _ => return ByteArray.empty

/-! ## 2. Running -/

/-- Writes the files that are different from those before. -/
def writeBack (before after : Disk) : IO Unit := do
  let old := before.root.files
  for (position, content) in after.root.files do
    if old.lookup position != some content then IO.FS.writeBinFile (absolute position) content

def report (o : Outcome) : IO UInt32 := do
  IO.print o.output
  match o.report? with
  | some line => IO.eprintln line
  | none => pure ()
  return o.code.toUInt32

/-- The disk before anything is copied: nothing but the way to the working directory. -/
def emptyDisk : IO Disk := do
  let here := (← IO.currentDir).toString
  let d : Disk := {}
  return { d.makeDirectory here with workingDirectory := d.positionOf here }

end PromptTags.Program

open PromptTags PromptTags.CommandLine PromptTags.Program in
/-- Runs the command that the words ask for. -/
def main (words : List String) : IO UInt32 := do
  let env : Environment :=
    { home? := ← IO.getEnv "HOME", dataDir? := ← IO.getEnv "TAGWEAVE_DATA_DIR" }
  match Request.read env.dataDir? words with
  | .error stop => report (.ofStop {} stop)
  | .ok r =>
    let before ← copyFor env (← emptyDisk) r
    let o := run words env (← inputFor r) before
    writeBack before o.disk
    report o
