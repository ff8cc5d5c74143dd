/-
The commands of the program, and how they are read from a command line.

Three options stand behind every command: two that only concern the log, and the catalog directory.
The directory can be given at each level of subcommands, and the innermost one counts; where it is
not given, the one that the environment names counts in its place, which then must not be empty.
-/
import PromptTags.CommandLine.Arguments
import PromptTags.CommandLine.Move

set_option autoImplicit false

namespace PromptTags.CommandLine

/-! ## 1. Commands -/

/-- Changes to a prompt file. -/
structure Edit where
  file : String
  add : List String := []
  remove : List String := []
  toggle : List String := []
  like : List String := []
  increase : List String := []
  decrease : List String := []
  moves : List Move := []
  sort : Bool := false
  dryRun : Bool := false
deriving DecidableEq, Repr

/-- What the program can be asked to do. A text that is not given is read from the input. -/
inductive Command where
  | parse (text? : Option String) (json : Bool)
  | format (text? : Option String)
  | edit (e : Edit)
  | catalogTree (json : Bool)
  | catalogTags (file : String) (search? : Option String)
  | catalogSearch (term : String)
  | configShow
  | configPath
  | configValidate
deriving DecidableEq, Repr

/-- A command with the catalog directory it is given. -/
structure Request where
  command : Command
  dataDir? : Option String
deriving DecidableEq, Repr

/-! ## 2. What the commands take -/

/-- An option with a value that names a file or a directory. -/
def pathOption (name : String) (letter? : Option Char) : OptionShape :=
  { name := name, letter? := letter?, arity := .single, accepts := fun v => !v.isEmpty }

/-- An option that can be given several times. -/
def listOption (name : String) : OptionShape := { name := name, arity := .repeated }

/-- An option without a value. -/
def switchOption (name : String) : OptionShape := { name := name, arity := .switch }

def sharedOptions : List OptionShape :=
  [{ name := "verbose", letter? := some 'v', arity := .switch }, switchOption "log-json",
    pathOption "data-dir" none]

def editOptions : List OptionShape :=
  [pathOption "file" (some 'f'), listOption "add", listOption "remove", listOption "toggle",
    listOption "like", listOption "increase", listOption "decrease",
    { name := "move", arity := .repeated, accepts := fun v => (Move.ofText v).toOption.isSome },
    switchOption "sort", switchOption "dry-run"]

/-- What each command takes besides the shared options. -/
def ownShape : List String → Option Shape
  | [] => some { subcommands := ["parse", "format", "edit", "catalog", "config", "help"]
                 versioned := true }
  | ["parse"] => some { options := [switchOption "json"], places := 1 }
  | ["format"] => some { places := 1 }
  | ["edit"] => some { options := editOptions }
  | ["catalog"] => some { subcommands := ["tree", "tags", "search", "help"] }
  | ["catalog", "tree"] => some { options := [switchOption "json"] }
  | ["catalog", "tags"] =>
    some { options := [{ name := "search", letter? := some 's', arity := .single }], places := 1 }
  | ["catalog", "search"] => some { places := 1 }
  | ["config"] => some { subcommands := ["show", "path", "validate", "help"] }
  | ["config", "show"] => some {}
  | ["config", "path"] => some {}
  | ["config", "validate"] => some {}
  | _ => none

def shape (path : List String) : Option Shape :=
  (ownShape path).map fun s => { s with options := sharedOptions ++ s.options }

/-! ## 3. Reading -/

/-- The catalog directory that the levels of a command line are given, the innermost first, and
the one that the environment names where a level has none. -/
def dataDirOf (named? : Option String) (given : List Given) : Except Stop (Option String) :=
  let perLevel := given.map fun g => g.valueOf? "data-dir"
  if named? == some "" && perLevel.any Option.isNone then .error .misused
  else .ok ((perLevel.reverse.findSome? id).or named?)

/-- The edit that a command line asks for. -/
def editOf? (g : Given) : Option Edit := do
  return {
    file := ← g.valueOf? "file"
    add := g.valuesOf "add"
    remove := g.valuesOf "remove"
    toggle := g.valuesOf "toggle"
    like := g.valuesOf "like"
    increase := g.valuesOf "increase"
    decrease := g.valuesOf "decrease"
    moves := (g.valuesOf "move").filterMap fun v => (Move.ofText v).toOption
    sort := g.has "sort"
    dryRun := g.has "dry-run" }

/-- The command at a path, with what it is given. -/
def commandOf? (path : List String) (g : Given) : Option Command :=
  match path, g.values with
  | ["parse"], values => some (.parse values.head? (g.has "json"))
  | ["format"], values => some (.format values.head?)
  | ["edit"], _ => (editOf? g).map .edit
  | ["catalog", "tree"], _ => some (.catalogTree (g.has "json"))
  | ["catalog", "tags"], [file] => some (.catalogTags file (g.valueOf? "search"))
  | ["catalog", "search"], [term] => some (.catalogSearch term)
  | ["config", "show"], _ => some .configShow
  | ["config", "path"], _ => some .configPath
  | ["config", "validate"], _ => some .configValidate
  | _, _ => none

/-- Reads a command line; `named?` is the catalog directory that the environment names. -/
def Request.read (named? : Option String) (words : List String) : Except Stop Request := do
  let line ← readLine shape 3 [] words
  let dataDir? ← dataDirOf named? line.given
  match commandOf? line.path (line.given.getLast?.getD {}) with
  | some command => .ok { command := command, dataDir? := dataDir? }
  | none => .error .misused

end PromptTags.CommandLine
