/-
Running a command.

A run takes the environment, the input and the disk, and gives what is printed, the exit code, and
the disk afterwards. Only a successful edit that is no dry run changes the disk, and it changes one
file, to the text that it prints. A failure is reported in one line, in quotes if it is plain text.
-/
import PromptTags.Catalog.Library
import PromptTags.CommandLine.Command
import PromptTags.Json.Catalog
import PromptTags.Json.Tags
import PromptTags.Session
import PromptTags.Settings

set_option autoImplicit false

namespace PromptTags.CommandLine

/-! ## 1. Outcomes -/

/-- Why a command fails. -/
inductive Failure where
  | library (fault : LibraryFault)
  | session (fault : SessionFault)
  /-- The input is no text. -/
  | input (fault : FileFault)
  | settings (fault : SettingsFault)
  /-- The settings are at fault, but something else was asked for. -/
  | unusableSettings (fault : SettingsFault)

def Failure.shown : Failure → String
  | library f => f.shown
  | session f => f.shown
  | input f => f.shown
  | settings f => f.shown
  | unusableSettings f => Text.quoted ("Failed to load config: " ++ f.message)

/-- What a run comes to. -/
structure Outcome where
  code : Nat
  /-- What is printed. -/
  output : String
  /-- The report of a failure. -/
  report? : Option String
  disk : Disk

namespace Outcome

def done (d : Disk) (output : String) : Outcome :=
  { code := 0, output := output, report? := none, disk := d }

def failed (d : Disk) (output : String) (f : Failure) : Outcome :=
  { code := 1, output := output, report? := some ("Error: " ++ f.shown), disk := d }

def ofResult (d : Disk) : Except Failure String → Outcome
  | .ok output => done d output
  | .error f => failed d "" f

/-- What comes of words that are no command line, or that ask for help or for the version. -/
def ofStop (d : Disk) : Stop → Outcome
  | .misused => { code := 2, output := "", report? := none, disk := d }
  | .help => done d ""
  | .version => done d "tagweave 0.1.0\n"

end Outcome

def outputLines (ls : List String) : String := String.join (ls.map (· ++ "\n"))

/-! ## 2. Prompts -/

def textOr (input : ByteArray) : Option String → Except Failure String
  | some text => .ok text
  | none => (Disk.decodeText input).mapError .input

/-- The tags of a prompt in a table; the names are padded to a common width. -/
def tagTable (tags : List Tag) : String :=
  let width := (tags.map fun t => t.name.length).foldl max 0
  let padded (name : String) : String := String.ofList (name.toList.rightpad width ' ')
  if tags.isEmpty then outputLines ["(no tags)"]
  else
    outputLines (tags.map fun t =>
      "  " ++ padded t.name ++ "  " ++ Decimal.fixed weightPlaces t.weight)

def tagList (tags : List Tag) : String :=
  outputLines [(Json.Value.list (tags.map Tag.toJson)).pretty]

def runParse (input : ByteArray) (text? : Option String) (json : Bool) :
    Except Failure String :=
  (textOr input text?).map fun text =>
    if json then tagList (Prompt.parse text) else tagTable (Prompt.parse text)

/-- Puts a prompt into flat form. -/
def runFormat (input : ByteArray) (text? : Option String) : Except Failure String :=
  (textOr input text?).map fun text => outputLines [Prompt.normalize text]

/-! ## 3. The catalog -/

/-- The settings of the user, with the catalog directory that was given in place of theirs. -/
def settingsFor (env : Environment) (d : Disk) (dataDir? : Option String) :
    Except Failure Settings :=
  match Settings.load env d with
  | .ok s => .ok { s with dataDir? := dataDir?.or s.dataDir? }
  | .error f => .error (.unusableSettings f)

def libraryFor (env : Environment) (d : Disk) (dataDir? : Option String) :
    Except Failure Library := do
  let s ← settingsFor env d dataDir?
  (Library.ofRoot d (s.dataDir env)).mapError .library

def recordLine (r : Record) : String :=
  let description :=
    match r.description? with
    | some text => if text.isEmpty then "" else " " ++ text
    | none => ""
  "   " ++ r.name ++ " [" ++ ", ".intercalate r.aliases ++ "]" ++ description

def treeText (l : Library) (json : Bool) : String :=
  if json then outputLines [l.tree.toJson.pretty]
  else
    outputLines ["📚 " ++ l.root] ++
      if l.tree.isEmpty then outputLines ["   (no tag files)"] else l.tree.outline

/-- Shows the records of one tag file, or those that a search finds. -/
def tagsText (l : Library) (d : Disk) (file : String) (search? : Option String) :
    Except Failure String :=
  match (l.tags d file).1 with
  | .error f => .error (.library f)
  | .ok records =>
    let shown :=
      match search? with
      | some term => Catalog.search records term
      | none => records
    let head := "🏷  " ++ file ++ " (" ++ toString shown.length ++ " of " ++
      toString records.length ++ " tags)"
    .ok (outputLines (head :: shown.map recordLine))

def searchText (l : Library) (d : Disk) (term : String) : String :=
  let hits := Catalog.search (l.allTags d).1 term
  let head := "🔍 '" ++ term ++ "': " ++ toString hits.length ++ " matches"
  outputLines (head :: hits.map recordLine)

/-! ## 4. Editing -/

/-- Does something for every name in turn, whatever comes of it. -/
def forEach {α : Type} (names : List α) (change : Session → α → Session) (s : Session) : Session :=
  names.foldl change s

/-- Applies the changes of an edit. Their order is fixed, however they were given. -/
def Edit.apply (e : Edit) (s : Session) : Session :=
  let s := forEach e.remove (fun s name => (s.remove name).2) s
  let s := forEach e.add (fun s name => (s.add name).2) s
  -- A toggle gives no label; `like` is the one that looks it up.
  let s := forEach e.toggle (fun s name => (s.keep (s.selection.toggle name none)).2) s
  let s := forEach e.like (fun s name => (s.like name).2) s
  let s := forEach e.increase (fun s name => (s.adjust name true).2) s
  let s := forEach e.decrease (fun s name => (s.adjust name false).2) s
  let s := forEach e.moves (fun s m => (s.reorder m.name m.placement).2) s
  if e.sort then s.sortByCatalog else s

/-- The catalog for labels and order; there is an empty one without a catalog directory. -/
def catalogOrEmpty (d : Disk) (root : String) : Catalog :=
  match Library.ofRoot d root with
  | .ok l => (l.allTags d).1
  | .error _ => []

/-- The report of an edit. -/
def editText (e : Edit) (places : Nat) (s : Session) (text : String) : String :=
  let head := "📝 " ++ e.file ++ " (" ++ toString s.selection.size ++ " tags)"
  let note := if e.dryRun then ["", "   (dry run, file not written)"] else []
  outputLines (head :: (s.labels places).map ("   " ++ ·) ++ ["", text] ++ note)

/-- Edits a prompt file. -/
def runEdit (env : Environment) (d : Disk) (dataDir? : Option String) (e : Edit) : Outcome :=
  match settingsFor env d dataDir? with
  | .error f => .failed d "" f
  | .ok settings =>
    -- A catalog that cannot be read does not keep a prompt from being edited.
    let catalog := catalogOrEmpty d (settings.dataDir env)
    let w : Surroundings := { disk := d }
    match Session.onHost (.file e.file) catalog w with
    | .error f => .failed d "" (.session f)
    | .ok s =>
      let s := e.apply { s with sortOnCommit := settings.sortOnCommit }
      if e.dryRun then
        let (text, s) := s.stage
        .done d (editText e settings.labelPlaces s text)
      else
        match s.commit w with
        | (.ok text, s, w) => .done w.disk (editText e settings.labelPlaces s text)
        | (.error f, _, w) => .failed w.disk "" (.session f)

/-! ## 5. Settings -/

/-- Shows the settings and the catalog directory that they come to. -/
def runConfigShow (env : Environment) (d : Disk) : Except Failure String :=
  match Settings.load env d with
  | .ok s => .ok (outputLines [s.toToml, "# effective data_dir = " ++ s.dataDir env])
  | .error f => .error (.settings f)

/-- Checks the settings, and whether the catalog directory is there. -/
def runConfigValidate (env : Environment) (d : Disk) : Outcome :=
  let head := "🔍 Validating configuration..."
  match Settings.load env d with
  | .ok s =>
    let dir := s.dataDir env
    let verdict :=
      if d.hasDirectory dir then "   ✅ All checks passed"
      else "   ⚠️  Catalog directory " ++ dir ++ " does not exist"
    .done d (outputLines [head, "   ✅ Config parsed successfully", verdict])
  | .error f => .failed d (outputLines [head, "   ❌ " ++ f.message]) (.settings f)

/-! ## 6. All commands -/

/-- Runs a command. -/
def runCommand (env : Environment) (input : ByteArray) (d : Disk) (dataDir? : Option String) :
    Command → Outcome
  | .parse text? json => .ofResult d (runParse input text? json)
  | .format text? => .ofResult d (runFormat input text?)
  | .edit e => runEdit env d dataDir? e
  | .catalogTree json => .ofResult d ((libraryFor env d dataDir?).map fun l => treeText l json)
  | .catalogTags file search? =>
    .ofResult d ((libraryFor env d dataDir?).bind fun l => tagsText l d file search?)
  | .catalogSearch term =>
    .ofResult d ((libraryFor env d dataDir?).map fun l => searchText l d term)
  | .configShow => .ofResult d (runConfigShow env d)
  | .configPath => .done d (outputLines [env.settingsPath])
  | .configValidate => runConfigValidate env d

def run (words : List String) (env : Environment) (input : ByteArray) (d : Disk) : Outcome :=
  match Request.read env.dataDir? words with
  | .error stop => .ofStop d stop
  | .ok r => runCommand env input d r.dataDir? r.command

end PromptTags.CommandLine
