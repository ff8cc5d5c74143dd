/-
Settings: where the catalog is, and how sessions sort and show tags.

Every setting has a default, so a settings file that is not there is a valid one. Settings from a
file are checked; the catalog directory that the environment names comes afterwards, in place of the
one from the file, and leaves the other settings alone.
-/
import PromptTags.Files.Disk
import PromptTags.Text.Quoted
import PromptTags.Toml.Reader
import PromptTags.Toml.Writer

set_option autoImplicit false

namespace PromptTags

/-! ## 1. Settings -/

/-- The settings. -/
structure Settings where
  /-- The directory of tag files, if it is set. -/
  dataDir? : Option String := none
  sortOnCommit : Bool := false
  /-- Decimal places of the weights in labels. -/
  labelPlaces : Nat := 3
deriving DecidableEq, Repr, Inhabited

/-- What the environment says. -/
structure Environment where
  /-- The home directory of the user. -/
  home? : Option String := none
  /-- The directory of tag files. -/
  dataDir? : Option String := none
deriving DecidableEq, Repr, Inhabited

namespace Environment

def settingsDir (env : Environment) : String := Path.join (env.home?.getD "/tmp") ".tagweave"

def settingsPath (env : Environment) : String := Path.join env.settingsDir "config.toml"

/-- The directory of tag files that is named; the empty text names none. -/
def namedDataDir? (env : Environment) : Option String := env.dataDir?.filter fun d => !d.isEmpty

end Environment

/-- Why there are no settings. -/
inductive SettingsFault where
  | unreadable (path : String) (fault : FileFault)
  | unparsable (path : String)
  | emptyDataDir
  | tooManyPlaces
deriving DecidableEq, Repr

namespace Settings

/-- The most decimal places that labels can have. -/
def mostLabelPlaces : Nat := 6

end Settings

namespace SettingsFault

/-- What the reason is, apart from the file. -/
def reason : SettingsFault → String
  | unreadable _ f => f.message
  | unparsable _ => "not a TOML document with these settings"
  | emptyDataDir => "catalog.data_dir must not be empty"
  | tooManyPlaces => "editor.label_precision must be at most " ++ toString Settings.mostLabelPlaces

def message (f : SettingsFault) : String :=
  match f with
  | unreadable path _ => "Failed to read config file at " ++ path ++ ": " ++ f.reason
  | unparsable path => "Failed to parse config file at " ++ path ++ ": " ++ f.reason
  | emptyDataDir => "Configuration validation failed: " ++ f.reason
  | tooManyPlaces => "Configuration validation failed: " ++ f.reason

/-- A fault with the names of its parts. -/
def shown (f : SettingsFault) : String :=
  let located (kind path : String) : String :=
    kind ++ " \x7b path: " ++ Text.quoted path ++ ", reason: " ++ Text.quoted f.reason ++ " \x7d"
  match f with
  | unreadable path _ => located "ReadError" path
  | unparsable path => located "ParseError" path
  | emptyDataDir => "ValidationError(" ++ Text.quoted f.reason ++ ")"
  | tooManyPlaces => "ValidationError(" ++ Text.quoted f.reason ++ ")"

end SettingsFault

namespace Settings

/-! ## 2. The settings file -/

/-- What the settings of a section are given by: a table, or a list of the settings in order. A date
is a section without settings. -/
def section? (names : List String) : Toml.Value → Option (List (Option Toml.Value))
  | .table fields => some (names.map fun name => fields.lookup name)
  | .list vs => some (names.zipIdx.map fun name => vs[name.2]?)
  | .moment _ => some (names.map fun _ => none)
  | _ => none

/-- The catalog section, on top of other settings. -/
def withCatalog? (s : Settings) (v : Toml.Value) : Option Settings :=
  match section? ["data_dir"] v with
  | some [none] => some s
  | some [some (.text dir)] => some { s with dataDir? := some dir }
  | _ => none

def boolOr? (default : Bool) : Option Toml.Value → Option Bool
  | none => some default
  | some (.bool b) => some b
  | _ => none

/-- A whole number that is not negative, or what counts when there is none. -/
def natOr? (default : Nat) : Option Toml.Value → Option Nat
  | none => some default
  | some (.integer (.ofNat n)) => some n
  | _ => none

/-- The editor section, on top of other settings. -/
def withEditor? (s : Settings) (v : Toml.Value) : Option Settings :=
  match section? ["sort_on_commit", "label_precision"] v with
  | some [sort?, places?] => do
    return { s with
      sortOnCommit := ← boolOr? s.sortOnCommit sort?
      labelPlaces := ← natOr? s.labelPlaces places? }
  | _ => none

/-- The settings that a TOML table holds; other keys do not count. -/
def ofFields? (fields : List (String × Toml.Value)) : Option Settings := do
  let s ←
    match fields.lookup "catalog" with
    | some v => withCatalog? {} v
    | none => some {}
  match fields.lookup "editor" with
  | some v => s.withEditor? v
  | none => some s

def ofToml? (text : String) : Option Settings := (Toml.read? text).bind ofFields?

/-- The settings as a TOML document. -/
def toToml (s : Settings) : String :=
  let dir :=
    match s.dataDir? with
    | some d => "data_dir = " ++ String.ofList (Toml.textChars d) ++ "\n"
    | none => ""
  "[catalog]\n" ++ dir ++ "\n[editor]\nsort_on_commit = " ++ toString s.sortOnCommit ++
    "\nlabel_precision = " ++ toString s.labelPlaces ++ "\n"

/-! ## 3. Checking and loading -/

/-- Whether the settings can be used. -/
def check (s : Settings) : Except SettingsFault Unit :=
  if s.dataDir?.any String.isEmpty then .error .emptyDataDir
  else if mostLabelPlaces < s.labelPlaces then .error .tooManyPlaces
  else .ok ()

/-- The settings in a file; there are default ones if nothing is there. -/
def loadFrom (d : Disk) (path : String) : Except SettingsFault Settings :=
  if !d.has path then .ok {}
  else
    match d.readText path with
    | .error f => .error (.unreadable path f)
    | .ok text =>
      match ofToml? text with
      | none => .error (.unparsable path)
      | some s => s.check.map fun _ => s

def load (env : Environment) (d : Disk) : Except SettingsFault Settings :=
  (loadFrom d env.settingsPath).map fun s => { s with dataDir? := env.namedDataDir?.or s.dataDir? }

def dataDir (s : Settings) (env : Environment) : String :=
  s.dataDir?.getD (Path.join env.settingsDir "data")

end Settings

end PromptTags
