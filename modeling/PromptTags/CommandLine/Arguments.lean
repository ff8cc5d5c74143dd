/-
Reading the words of a command line.

A command takes options, values in places, and subcommands. An option is written `--name` or `-n`;
the value of one that takes a value is the next word, or stands behind a `=`, or right behind the
letter. Several letters can share one hyphen. A word that starts with a hyphen is never the value of
the option before it, and behind the word `--` every word is a value.

Options without a value can be given once, those with a value once or as often as wanted. The words
are taken from left to right, and the first fault ends the reading, as does a request for help.
-/
import PromptTags.Text.Pieces

set_option autoImplicit false

namespace PromptTags.CommandLine

/-! ## 1. What a command takes -/

/-- How often an option can be given, and whether it takes a value. -/
inductive Arity where
  | switch
  | single
  | repeated
deriving DecidableEq, Repr

/-- An option of a command. -/
structure OptionShape where
  name : String
  letter? : Option Char := none
  arity : Arity
  /-- Which values it takes. -/
  accepts : String → Bool := fun _ => true

/-- What a command takes. -/
structure Shape where
  options : List OptionShape := []
  /-- How many values it takes in places. -/
  places : Nat := 0
  subcommands : List String := []
  /-- Whether it can be asked for the version. -/
  versioned : Bool := false

/-- Why reading ends before the command can run. -/
inductive Stop where
  /-- The words are no command line. -/
  | misused
  | help
  | version
deriving DecidableEq, Repr

/-! ## 2. Words -/

/-- What a word can be, by its form. -/
inductive Word where
  | separator
  | long (name : String) (value? : Option String)
  /-- Letters behind one hyphen. -/
  | letters (cs : List Char)
  | value (s : String)
deriving DecidableEq, Repr

/-- The form of a word. A hyphen alone is a value. -/
def Word.of (s : String) : Word :=
  match s.toList with
  | ['-', '-'] => separator
  | '-' :: '-' :: r =>
    let (name, value?) := Text.cutFirst '=' r
    long (String.ofList name) (value?.map String.ofList)
  | '-' :: c :: r => letters (c :: r)
  | _ => value s

/-! ## 3. One command -/

/-- What a command has been given so far. -/
structure Given where
  /-- Options with their values in order; one without a value has the empty text. -/
  options : List (String × String) := []
  values : List String := []
  /-- The option that the next word is the value of. -/
  waiting? : Option OptionShape := none
  /-- Whether only values can follow. -/
  onlyValues : Bool := false

namespace Given

def valuesOf (g : Given) (name : String) : List String :=
  (g.options.filter fun o => o.1 == name).map (·.2)

def has (g : Given) (name : String) : Bool := g.options.any fun o => o.1 == name

/-- The value of an option that can be given once. -/
def valueOf? (g : Given) (name : String) : Option String := (g.valuesOf name).head?

/-- Gives an option with its value. -/
def give (g : Given) (o : OptionShape) (value : String) : Except Stop Given :=
  if o.arity != .repeated && g.has o.name then .error .misused
  else if !o.accepts value then .error .misused
  else .ok { g with options := g.options ++ [(o.name, value)], waiting? := none }

/-- Gives an option by its name. -/
def giveLong (g : Given) (s : Shape) (name : String) (value? : Option String) :
    Except Stop Given :=
  match s.options.find? (·.name == name), value? with
  | some o, some v => if o.arity == .switch then .error .misused else g.give o v
  | some o, none => if o.arity == .switch then g.give o "" else .ok { g with waiting? := some o }
  | none, none =>
    if name == "help" then .error .help
    else if name == "version" && s.versioned then .error .version
    else .error .misused
  | none, some _ => .error .misused

/-- Gives options by their letters. What stands behind the letter of an option that takes a value is
its value. -/
def giveLetters (s : Shape) : Given → List Char → Except Stop Given
  | g, [] => .ok g
  | g, c :: cs =>
    match s.options.find? (·.letter? == some c), cs with
    | some o, cs =>
      if o.arity == .switch then (g.give o "").bind fun g => giveLetters s g cs
      else
        match cs with
        | [] => .ok { g with waiting? := some o }
        | '=' :: value => g.give o (String.ofList value)
        | value => g.give o (String.ofList value)
    | none, _ =>
      if c == 'h' then .error .help
      else if c == 'V' && s.versioned then .error .version
      else .error .misused

/-- Puts a value into the next place. -/
def place (g : Given) (s : Shape) (value : String) : Except Stop Given :=
  if g.values.length < s.places then .ok { g with values := g.values ++ [value] }
  else .error .misused

/-- Takes one more word. -/
def take (g : Given) (s : Shape) (word : String) : Except Stop Given :=
  if g.onlyValues then g.place s word
  else
    match Word.of word, g.waiting? with
    -- An option that waits takes only a word that can be a value by its form.
    | .value v, some o => g.give o v
    | .value v, none => g.place s v
    | _, some _ => .error .misused
    | .separator, none => .ok { g with onlyValues := true }
    | .long name value?, none => g.giveLong s name value?
    | .letters cs, none => giveLetters s g cs

end Given

/-- Takes words up to the first one that is a subcommand; that one and the words behind it are
left. -/
def readWords (s : Shape) : Given → List String → Except Stop (Given × List String)
  | g, [] => if g.waiting?.isSome then .error .misused else .ok (g, [])
  | g, word :: words =>
    if !g.onlyValues && g.waiting?.isNone && s.subcommands.contains word then .ok (g, word :: words)
    else
      match g.take s word with
      | .ok g => readWords s g words
      | .error e => .error e

/-! ## 4. A command and its subcommands -/

/-- The commands on the way to the innermost one. -/
structure Line where
  /-- The names of the subcommands. -/
  path : List String
  /-- What each command was given, the outermost first. -/
  given : List Given

/-- Reads a command and its subcommands; `shape` tells what the command at a path takes. A command
that has subcommands has to be followed by one. The names of commands behind `help` ask for help. -/
def readLine (shape : List String → Option Shape) :
    (depth : Nat) → (path words : List String) → Except Stop Line
  | 0, _, _ => .error .misused
  | depth + 1, path, words =>
    match shape path with
    | none => .error .misused
    | some s =>
      match readWords s {} words with
      | .error e => .error e
      | .ok (g, []) =>
        if s.subcommands.isEmpty then .ok { path := path, given := [g] } else .error .misused
      | .ok (g, name :: words) =>
        if name == "help" then
          if words == ["help"] || (shape (path ++ words)).isSome then .error .help
          else .error .misused
        else
          -- The values of the outer commands are kept in front of those of the inner ones.
          (readLine shape depth (path ++ [name]) words).map fun l => { l with given := g :: l.given }

end PromptTags.CommandLine
