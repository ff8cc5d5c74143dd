/-
The editing session.

A session holds a selection, a catalog for labels and order, and the place that the prompt comes
from and goes to: a prompt field, a file, or no place at all. The prompt is read once, when the
session is opened, and written only by a commit. Whatever happens to the field or to the disk in
between has no influence on the selection.

A commit writes what `stage` shows. A session without a place cannot commit and stays as it was; a
commit whose writing fails leaves the selection staged, so it can be tried again.
-/
import PromptTags.Catalog.Record
import PromptTags.Files.Disk

set_option autoImplicit false

namespace PromptTags

/-! ## 1. Where the prompt is kept -/

/-- The world around a session: a prompt field and a disk. -/
structure Surroundings where
  field : String := ""
  disk : Disk := {}
deriving Inhabited

/-- Where a prompt is kept. -/
inductive Host where
  | field
  | file (path : String)
deriving DecidableEq, Repr

namespace Host

/-- What the place is called. -/
def description : Host → String
  | field => "memory"
  | file path => path

/-- The prompt in this place. A file that is not there holds the empty prompt. -/
def read (h : Host) (w : Surroundings) : Except FileFault String :=
  match h with
  | field => .ok w.field
  | file path =>
    match w.disk.readText path with
    | .error .missing => .ok ""
    | answer => answer

/-- Puts a prompt into this place. -/
def write (h : Host) (w : Surroundings) (text : String) : Except FileFault Surroundings :=
  match h with
  | field => .ok { w with field := text }
  | file path => (w.disk.writeText path text).map fun disk => { w with disk := disk }

end Host

/-- Why a commit fails. -/
inductive SessionFault where
  | noHost
  | file (fault : FileFault)
deriving DecidableEq, Repr

namespace SessionFault

def message : SessionFault → String
  | noHost => "No host binding: the editing session is not attached to a prompt field"
  | file f => "I/O error: " ++ f.message

def shown : SessionFault → String
  | noHost => "NoHostBinding"
  | file f => "Io(" ++ f.shown ++ ")"

end SessionFault

/-! ## 2. Sessions -/

/-- An editing session. -/
structure Session where
  selection : Selection := {}
  host? : Option Host := none
  catalog : Catalog := []
  /-- Whether staging sorts the selection into catalog order. -/
  sortOnCommit : Bool := false
deriving Inhabited

namespace Session

/-- A session on the prompt that a place holds. -/
def onHost (h : Host) (c : Catalog) (w : Surroundings) : Except SessionFault Session :=
  match h.read w with
  | .ok text => .ok { selection := Selection.ofText text, host? := some h, catalog := c }
  | .error f => .error (.file f)

def detached (c : Catalog) : Session := { catalog := c }

def isAttached (s : Session) : Bool := s.host?.isSome

/-- Keeps the outcome of an operation on the selection. -/
def keep {α : Type} (s : Session) (outcome : α × Selection) : α × Session :=
  (outcome.1, { s with selection := outcome.2 })

/-- Picks a name, with the label that the catalog has for it as it was typed. -/
def add (s : Session) (name : String) : Bool × Session :=
  s.keep (s.selection.add name (s.catalog.displayName? name))

/-- Picks a name or takes it out; the label is that of the name as it was typed. -/
def like (s : Session) (name : String) : Bool × Session :=
  s.keep (s.selection.toggle name (s.catalog.displayName? name))

def remove (s : Session) (name : String) : Bool × Session := s.keep (s.selection.remove name)

def adjust (s : Session) (name : String) (up : Bool) : Option Float × Session :=
  s.keep (s.selection.adjust name up)

def reorder (s : Session) (name : String) (place : Placement) : Bool × Session :=
  s.keep (s.selection.reorder name place)

def sortByCatalog (s : Session) : Session :=
  { s with selection := s.selection.sortBy s.catalog.referenceOrder }

def labels (s : Session) (places : Nat) : List String := s.selection.labels places

def preview (s : Session) : String := s.selection.text

/-- The session with its selection in the order in which it is committed. -/
def staged (s : Session) : Session := if s.sortOnCommit then s.sortByCatalog else s

/-- Puts the selection into the order in which it is committed, and gives its text. -/
def stage (s : Session) : String × Session := (s.staged.preview, s.staged)

/-- Writes the prompt back, and gives the text that was written. -/
def commit (s : Session) (w : Surroundings) :
    Except SessionFault String × Session × Surroundings :=
  match s.host? with
  | none => (.error .noHost, s, w)
  | some h =>
    -- The session stays staged, whether the writing succeeds or not.
    let (text, s) := s.stage
    match h.write w text with
    | .ok w => (.ok text, s, w)
    | .error f => (.error (.file f), s, w)

end Session

end PromptTags
