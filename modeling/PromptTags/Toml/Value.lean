/-
TOML values, and how a document puts its tables together.

A document is a list of headers and pairs. Tables come into being in four ways: by a header of their
own, on the way to a deeper header, on the way of a dotted key, or as one more table of a list of
tables. How a table came into being decides what may still be added to it: a header can take over a
table that only deeper headers have implied, a dotted key can go through every table that has no
header and add to the ones that dotted keys have made, and nothing is ever given twice. A value that
is written out as a whole, such as a table in braces, is closed.
-/
import PromptTags.Decimal.Numeral

set_option autoImplicit false

namespace PromptTags.Toml

/-! ## 1. Values -/

/-- A TOML value. -/
inductive Value where
  | text (s : String)
  | integer (n : Int)
  | float (x : Float)
  | bool (b : Bool)
  /-- A date, a time, or both, in the notation of the document. -/
  | moment (written : List Char)
  | list (items : List Value)
  | table (fields : List (String × Value))
deriving Inhabited

/-! ## 2. Tables that are being put together -/

/-- How a table came into being. -/
inductive Origin where
  | header
  | implied
  | dotted
deriving DecidableEq, Repr

/-- What stands under a key while a document is being read. -/
inductive Item where
  | value (v : Value)
  | table (origin : Origin) (entries : List (String × Item))
  | tables (all : List (List (String × Item)))
deriving Inhabited

/-- The entries of a table that is being put together. -/
abbrev Entries := List (String × Item)

namespace Entries

/-- Gives a key an item, in place of the one that it has. -/
def set (key : String) (item : Item) : Entries → Entries
  | [] => [(key, item)]
  | e :: es => if e.1 = key then (key, item) :: es else e :: set key item es

/-- Goes down along keys, makes the tables that are missing, and changes the table at the end, whose
origin the change is told. Of a list of tables it is the last one that counts. -/
def within (dotted : Bool) (change : Origin → Entries → Option Entries) :
    (path : List String) → Origin → Entries → Option Entries
  | [], origin, es => change origin es
  | key :: path, _, es =>
    match es.lookup key with
    | none =>
      -- More dots may add to a table made by dots, and a header may begin one made by a header.
      let made := if dotted then Origin.dotted else Origin.implied
      (within dotted change path made []).map fun sub => es.set key (.table made sub)
    | some (.value _) => none
    | some (.table origin sub) =>
      -- Dots do not add to a table with a header of its own.
      if dotted && origin == .header then none
      else (within dotted change path origin sub).map fun sub => es.set key (.table origin sub)
    | some (.tables all) =>
      (within dotted change path .header (all.getLast?.getD [])).map fun last =>
        es.set key (.tables (all.dropLast ++ [last]))

/-- A path as the keys on the way and the last one. -/
def splitPath (path : List String) : List String × String :=
  (path.dropLast, path.getLast?.getD "")

/-- Adds a pair to a table. Its key can be dotted; the table at the end of the dots must have been
made by dots too. -/
def addPair (path : List String) (v : Value) (origin : Origin) (es : Entries) : Option Entries :=
  let (before, key) := splitPath path
  within true (fun reached sub =>
    if (reached == .dotted) == before.isEmpty then none
    else if (sub.lookup key).isSome then none
    else some (sub.set key (.value v))) before origin es

/-- Begins the table of a header. -/
def addTable (path : List String) (es : Entries) : Option Entries :=
  let (before, key) := splitPath path
  within false (fun _ sub =>
    match sub.lookup key with
    | none => some (sub.set key (.table .header []))
    -- A table that was only passed through so far keeps what is in it.
    | some (.table .implied kept) => some (sub.set key (.table .header kept))
    | some _ => none) before .header es

/-- Begins one more table of a list of tables. -/
def addTableItem (path : List String) (es : Entries) : Option Entries :=
  let (before, key) := splitPath path
  within false (fun _ sub =>
    match sub.lookup key with
    | none => some (sub.set key (.tables [[]]))
    | some (.tables all) => some (sub.set key (.tables (all ++ [[]])))
    | some _ => none) before .header es

end Entries

namespace Item

mutual
/-- The value that an item is in the end. -/
def toValue : Item → Value
  | value v => v
  | table _ es => .table (fieldsOf es)
  | tables all => .list (tablesOf all)

def fieldsOf : List (String × Item) → List (String × Value)
  | [] => []
  | (key, item) :: es => (key, toValue item) :: fieldsOf es

def tablesOf : List (List (String × Item)) → List Value
  | [] => []
  | es :: all => .table (fieldsOf es) :: tablesOf all
end

end Item

/-! ## 3. Documents -/

/-- A header or a pair. Paths have at least one key. -/
inductive Statement where
  | header (path : List String)
  | itemHeader (path : List String)
  | pair (path : List String) (v : Value)

/-- The tables so far, and the header that the next pairs stand under. -/
structure Assembly where
  entries : Entries := []
  header : List String := []

/-- Takes one more statement into account; there is none for a statement that gives something twice
or adds to something closed. -/
def Assembly.step (a : Assembly) : Statement → Option Assembly
  | .header path => (a.entries.addTable path).map fun es => { entries := es, header := path }
  | .itemHeader path =>
    (a.entries.addTableItem path).map fun es => { entries := es, header := path }
  | .pair path v =>
    (Entries.within false (Entries.addPair path v) a.header .header a.entries).map fun es =>
      { a with entries := es }

def tableOf? (statements : List Statement) : Option (List (String × Value)) :=
  (statements.foldlM Assembly.step {}).map fun a => Item.fieldsOf a.entries

def inlineTable? (pairs : List (List String × Value)) : Option Value :=
  (pairs.foldlM (fun es p => Entries.addPair p.1 p.2 .header es) []).map fun es =>
    .table (Item.fieldsOf es)

end PromptTags.Toml
