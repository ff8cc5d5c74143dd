/-
The tokens of YAML text.

Tokens carry the layout in explicit form: where a line is indented more than the collection around
it, a token opens a block collection, and where it is indented less, a token closes one. A mapping
key without a mark of its own (a simple key) is recognised only at the colon behind it; the tokens
that say so are then put in front of the key.
-/
import PromptTags.Yaml.ScalarText
import PromptTags.Yaml.Tag

set_option autoImplicit false

namespace PromptTags.Yaml

/-! ## 1. Tokens -/

/-- A token. -/
inductive Token where
  /-- The line `%YAML major.minor`. -/
  | version (major minor : Nat)
  /-- The line `%TAG handle start`. -/
  | shorthand (handle : String) (start : List UInt8)
  /-- The mark `---`. -/
  | documentStart
  /-- The mark `...`. -/
  | documentEnd
  | blockListStart
  | blockMapStart
  | blockEnd
  | flowListStart
  | flowListEnd
  | flowMapStart
  | flowMapEnd
  /-- A hyphen in front of a list item. -/
  | item
  /-- A comma in a flow collection. -/
  | comma
  | key
  | value
  | reference (name : String)
  | anchor (name : String)
  | tag (handle : String) (suffix : List UInt8)
  | scalar (plain : Bool) (text : String)
deriving DecidableEq, Repr

/-! ## 2. Names, tags and directives -/

/-- The name of an anchor or of an alias, after its mark. -/
def readAnchor (c : Cursor) : Option (String × Cursor) :=
  let (name, c) := c.span isNameChar
  let closed := c.endsWordAt 0 || (c.peek? 0).any "?:,]\x7d%@\x60".toList.contains
  if name.isEmpty || !closed then none else some (String.ofList name, c)

/-- The handle at the start of a tag: an exclamation mark, then name characters and another
exclamation mark, if it comes. -/
def readHandle (c : Cursor) : Option (List Char × Cursor) :=
  if !c.at? 0 '!' then none
  else
    let (name, c) := (c.skip 1).span isNameChar
    if c.at? 0 '!' then some ('!' :: name ++ ['!'], c.skip 1) else some ('!' :: name, c)

/-- The byte that a percent escape at the cursor writes. -/
def escapedByte? (c : Cursor) : Option UInt8 :=
  match c.rest with
  | '%' :: a :: b :: _ => (Text.numberIn? 16 [a, b]).map UInt8.ofNat
  | _ => none

/-- How many bytes belong together behind this first one. -/
def groupWidth (first : UInt8) : Nat :=
  if first &&& 0x80 == 0x00 then 1
  else if first &&& 0xE0 == 0xC0 then 2
  else if first &&& 0xF0 == 0xE0 then 3
  else if first &&& 0xF8 == 0xF0 then 4
  else 0

/-- Bytes that belong together, written by percent escapes. They need not be a character. -/
def readEscapedBytes (c : Cursor) : Option (List UInt8 × Cursor) :=
  (escapedByte? c).bind fun first =>
    let width := groupWidth first
    let byte? (i : Nat) : Option UInt8 :=
      (escapedByte? (c.skip (3 * i))).filter fun b => i == 0 || b &&& 0xC0 == 0x80
    if width = 0 then none
    else ((List.range width).mapM byte?).map fun bytes => (bytes, c.skip (3 * width))

/-- The characters of a tag, `verbatim` those of one between angle brackets. -/
def isTagChar (verbatim : Bool) (ch : Char) : Bool :=
  isNameChar ch || ";/?:@&=+$.!~*'()".toList.contains ch || (verbatim && ",[]".toList.contains ch)

def asciiByte (ch : Char) : UInt8 := UInt8.ofNat ch.toNat

/-- The bytes of a tag up to a character that cannot be part of it, in order after `done`. -/
def readTagBytes (verbatim : Bool) :
    (fuel : Nat) → (done : List UInt8) → Cursor → Option (List UInt8 × Cursor)
  | 0, _, _ => none
  | fuel + 1, done, c =>
    match c.peek? 0 with
    | none => some (done.reverse, c)
    | some ch =>
      if ch == '%' then
        match readEscapedBytes c with
        | none => none
        | some (bytes, c) => readTagBytes verbatim fuel (bytes.reverse ++ done) c
      else if isTagChar verbatim ch then
        readTagBytes verbatim fuel (asciiByte ch :: done) (c.skip 1)
      else some (done.reverse, c)

/-- The bytes in front of the first null byte. -/
def untilNull (bytes : List UInt8) : List UInt8 := bytes.takeWhile (· != 0)

/-- A tag. The tag `!` alone has no handle, and neither has one between angle brackets. -/
def readTag (flow : Bool) (fuel : Nat) (c : Cursor) : Option (Token × Cursor) :=
  let read? : Option (Token × Cursor) :=
    if c.at? 1 '<' then
      match readTagBytes true fuel [] (c.skip 2) with
      | some (bytes@(_ :: _), c) =>
        if c.at? 0 '>' then some (.tag "" (untilNull bytes), c.skip 1) else none
      | _ => none
    else
      match readHandle c with
      | none => none
      | some (handle, c) =>
        if 1 < handle.length && handle.getLast? == some '!' then
          match readTagBytes false fuel [] c with
          | some (bytes@(_ :: _), c) => some (.tag (String.ofList handle) (untilNull bytes), c)
          | _ => none
        else
          -- What looked like a handle is the start of a local tag.
          (readTagBytes false fuel ((handle.drop 1).map asciiByte).reverse c).map fun (bytes, c) =>
            match untilNull bytes with
            | [] => (.tag "" [localMark], c)
            | bytes => (.tag "!" bytes, c)
  read?.bind fun (t, c) =>
    if c.endsWordAt 0 || (flow && c.at? 0 ',') then some (t, c) else none

/-- A number of at most nine digits in a version. -/
def readVersionNumber (c : Cursor) : Option (Nat × Cursor) :=
  let (ds, c) := c.span Char.isDigit
  if ds.isEmpty || 9 < ds.length then none else some (Decimal.ofDigits ds, c)

/-- What follows the name of a directive. -/
def readDirectiveValue (name : List Char) (fuel : Nat) (c : Cursor) : Option (Token × Cursor) :=
  let c := c.skipWhite
  if name = "YAML".toList then
    match readVersionNumber c with
    | none => none
    | some (major, c) =>
      if !c.at? 0 '.' then none
      else (readVersionNumber (c.skip 1)).map fun (minor, c) => (.version major minor, c)
  else if name = "TAG".toList then
    match readHandle c with
    | none => none
    | some (handle, c) =>
      -- A handle has a mark at both ends, or is one mark alone.
      if handle ≠ ['!'] && (handle.length < 2 || handle.getLast? != some '!') then none
      else if !c.whiteAt 0 then none
      else
        match readTagBytes true fuel [] c.skipWhite with
        | some (bytes@(_ :: _), c) =>
          if c.endsWordAt 0 then
            some (.shorthand (String.ofList handle) (untilNull bytes), c)
          else none
        | _ => none
  else none

/-- A directive with the rest of its line. -/
def readDirective (fuel : Nat) (c : Cursor) : Option (Token × Cursor) :=
  let (name, c) := (c.skip 1).span isNameChar
  if name.isEmpty || !c.endsWordAt 0 then none
  else
    match readDirectiveValue name fuel c with
    | none => none
    | some (t, c) =>
      let c := c.skipWhite.skipComment
      if c.endsLineAt 0 then some (t, c.takeBreak.2) else none

/-! ## 3. Layout -/

/-- Where a simple key may have started. -/
structure PendingKey where
  /-- Whether the line makes no sense unless it is a key. -/
  required : Bool
  /-- How many tokens came before it. -/
  number : Nat
  start : Cursor

/-- What is known in the middle of a text. -/
structure Layout where
  cursor : Cursor
  /-- The tokens so far, latest first. -/
  tokens : List Token := []
  /-- How many tokens there are. -/
  count : Nat := 0
  /-- The column of the innermost block collection; outside of any it is -1. -/
  indent : Int := -1
  /-- The columns of the collections around it. -/
  outer : List Int := []
  /-- The possible key of the innermost flow collection, or of the block level. -/
  pending : Option PendingKey := none
  /-- The possible keys of the levels around it; there are as many as open flow collections. -/
  suspended : List (Option PendingKey) := []
  /-- Whether a simple key may start here. -/
  keyAllowed : Bool := true

namespace Layout

def inFlow (l : Layout) : Bool := !l.suspended.isEmpty

def push (l : Layout) (t : Token) : Layout := { l with tokens := t :: l.tokens, count := l.count + 1 }

/-- Puts tokens, latest first, in front of the token of the given number. -/
def insertAt (l : Layout) (number : Nat) (ts : List Token) : Layout :=
  let later := l.count - number
  { l with tokens := l.tokens.take later ++ ts ++ l.tokens.drop later, count := l.count + ts.length }

/-- Opens a block collection at a column, unless one is open there or further right. -/
def openBlock (l : Layout) (column : Nat) (number : Nat) (t : Token) : Layout :=
  if l.inFlow || decide ((column : Int) ≤ l.indent) then l
  else { l.insertAt number [t] with indent := column, outer := l.indent :: l.outer }

/-- Closes the block collections to the right of a column. -/
def closeBlocks (l : Layout) (column : Int) : Layout :=
  if l.inFlow then l
  else
    let rec go (l : Layout) : List Int → Layout
      | [] => l
      | i :: outer =>
        if column < l.indent then go { l.push .blockEnd with indent := i, outer := outer } outer
        else l
    go l l.outer

/-- Gives up the possible key of this level. A key that was required is missed. -/
def dropKey (l : Layout) : Option Layout :=
  if l.pending.any (·.required) then none else some { l with pending := none }

/-- Marks this place as the possible start of a key. -/
def markKey (l : Layout) : Option Layout :=
  if l.keyAllowed then
    let key : PendingKey :=
      { required := !l.inFlow && l.indent == (l.cursor.column : Int)
        number := l.count, start := l.cursor }
    l.dropKey.map fun l => { l with pending := some key }
  else some l

/-- Whether a key can no longer be one: it must end on its line and within 1024 bytes. -/
def isStale (c : Cursor) (k : PendingKey) : Bool :=
  decide (k.start.line < c.line) || decide (k.start.index + 1024 < c.index)

/-- Gives up all keys that can no longer be one. -/
def dropStale (l : Layout) : Option Layout :=
  let stale (k? : Option PendingKey) : Bool := k?.any (isStale l.cursor)
  -- A key that its line needs cannot be given up.
  let missed (k? : Option PendingKey) : Bool := stale k? && k?.any (·.required)
  if missed l.pending || l.suspended.any missed then none
  else
    let keep (k? : Option PendingKey) : Option PendingKey := if stale k? then none else k?
    some { l with pending := keep l.pending, suspended := l.suspended.map keep }

/-- Passes over blanks, comments and line breaks. A tab counts as a blank only where no key can
start. A byte order mark at the start of a line is passed over too, but takes up a column. -/
def skipToToken : (fuel : Nat) → Layout → Layout
  | 0, l => l
  | fuel + 1, l =>
    let c := if l.cursor.column == 0 && l.cursor.at? 0 '\ufeff' then l.cursor.skip 1 else l.cursor
    -- Where a key can start, the column counts, and a tab has none.
    let tabs := l.inFlow || !l.keyAllowed
    let c := (c.span fun ch => ch == ' ' || (tabs && ch == '\t')).2.skipComment
    if (c.peek? 0).any isBreak then
      skipToToken fuel { l with cursor := c.takeBreak.2, keyAllowed := l.keyAllowed || !l.inFlow }
    else { l with cursor := c }

def pushMark (l : Layout) (t : Token) : Layout :=
  { l.push t with cursor := l.cursor.skip 1 }

def openFlow (l : Layout) (t : Token) : Option Layout :=
  l.markKey.map fun l =>
    { l.pushMark t with
      suspended := l.pending :: l.suspended, pending := none, keyAllowed := true }

/-- Closes a flow collection, if one is open. -/
def closeFlow (l : Layout) (t : Token) : Option Layout :=
  l.dropKey.map fun l =>
    let l := { l.pushMark t with keyAllowed := false }
    match l.suspended with
    | [] => l
    | k :: ks => { l with pending := k, suspended := ks }

/-- A hyphen in front of a list item. -/
def addItem (l : Layout) : Option Layout :=
  if !l.inFlow && !l.keyAllowed then none
  else
    (l.openBlock l.cursor.column l.count .blockListStart).dropKey.map fun l =>
      { l.pushMark .item with keyAllowed := true }

def addKey (l : Layout) : Option Layout :=
  if !l.inFlow && !l.keyAllowed then none
  else
    (l.openBlock l.cursor.column l.count .blockMapStart).dropKey.map fun l =>
      { l.pushMark .key with keyAllowed := !l.inFlow }

/-- A colon in front of a value: what was pending in front of it is its key. -/
def addValue (l : Layout) : Option Layout :=
  match l.pending with
  | some k =>
    -- The key came before it was known to be one, and so did the mapping.
    let l := (l.insertAt k.number [.key]).openBlock k.start.column k.number .blockMapStart
    some { l.pushMark .value with pending := none, keyAllowed := false }
  | none =>
    if !l.inFlow && !l.keyAllowed then none
    else
      let l := l.openBlock l.cursor.column l.count .blockMapStart
      some { l.pushMark .value with keyAllowed := !l.inFlow }

/-- A mark between documents or a directive: it closes all block collections. -/
def addDocumentToken (l : Layout) (read : Cursor → Option (Token × Cursor)) : Option Layout :=
  (l.closeBlocks (-1)).dropKey.bind fun l =>
    (read l.cursor).map fun (t, c) => { l.push t with cursor := c, keyAllowed := false }

/-- A token that may start a simple key. -/
def addKeyable (l : Layout) (read : Cursor → Option (Token × Cursor)) : Option Layout :=
  l.markKey.bind fun l =>
    (read l.cursor).map fun (t, c) => { l.push t with cursor := c, keyAllowed := false }

/-- A plain scalar. Where it ends after a line break, a key may start. -/
def addPlain (l : Layout) (fuel : Nat) : Option Layout :=
  l.markKey.bind fun l =>
    (plainText l.inFlow (l.indent + 1) fuel [] {} l.cursor).map fun (s, broken, c) =>
      { l.push (.scalar true (String.ofList s)) with cursor := c, keyAllowed := broken }

def addBlock (l : Layout) (literal : Bool) (fuel : Nat) : Option Layout :=
  l.dropKey.bind fun l =>
    (blockText literal l.indent fuel (l.cursor.skip 1)).map fun (s, c) =>
      { l.push (.scalar false (String.ofList s)) with cursor := c, keyAllowed := true }

/-- Whether a plain scalar may start with this character, whatever comes next. -/
def startsPlain (ch : Char) : Bool :=
  !(isWhite ch || isBreak ch || "-?:,[]\x7b\x7d#&*!|>'\"%@\x60".toList.contains ch)

/-- Adds the token at the cursor, where `ch` is the character there. -/
def addToken (l : Layout) (fuel : Nat) (ch : Char) : Option Layout :=
  let c := l.cursor
  let named (t : String → Token) : Cursor → Option (Token × Cursor) :=
    fun c => (readAnchor (c.skip 1)).map fun (name, c) => (t name, c)
  let quotes (single : Bool) : Cursor → Option (Token × Cursor) :=
    fun c => (quotedText single fuel [] (c.skip 1)).map fun (s, c) =>
      (.scalar false (String.ofList s), c)
  if c.column == 0 && ch == '%' then l.addDocumentToken (readDirective fuel)
  else if c.atDocumentMark then
    let t := if ch == '-' then Token.documentStart else .documentEnd
    l.addDocumentToken fun c => some (t, c.skip 3)
  else if ch == '[' then l.openFlow .flowListStart
  else if ch == '{' then l.openFlow .flowMapStart
  else if ch == ']' then l.closeFlow .flowListEnd
  else if ch == '}' then l.closeFlow .flowMapEnd
  else if ch == ',' then l.dropKey.map fun l => { l.pushMark .comma with keyAllowed := true }
  else if ch == '-' && c.endsWordAt 1 then l.addItem
  else if ch == '?' && (l.inFlow || c.endsWordAt 1) then l.addKey
  else if ch == ':' && (l.inFlow || c.endsWordAt 1) then l.addValue
  else if ch == '*' then l.addKeyable (named .reference)
  else if ch == '&' then l.addKeyable (named .anchor)
  else if ch == '!' then l.addKeyable (readTag l.inFlow fuel)
  else if ch == '|' && !l.inFlow then l.addBlock true fuel
  else if ch == '>' && !l.inFlow then l.addBlock false fuel
  else if ch == '\'' then l.addKeyable (quotes true)
  else if ch == '"' then l.addKeyable (quotes false)
  -- A hyphen, a question mark or a colon is plain when text follows right behind it.
  else if startsPlain ch || (ch == '-' && !c.whiteAt 1)
      || (!l.inFlow && (ch == '?' || ch == ':') && !c.endsWordAt 1) then l.addPlain fuel
  else none

/-- Adds the tokens up to the end of the text. `fuel` is greater than the count of characters left,
and every token takes one of them at least. -/
def run : (fuel : Nat) → Layout → Option Layout
  | 0, _ => none
  | fuel + 1, l =>
    match (l.skipToToken (fuel + 1)).dropStale with
    | none => none
    | some l =>
      -- A token further left ends the collections that are indented more.
      let l := l.closeBlocks l.cursor.column
      match l.cursor.peek? 0 with
      | none => (l.closeBlocks (-1)).dropKey
      | some ch =>
        match l.addToken (fuel + 1) ch with
        | none => none
        | some l => run fuel l

end Layout

def tokensOf? (text : List Char) : Option (List Token) :=
  if !text.all isAllowed then none
  else
    let start : Layout := { cursor := { rest := text } }
    (start.run (text.length + 2)).map (·.tokens.reverse)

end PromptTags.Yaml
