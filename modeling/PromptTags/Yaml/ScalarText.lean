/-
The text of scalars in their four written forms: plain, between single or double quotes, and as a
block of lines.

Line breaks inside plain and quoted text are folded: a single break becomes a space, and of several
the first is dropped. Blocks keep their breaks or fold them, as their header says.

The recursions run on a number (`fuel`) that is greater than the count of characters left; each turn
takes at least one of those.
-/
import PromptTags.Yaml.Cursor
import PromptTags.Yaml.Scalar

set_option autoImplicit false

namespace PromptTags.Yaml

/-! ## 1. Blanks and breaks between words -/

/-- Blanks and line breaks between two words. Once a line is broken, blanks are indentation. -/
structure Gap where
  white : List Char := []
  first : List Char := []
  later : List Char := []
  broken : Bool := false

namespace Gap

/-- A first break and the ones after it, folded. -/
def folded (first later : List Char) : List Char :=
  if first = ['\n'] then (if later.isEmpty then [' '] else later) else first ++ later

/-- What a gap stands for. -/
def text (g : Gap) : List Char := if g.broken then folded g.first g.later else g.white

/-- Reads on to the next word. In indentation before the column `limit`, a tab is an error. -/
def read (limit : Int) : (fuel : Nat) → Gap → Cursor → Option (Gap × Cursor)
  | 0, _, _ => none
  | fuel + 1, g, c =>
    match c.peek? 0 with
    | none => some (g, c)
    | some ch =>
      if isWhite ch then
        if g.broken then
          if ch == '\t' && decide ((c.column : Int) < limit) then none
          else read limit fuel g (c.skip 1)
        else read limit fuel { g with white := g.white ++ [ch] } (c.skip 1)
      else if isBreak ch then
        let (b, next) := c.takeBreak
        if g.broken then read limit fuel { g with later := g.later ++ b } next
        else read limit fuel { white := [], first := b, later := g.later, broken := true } next
      else some (g, c)

end Gap

/-! ## 2. Plain text -/

/-- The characters that structure flow collections. -/
def isFlowIndicator (c : Char) : Bool :=
  c == ',' || c == '[' || c == ']' || c == '{' || c == '}'

/-- A word of plain text, latest character first. In a flow collection a colon must not stand right
before a flow indicator. -/
def plainWord (flow : Bool) : (fuel : Nat) → List Char → Cursor → Option (List Char × Cursor)
  | 0, _, _ => none
  | fuel + 1, word, c =>
    match c.peek? 0 with
    | none => some (word, c)
    | some ch =>
      if isWhite ch || isBreak ch then some (word, c)
      else if flow && ch == ':' && (c.peek? 1).any (fun d => isFlowIndicator d || d == '?') then none
      else if (ch == ':' && c.endsWordAt 1) || (flow && isFlowIndicator ch) then some (word, c)
      else plainWord flow fuel (ch :: word) (c.skip 1)

/-- Plain text, and whether it ended after a line break. Outside flow collections its lines are
indented by at least `indent`. -/
def plainText (flow : Bool) (indent : Int) :
    (fuel : Nat) → (done : List Char) → Gap → Cursor → Option (List Char × Bool × Cursor)
  | 0, _, _, _ => none
  | fuel + 1, done, gap, c =>
    if c.atDocumentMark || c.at? 0 '#' then some (done, gap.broken, c)
    else
      match plainWord flow (fuel + 1) [] c with
      | none => none
      | some (word, c) =>
        let (done, gap) :=
          if word.isEmpty then (done, gap) else (done ++ gap.text ++ word.reverse, {})
        if !c.endsWordAt 0 || (c.peek? 0).isNone then some (done, gap.broken, c)
        else
          match Gap.read indent (fuel + 1) gap c with
          | none => none
          | some (gap, c) =>
            -- A line that is indented less belongs to what is around the text.
            if !flow && decide ((c.column : Int) < indent) then some (done, gap.broken, c)
            else plainText flow indent fuel done gap c

/-! ## 3. Quoted text -/

/-- The meaning of the character after a backslash, where it takes no number. -/
def escape? : Char → Option Char
  | '0' => some '\x00'
  | 'a' => some '\x07'
  | 'b' => some '\x08'
  | 't' => some '\t'
  | '\t' => some '\t'
  | 'n' => some '\n'
  | 'v' => some '\x0b'
  | 'f' => some '\x0c'
  | 'r' => some '\r'
  | 'e' => some '\x1b'
  | ' ' => some ' '
  | '"' => some '"'
  | '/' => some '/'
  | '\\' => some '\\'
  | 'N' => some '\x85'
  | '_' => some '\xa0'
  | 'L' => some '\u2028'
  | 'P' => some '\u2029'
  | _ => none

/-- How many digits the number after an escape character has. -/
def escapeDigits? : Char → Option Nat
  | 'x' => some 2
  | 'u' => some 4
  | 'U' => some 8
  | _ => none

/-- An escape after its backslash. -/
def readEscape (c : Cursor) : Option (Char × Cursor) :=
  match c.peek? 1 with
  | none => none
  | some ch =>
    match escape? ch, escapeDigits? ch with
    | some d, _ => some (d, c.skip 2)
    | none, some n =>
      let ds := (c.rest.drop 2).take n
      if ds.length < n then none
      else ((Text.numberIn? 16 ds).bind Text.charOfNumber?).map fun d => (d, c.skip (2 + n))
    | none, none => none

/-- A word of quoted text, latest character first, and whether it ended with an escaped break. -/
def quotedWord (single : Bool) :
    (fuel : Nat) → List Char → Cursor → Option (List Char × Bool × Cursor)
  | 0, _, _ => none
  | fuel + 1, word, c =>
    match c.peek? 0 with
    | none => some (word, false, c)
    | some ch =>
      if isWhite ch || isBreak ch then some (word, false, c)
      else if single then
        if ch == '\'' then
          if c.at? 1 '\'' then quotedWord single fuel ('\'' :: word) (c.skip 2)
          else some (word, false, c)
        else quotedWord single fuel (ch :: word) (c.skip 1)
      else if ch == '"' then some (word, false, c)
      else if ch == '\\' then
        -- An escaped break ends the word, and joins the lines without a blank.
        if (c.peek? 1).any isBreak then some (word, true, (c.skip 1).takeBreak.2)
        else
          match readEscape c with
          | none => none
          | some (d, c) => quotedWord single fuel (d :: word) c
      else quotedWord single fuel (ch :: word) (c.skip 1)

/-- Quoted text after its opening quote. A mark between documents and the end of the text are
errors inside it. -/
def quotedText (single : Bool) :
    (fuel : Nat) → (done : List Char) → Cursor → Option (List Char × Cursor)
  | 0, _, _ => none
  | fuel + 1, done, c =>
    if c.atDocumentMark || c.rest.isEmpty then none
    else
      match quotedWord single (fuel + 1) [] c with
      | none => none
      | some (word, broken, c) =>
        let done := done ++ word.reverse
        if c.at? 0 (if single then '\'' else '"') then some (done, c.skip 1)
        else
          match Gap.read (-1) (fuel + 1) { broken } c with
          | none => none
          | some (gap, c) => quotedText single fuel (done ++ gap.text) c

/-! ## 4. Blocks -/

/-- What a block does with the line breaks at its end. -/
inductive Chomping where
  | strip
  | clip
  | keep
deriving DecidableEq

/-- The header of a block: how its end is treated, and its indentation if it is given. -/
def blockHeader (c : Cursor) : Option (Chomping × Nat × Cursor) :=
  let chomping? (c : Cursor) : Option Chomping :=
    if c.at? 0 '+' then some .keep else if c.at? 0 '-' then some .strip else none
  let digit? (c : Cursor) : Option Nat :=
    match c.peek? 0 with
    | some ch => if ch.isDigit then some (ch.toNat - '0'.toNat) else none
    | none => none
  match chomping? c, digit? c with
  | some k, _ =>
    let c := c.skip 1
    match digit? c with
    | some 0 => none
    | some n => some (k, n, c.skip 1)
    | none => some (k, 0, c)
  | none, some 0 => none
  | none, some n =>
    let c := c.skip 1
    match chomping? c with
    | some k => some (k, n, c.skip 1)
    | none => some (.clip, n, c)
  | none, none => some (.clip, 0, c)

/-- Passes over empty lines and the indentation of the next one. While the indentation is unknown
(`none`) the deepest one met is remembered. -/
def blockBreaks (indent? : Option Nat) :
    (fuel : Nat) → (deepest : Nat) → (breaks : List Char) → Cursor →
      Option (Nat × List Char × Cursor)
  | 0, _, _, _ => none
  | fuel + 1, deepest, breaks, c =>
    let spaces := (c.rest.takeWhile (· == ' ')).length
    let spaces :=
      match indent? with
      | some n => min spaces (n - c.column)
      | none => spaces
    let c := c.skip spaces
    let deepest := max deepest c.column
    if indent?.all (fun n => decide (c.column < n)) && c.at? 0 '\t' then none
    else if (c.peek? 0).any isBreak then
      let (b, c) := c.takeBreak
      blockBreaks indent? fuel deepest (breaks ++ b) c
    else some (deepest, breaks, c)

/-- The lines of a block. `lead` is the break that ended the line before and `wasWhite` whether that
line started with white; `breaks` are the empty lines since. -/
def blockLines (literal : Bool) (indent : Nat) :
    (fuel : Nat) → (done lead breaks : List Char) → (wasWhite : Bool) → Cursor →
      Option (List Char × List Char × List Char × Cursor)
  | 0, _, _, _, _, _ => none
  | fuel + 1, done, lead, breaks, wasWhite, c =>
    if c.column ≠ indent ∨ c.rest.isEmpty then some (done, lead, breaks, c)
    else
      let white := c.whiteAt 0
      -- Only between two lines that do not start with white a single break is folded.
      let joined :=
        if !literal && lead == ['\n'] && !wasWhite && !white then
          (if breaks.isEmpty then [' '] else []) ++ breaks
        else lead ++ breaks
      let (line, c) := c.span fun _ => true
      let (lead, c) := c.takeBreak
      match blockBreaks (some indent) (fuel + 1) 0 [] c with
      | none => none
      | some (_, breaks, c) =>
        blockLines literal indent fuel (done ++ joined ++ line) lead breaks white c

/-- A block after its first character, inside a collection of the given indentation. -/
def blockText (literal : Bool) (outer : Int) (fuel : Nat) (c : Cursor) : Option (List Char × Cursor) :=
  match blockHeader c with
  | none => none
  | some (chomping, given, c) =>
    let c := c.skipWhite.skipComment
    if !c.endsLineAt 0 then none
    else
      let c := c.takeBreak.2
      let indent? := if given = 0 then none else some ((max outer 0).toNat + given)
      match blockBreaks indent? fuel 0 [] c with
      | none => none
      | some (deepest, breaks, c) =>
        -- Without a number in the header the first line of text gives the indentation.
        let indent := indent?.getD (max (max deepest (outer + 1).toNat) 1)
        match blockLines literal indent fuel [] [] breaks false c with
        | none => none
        | some (done, lead, breaks, c) =>
          let done := if chomping = .strip then done else done ++ lead
          some (if chomping = .keep then done ++ breaks else done, c)

end PromptTags.Yaml
