/-
Reading prompt text.

A prompt is a sequence of values between commas. A value is a tag or a group in parentheses, and
either may be followed by a colon and a weight:

    expr   = (value ("," value)*)?
    value  = group | plain
    group  = "(" (value ("," value)*)? ")" weight?
    plain  = text weight?
    weight = ":" digits with at most one point

Blanks may stand around every part. Reading never fails: a stray delimiter is passed over, a weight
that is no number counts as 1.0, a group that is never closed keeps its members and takes no weight.
Groups may be nested 64 deep; a parenthesis that would open one more is passed over as well.

Every reader takes the first character of what it reads apart from the others and says in its type
that no more than those others are left. So each turn of a loop moves forward, and the loops end.
-/
import PromptTags.Decimal.Numeral
import PromptTags.Prompt.Token
import PromptTags.Text.Blank

set_option autoImplicit false

namespace PromptTags.Prompt

open Text (isBlank skipBlanks trimmed)

/-! ## 1. Weights -/

/-- The characters that end a tag's text. -/
def isDelimiter (c : Char) : Bool := c == ',' || c == '(' || c == ')' || c == ':'

/-- Splits off the longest run of digits with at most one point among them; `dot` tells whether a
point may still come. The run is given as the digits before and after the point. -/
def splitNumber (dot : Bool) : List Char → (List Char × List Char) × List Char
  | [] => (([], []), [])
  | c :: cs =>
    if c.isDigit then
      let ((whole, fraction), rest) := splitNumber dot cs
      if dot then ((c :: whole, fraction), rest) else ((whole, c :: fraction), rest)
    else if dot && c == '.' then splitNumber false cs
    else (([], []), c :: cs)

theorem splitNumber_length_le (dot : Bool) (cs : List Char) :
    (splitNumber dot cs).2.length ≤ cs.length := by
  induction cs generalizing dot with
  | nil => simp [splitNumber]
  | cons c cs ih =>
    have h := ih dot
    have h' := ih false
    by_cases hc : c.isDigit = true
    · cases dot <;> simp [splitNumber, hc] at h ⊢ <;> omega
    · cases hd : (dot && c == '.')
      · simp [splitNumber, hc, hd]
      · simp [splitNumber, hc, hd]; omega

/-- The number written by the digits before and after a point. Without any digit, and past the
largest double, it is the default weight. -/
def literalWeight (whole fraction : List Char) : Float :=
  let w := Decimal.nearest (Decimal.ofDigits (whole ++ fraction)) (Decimal.tenTo fraction.length)
  if whole.isEmpty && fraction.isEmpty then defaultWeight
  else if w.isFinite then w else defaultWeight

/-- What a reader found at the start of `cs`, and what follows it. -/
structure Reading (α : Type) (cs : List Char) where
  value : α
  rest : List Char
  rest_le : rest.length ≤ cs.length

/-- A weight, if a colon comes next. Blanks before the colon are passed over, whether it comes or
not. -/
def readWeight (cs : List Char) : Reading (Option Float) cs :=
  match h : skipBlanks cs with
  | ':' :: r =>
    { value := some (literalWeight (splitNumber true r).1.1 (splitNumber true r).1.2)
      rest := (splitNumber true r).2
      rest_le := by
        have h₁ := Text.skipBlanks_length_le cs
        have h₂ := splitNumber_length_le true r
        simp only [h, List.length_cons] at h₁
        omega }
  | r =>
    { value := none, rest := r
      rest_le := by
        have h₁ := Text.skipBlanks_length_le cs
        simpa only [h] using h₁ }

/-! ## 2. Values -/

/-- A tag whose text starts with the given characters. Empty text is no tag; a weight behind it is
passed over all the same. -/
def readPlain (start cs : List Char) : Reading (Option Token) cs :=
  let name := trimmed (start ++ cs.takeWhile (!isDelimiter ·))
  let w := readWeight (cs.dropWhile (!isDelimiter ·))
  { value := if name.isEmpty then none
      else some (.plain (String.ofList name) (w.value.getD defaultWeight))
    rest := w.rest
    rest_le := Nat.le_trans w.rest_le (List.dropWhile_suffix _).length_le }

/-- The weight `a * b`; a product that is not finite is the default weight. -/
def scaled (a b : Float) : Float :=
  let product := a * b
  if product.isFinite then product else defaultWeight

def Token.scale (w : Float) : Token → Token
  | .plain n v => .plain n (scaled v w)
  | .group ms v => .group ms (scaled v w)

def dropComma : List Char → List Char
  | ',' :: r => r
  | cs => cs

theorem dropComma_length_le (cs : List Char) : (dropComma cs).length ≤ cs.length := by
  unfold dropComma; split <;> simp

/-- The members of a group up to the parenthesis that closes it, or to the end of the text. -/
def readMembers (item : (c : Char) → (r : List Char) → Reading (Option Token) r)
    (cs : List Char) : Reading (List Token) cs :=
  match h : skipBlanks cs with
  | [] => { value := [], rest := [], rest_le := Nat.zero_le _ }
  | c :: r =>
    have hr : r.length < cs.length := by
      have := Text.skipBlanks_length_le cs
      simp only [h, List.length_cons] at this
      omega
    if c = ')' then { value := [], rest := c :: r, rest_le := hr }
    else
      -- What starts no value is passed over by `item`, so every turn takes a character.
      let one := item c r
      let next := dropComma (skipBlanks one.rest)
      have hn : next.length ≤ r.length :=
        Nat.le_trans (dropComma_length_le _)
          (Nat.le_trans (Text.skipBlanks_length_le _) one.rest_le)
      let more := readMembers item next
      { value := (one.value.map Token.spliced).getD [] ++ more.value, rest := more.rest
        rest_le := by have := more.rest_le; omega }
termination_by cs.length
decreasing_by all_goals exact Nat.lt_of_le_of_lt hn hr

/-- A group after its opening parenthesis. -/
def readGroup (item : (c : Char) → (r : List Char) → Reading (Option Token) r)
    (cs : List Char) : Reading (Option Token) cs :=
  let inner := readMembers item cs
  match h : inner.rest with
  | ')' :: r =>
    let w := readWeight r
    { value := some (match w.value with
        | some f => .group (inner.value.map (Token.scale f)) f
        | none => .group inner.value defaultWeight)
      rest := w.rest
      rest_le := by
        have h₁ := inner.rest_le
        have h₂ := w.rest_le
        simp only [h, List.length_cons] at h₁
        omega }
  | r =>
    -- A group that is not closed takes no weight.
    { value := some (.group inner.value defaultWeight), rest := r
      rest_le := by have h₁ := inner.rest_le; simpa only [h] using h₁ }

/-- How many groups may be open at a time. -/
def maxDepth : Nat := 64

/-- The value that starts with `c`, when `room` more groups may be opened. A delimiter other than
an opening parenthesis starts no tag; after a colon, the weight is passed over. -/
def readValue : (room : Nat) → (c : Char) → (cs : List Char) → Reading (Option Token) cs
  | 0, c, cs => if isDelimiter c && c != ':' then passOver c cs else readStart c cs
  | room + 1, c, cs =>
    if c = '(' then readGroup (readValue room) cs
    else if isDelimiter c && c != ':' then passOver c cs
    else readStart c cs
where
  /-- No value: an opening parenthesis too many is dropped in front of a tag, a comma or a closing
  parenthesis is dropped alone. -/
  passOver (c : Char) (cs : List Char) : Reading (Option Token) cs :=
    if c = '(' then readPlain [] cs
    else { value := none, rest := cs, rest_le := Nat.le_refl _ }
  /-- A tag's text, or a weight without a tag. -/
  readStart (c : Char) (cs : List Char) : Reading (Option Token) cs :=
    if c = ':' then
      { value := none, rest := (splitNumber true cs).2, rest_le := splitNumber_length_le true cs }
    else readPlain [c] cs

/-! ## 3. Whole prompts -/

/-- The tokens of prompt text, with groups replaced by their members. -/
def readTokens (cs : List Char) : List Token :=
  match h : skipBlanks cs with
  | [] => []
  | c :: r =>
    have hr : r.length < cs.length := by
      have := Text.skipBlanks_length_le cs
      simp only [h, List.length_cons] at this
      omega
    let one := readValue maxDepth c r
    let next := dropComma (skipBlanks one.rest)
    have hn : next.length ≤ r.length :=
      Nat.le_trans (dropComma_length_le _)
        (Nat.le_trans (Text.skipBlanks_length_le _) one.rest_le)
    (one.value.map Token.spliced).getD [] ++ readTokens next
termination_by cs.length
decreasing_by all_goals exact Nat.lt_of_le_of_lt hn hr

/-- The tokens of a prompt in the order of its text. -/
def parseTokens (text : String) : List Token := readTokens text.toList

/-- The tags of a prompt in the order of its text, each with its effective weight. -/
def parse (text : String) : List Tag := (parseTokens text).filterMap Token.tag?

end PromptTags.Prompt
