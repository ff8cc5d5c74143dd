/-
The value of a YAML document.

Nodes get their values from the top down: an alias stands for the value of the node it refers to, a
local tag stays on the value, and the keys of a mapping must differ. Collections may be nested 128
deep, aliases counted, and following aliases is limited to a hundred times the size of the document,
so that a small document cannot stand for a huge value.
-/
import PromptTags.Yaml.Node

set_option autoImplicit false

namespace PromptTags.Yaml

/-! ## 1. Limits -/

/-- How deep collections may be nested. -/
def maxNesting : Nat := 128

/-- How often aliases may be followed, for each part of the document. -/
def aliasAllowance : Nat := 100

/-- Computing a value while counting the aliases that may still be followed. -/
abbrev Resolve := StateT Nat Option

def spendAlias : Resolve Unit := do
  match ← get with
  | 0 => failure
  | n + 1 => set n

/-! ## 2. Values -/

/-- A value with the name of its tag, if the tag is local. -/
def withTag (tag? : Option Tag) (v : Value) : Value :=
  match tag?.bind Tag.name? with
  | some name => .tagged name v
  | none => v

/-- The pairs of a mapping with pairwise different keys. -/
def distinctPairs : List (Value × Value) → Option (List (Value × Value))
  | [] => some []
  | p :: ps =>
    if ps.any (·.1.same p.1) then none else (distinctPairs ps).map (p :: ·)

/-- The value of a node, with collections nested at most `depth` deep. -/
def nodeValue (d : Document) : (depth : Nat) → Node → Resolve Value
  | depth, n => do
    let n ←
      match n with
      | .reference id =>
        spendAlias
        match d.resolve? id with
        | some n => pure n
        | none => failure
      | n => pure n
    match n, depth with
    | .reference _, _ => failure
    | .scalar tag plain text, _ =>
      match scalarValue tag plain text with
      | some v => return v
      | none => failure
    | .list _ _, 0 => failure
    | .map _ _, 0 => failure
    | .list tag ns, depth + 1 => return withTag tag (.list (← ns.mapM (nodeValue d depth)))
    | .map tag ps, depth + 1 =>
      let pairs ← ps.mapM fun (k, v) => do
        let key ← nodeValue d depth k
        return (key, ← nodeValue d depth v)
      match distinctPairs pairs with
      | some pairs => return withTag tag (.map pairs)
      | none => failure

def Document.value? (d : Document) : Option Value :=
  (nodeValue d maxNesting d.top).run' (aliasAllowance * d.top.size)

/-- The value of YAML text, if the text is one document. -/
def load? (text : String) : Option Value :=
  (tokensOf? text.toList).bind fun tokens =>
    (Document.ofTokens? tokens).bind Document.value?

end PromptTags.Yaml
