/-
The nodes of a YAML document.

A node is a scalar, a list or a mapping as it is written, with its tag and before its meaning is
looked up; an alias stands for a node that carries an anchor. Tokens become nodes by the grammar of
YAML: block collections end at a closing token, lists that are indented like the mapping around them
end where no hyphen follows, and what is left out between two tokens is an empty plain scalar.

The recursion runs on a number greater than that of the tokens left; a turn that takes no token
closes a collection or stands for an empty scalar, so four turns for each token are enough.
-/
import PromptTags.Yaml.Token

set_option autoImplicit false

namespace PromptTags.Yaml

/-! ## 1. Nodes -/

/-- A node of a document. -/
inductive Node where
  | reference (id : Nat)
  | scalar (tag? : Option Tag) (plain : Bool) (text : String)
  | list (tag? : Option Tag) (items : List Node)
  | map (tag? : Option Tag) (pairs : List (Node × Node))
deriving Repr, Inhabited

namespace Node

/-- The scalar that stands where nothing is written. -/
def blank : Node := scalar none true ""

mutual
/-- How many parts a node has; a collection has one for each of its ends. -/
def size : Node → Nat
  | reference _ => 1
  | scalar _ _ _ => 1
  | list _ ns => sizeOfItems ns + 2
  | map _ ps => sizeOfPairs ps + 2

def sizeOfItems : List Node → Nat
  | [] => 0
  | n :: ns => size n + sizeOfItems ns

def sizeOfPairs : List (Node × Node) → Nat
  | [] => 0
  | (k, v) :: ps => size k + size v + sizeOfPairs ps
end

end Node

/-- A node that carries an anchor. -/
structure Anchored where
  /-- The number by which aliases refer to it. -/
  id : Nat
  /-- Its place among the nodes that carry an anchor. -/
  place : Nat
  node : Node

/-- A document: its top node and the nodes that aliases may refer to. -/
structure Document where
  top : Node
  anchored : List Anchored

/-- The node that an alias refers to: of several with its number, the last in the document. -/
def Document.resolve? (d : Document) (id : Nat) : Option Node :=
  let found := d.anchored.filter (·.id == id)
  (found.foldl (fun (best : Option Anchored) a =>
    if best.any (fun b => decide (a.place ≤ b.place)) then best else some a) none).map (·.node)

/-! ## 2. From tokens to nodes -/

/-- The tokens still to be read, and the names known so far. -/
structure Source where
  tokens : List Token
  /-- Anchor names with the numbers of their nodes. A new number is the count of the names. -/
  names : List (String × Nat) := []
  anchored : List Anchored := []
  /-- How many anchors have been met. -/
  places : Nat := 0
  /-- Tag handles with what they stand for. -/
  handles : List (String × List UInt8) := []

/-- Reading from a source; nothing is read where the grammar is broken. -/
abbrev Build := StateT Source Option

namespace Build

def peek : Build (Option Token) := do return (← get).tokens.head?

def drop : Build Unit := modify fun s => { s with tokens := s.tokens.drop 1 }

/-- Passes over the next token if it is the given one, and tells whether it was. -/
def eat (t : Token) : Build Bool := do
  if (← peek) == some t then
    drop
    return true
  else return false

/-- The full tag for a handle and what follows it. -/
def resolveTag (handle : String) (suffix : List UInt8) : Build Tag := do
  if handle.isEmpty then return Tag.ofBytes suffix
  else
    match (← get).handles.lookup handle with
    | some start => return Tag.ofBytes (start ++ suffix)
    | none => failure

def tag? : Build (Option Tag) := do
  match ← peek with
  | some (.tag handle suffix) =>
    drop
    return some (← resolveTag handle suffix)
  | _ => return none

/-- An anchor, if one comes next: its number and its place. -/
def anchor? : Build (Option (Nat × Nat)) := do
  match ← peek with
  | some (.anchor name) =>
    drop
    let s ← get
    let id := s.names.length
    -- A name that is given again means the later node from here on.
    let others := s.names.filter (·.1 != name)
    set { s with names := (name, id) :: others, places := s.places + 1 }
    return some (id, s.places)
  | _ => return none

/-- An anchor and a tag in either order, each at most once. -/
def properties : Build (Option (Nat × Nat) × Option Tag) := do
  match ← anchor? with
  | some a => return (some a, ← tag?)
  | none =>
    let t ← tag?
    if t.isSome then return (← anchor?, t) else return (none, none)

def note (anchor : Option (Nat × Nat)) (n : Node) : Build Node := do
  match anchor with
  | some (id, place) =>
    modify fun s => { s with anchored := ⟨id, place, n⟩ :: s.anchored }
    return n
  | none => return n

/-- Whether the next token is one of those that end a value before it has begun. -/
def atAny (ts : List Token) : Build Bool := do return (← peek).any ts.contains

mutual
/-- A node. `block` tells whether it may be a block collection, and `hyphens` whether it may be a
list that is indented like the mapping around it. -/
def node (block hyphens : Bool) : (fuel : Nat) → Build Node
  | 0 => failure
  | fuel + 1 => do
    match ← peek with
    | some (.reference name) =>
      drop
      match (← get).names.lookup name with
      | some id => return .reference id
      | none => failure
    | _ =>
      let (anchor, tag) ← properties
      let next ← peek
      -- With an anchor or a tag, nothing at all is a node too.
      let omitted : Build Node :=
        if anchor.isSome || tag.isSome then pure (.scalar tag true "") else failure
      let n ←
        match next with
        | some (.scalar plain text) => do
          drop
          pure (.scalar tag plain text)
        | some .flowListStart => do
          drop
          pure (.list tag (← flowItems true fuel))
        | some .flowMapStart => do
          drop
          pure (.map tag (← flowPairs true fuel))
        | some .item => if hyphens then pure (.list tag (← hyphenItems fuel)) else omitted
        | some .blockListStart =>
          if block then do
            drop
            pure (.list tag (← blockItems fuel))
          else omitted
        | some .blockMapStart =>
          if block then do
            drop
            pure (.map tag (← blockPairs fuel))
          else omitted
        | _ => omitted
      note anchor n

/-- The items of a block list, up to its closing token. -/
def blockItems : (fuel : Nat) → Build (List Node)
  | 0 => failure
  | fuel + 1 => do
    if ← eat .item then
      let n ← if ← atAny [.item, .blockEnd] then pure Node.blank else node true false fuel
      return n :: (← blockItems fuel)
    else if ← eat .blockEnd then return []
    else failure

/-- The items of a list without an indentation of its own. -/
def hyphenItems : (fuel : Nat) → Build (List Node)
  | 0 => failure
  | fuel + 1 => do
    if ← eat .item then
      let n ←
        if ← atAny [.item, .key, .value, .blockEnd] then pure Node.blank else node true false fuel
      return n :: (← hyphenItems fuel)
    else return []

/-- The pairs of a block mapping, up to its closing token. -/
def blockPairs : (fuel : Nat) → Build (List (Node × Node))
  | 0 => failure
  | fuel + 1 => do
    if ← eat .key then
      let k ← if ← atAny [.key, .value, .blockEnd] then pure Node.blank else node true true fuel
      let v ← blockValue fuel
      return (k, v) :: (← blockPairs fuel)
    else if ← eat .blockEnd then return []
    else failure

/-- The value behind the key of a block mapping. -/
def blockValue : (fuel : Nat) → Build Node
  | 0 => failure
  | fuel + 1 => do
    if ← eat .value then
      if ← atAny [.key, .value, .blockEnd] then return Node.blank else node true true fuel
    else return Node.blank

/-- The items of a flow list, up to its bracket; before all but the first there is a comma. An item
may be a single pair. -/
def flowItems (first : Bool) : (fuel : Nat) → Build (List Node)
  | 0 => failure
  | fuel + 1 => do
    if ← eat .flowListEnd then return []
    else
      if !first then
        if !(← eat .comma) then failure
      if ← eat .flowListEnd then return []
      else if ← eat .key then
        let p ← flowPair fuel
        return .map none [p] :: (← flowItems false fuel)
      else
        let n ← node false false fuel
        return n :: (← flowItems false fuel)

/-- The single pair of a mapping in a flow list. Where its key is left out, the token that follows
is passed over. -/
def flowPair : (fuel : Nat) → Build (Node × Node)
  | 0 => failure
  | fuel + 1 => do
    let k ←
      if ← atAny [.value, .comma, .flowListEnd] then
        drop
        pure Node.blank
      else node false false fuel
    if ← eat .value then
      if ← atAny [.comma, .flowListEnd] then return (k, Node.blank)
      else return (k, ← node false false fuel)
    else return (k, Node.blank)

/-- The pairs of a flow mapping, up to its brace; before all but the first there is a comma. -/
def flowPairs (first : Bool) : (fuel : Nat) → Build (List (Node × Node))
  | 0 => failure
  | fuel + 1 => do
    if ← eat .flowMapEnd then return []
    else
      if !first then
        if !(← eat .comma) then failure
      if ← eat .flowMapEnd then return []
      else if ← eat .key then
        let k ←
          if ← atAny [.value, .comma, .flowMapEnd] then pure Node.blank else node false false fuel
        let v ←
          if ← eat .value then
            if ← atAny [.comma, .flowMapEnd] then pure Node.blank else node false false fuel
          else pure Node.blank
        return (k, v) :: (← flowPairs false fuel)
      else
        let k ← node false false fuel
        return (k, Node.blank) :: (← flowPairs false fuel)
end

/-- The directives in front of a document. There is at most one version, which must be 1.1 or 1.2,
and every handle is given at most once; the handles of YAML itself can be given anew. -/
def directives : (fuel : Nat) → (versioned : Bool) → (given : List (String × List UInt8)) →
      Build Unit
  | 0, _, _ => failure
  | fuel + 1, versioned, given => do
    match ← peek with
    | some (.version major minor) =>
      if versioned || major != 1 || (minor != 1 && minor != 2) then failure
      else
        drop
        directives fuel true given
    | some (.shorthand handle start) =>
      if (given.lookup handle).isSome then failure
      else
        drop
        directives fuel versioned ((handle, start) :: given)
    | _ =>
      modify fun s => { s with handles := given ++ [("!", [localMark]), ("!!", coreStart)] }

/-- The only document of a text. A text without any holds an empty one. -/
def document : Build Node := do
  -- Four steps for each token are enough.
  let fuel := 4 * (← get).tokens.length + 8
  let explicit := (← peek).any fun t =>
    match t with
    | .version _ _ => true
    | .shorthand _ _ => true
    | .documentStart => true
    | _ => false
  if (← peek).isNone then return Node.blank
  else
    directives fuel false []
    if explicit then
      if !(← eat .documentStart) then failure
    let top ←
      if explicit then
        match ← peek with
        | none => pure Node.blank
        | some .documentStart => pure Node.blank
        | some .documentEnd => pure Node.blank
        | some (.version _ _) => pure Node.blank
        | some (.shorthand _ _) => pure Node.blank
        | some _ => node true false fuel
      else node true false fuel
    -- Ends of documents may be marked more than once.
    modify fun s => { s with tokens := s.tokens.dropWhile (· == .documentEnd) }
    if (← peek).isNone then return top else failure

end Build

def Document.ofTokens? (tokens : List Token) : Option Document :=
  (Build.document.run { tokens }).map fun (top, s) => { top, anchored := s.anchored }

end PromptTags.Yaml
