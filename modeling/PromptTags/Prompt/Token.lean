/-
Weighted tags, and the tokens that prompt text is read into.

A tag is a name and a weight. A token is either a tag or a group of tokens. The weight of a group
that was read from text has been multiplied into its members already, so a group's own weight is
never applied again: `leaves` lists the tags of a token with the weights they carry themselves.
-/

set_option autoImplicit false

namespace PromptTags

/-- A tag name with its weight. -/
structure Tag where
  name : String
  weight : Float
deriving DecidableEq, Repr, Inhabited

/-- The weight of a tag that is written without one. -/
def defaultWeight : Float := 1.0

namespace Prompt

/-- A tag or a group of tokens. -/
inductive Token where
  | plain (name : String) (weight : Float)
  | group (members : List Token) (weight : Float)
deriving Repr, Inhabited

namespace Token

def name? : Token → Option String
  | plain n _ => some n
  | group _ _ => none

/-- The weight of the tag or of the group as a whole. -/
def weight : Token → Float
  | plain _ w => w
  | group _ w => w

def tag? : Token → Option Tag
  | plain n w => some ⟨n, w⟩
  | group _ _ => none

mutual
/-- The tags of a token from left to right, each with its own weight. -/
def leaves : Token → List Tag
  | plain n w => [⟨n, w⟩]
  | group ms _ => leavesOf ms

def leavesOf : List Token → List Tag
  | [] => []
  | t :: ts => leaves t ++ leavesOf ts
end

@[simp] theorem leaves_plain (n : String) (w : Float) : (plain n w).leaves = [⟨n, w⟩] := by
  rw [leaves]

@[simp] theorem leaves_group (ms : List Token) (w : Float) :
    (group ms w).leaves = ms.flatMap leaves := by
  rw [leaves]
  induction ms with
  | nil => rw [leavesOf]; rfl
  | cons t ts ih => rw [leavesOf, ih, List.flatMap_cons]

/-- A token as part of a sequence: a group stands for its members. -/
def spliced : Token → List Token
  | plain n w => [plain n w]
  | group ms _ => ms

end Token

end Prompt

end PromptTags
