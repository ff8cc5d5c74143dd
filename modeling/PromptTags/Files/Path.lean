/-
Paths.

A path is text, cut into parts at every slash. An empty part and the part `.` stay where they are,
`..` goes up, and any other part is a name. A path that starts with a slash is absolute.
-/
import PromptTags.Text.Pieces

set_option autoImplicit false

namespace PromptTags.Path

/-- What stands between the slashes. -/
def parts (path : String) : List String := (Text.pieces '/' path.toList).map String.ofList

def isAbsolute (path : String) : Bool := path.toList.head? == some '/'

/-- A path below another one. An absolute path stands for itself. -/
def join (base path : String) : String :=
  if isAbsolute path || base.isEmpty then path
  else if base.toList.getLast? == some '/' then base ++ path
  else base ++ "/" ++ path

/-- The path of a name within a directory that is given by its own path from the top; the top
itself has the empty path. -/
def within (directory name : String) : String :=
  if directory.isEmpty then name else directory ++ "/" ++ name

/-- Whether a path only goes down: it is relative and not empty, it never goes up, and it does not
start with the directory that it is relative to. -/
def isDescending (path : String) : Bool :=
  !path.isEmpty && !isAbsolute path && !(parts path).contains ".." &&
    (parts path).head? != some "."

end PromptTags.Path
