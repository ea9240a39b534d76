/-
  A folder of texts in memory, in which a run can be carried out without a disk.

  A path leads into the folder when nothing but dots and slashes stands before a name in it.  A
  path of dots and slashes alone leads to a folder, which holds no text; any other path leads
  nowhere.
-/

import Dataflow.Command.Run

namespace Dataflow.Command

/-- Texts by their names. -/
abbrev Folder := List (String × String)

/-- The text of a name. -/
def Folder.named (f : Folder) (name : String) : Content :=
  match f.lookup name with
  | some s => .text s
  | none => .missing

/-- A path without the dots and slashes in front. -/
def withoutDots : List Char → List Char
  | '.' :: '/' :: cs => withoutDots cs
  | '/' :: cs => withoutDots cs
  | cs => cs

/-- What a path leads to from inside the folder. -/
def Folder.content (f : Folder) (path : String) : Content :=
  let rest := String.ofList (withoutDots path.toList)
  if ["", ".", "..", "../"].contains rest then .unreadable
  else if path.toList.head? = some '/' then f.named path
  else f.named rest

example : (Folder.content [("a", "x")] "././/a" matches .text "x") = true := by decide +kernel
example : (Folder.content [("a", "x")] "a/" matches .missing) = true := by decide +kernel
example : (Folder.content [("a", "x")] "./" matches .unreadable) = true := by decide +kernel

end Dataflow.Command
