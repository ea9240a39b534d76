/-
  White space in the sense of Unicode, and cutting it off at both ends of a text.
-/

import Dataflow.Text.Range

namespace Dataflow.Text

/-- The code points of white space. -/
def blankRanges : List (Nat × Nat) := [
  (9, 13), (32, 32), (133, 133), (160, 160), (5760, 5760), (8192, 8202), (8232, 8233),
  (8239, 8239), (8287, 8287), (12288, 12288)]

/-- Whether a character is white space. -/
def isBlank (c : Char) : Bool := inRanges blankRanges c

/-- Cuts white space off the start. -/
def trimStart (cs : List Char) : List Char := cs.dropWhile isBlank

/-- Cuts white space off both ends. -/
def trim (cs : List Char) : List Char := (trimStart (trimStart cs).reverse).reverse

example : trim [' ', 'a', ' ', 'b', '\t'] = ['a', ' ', 'b'] := by decide
example : trim [' ', ' '] = [] := by decide

end Dataflow.Text
