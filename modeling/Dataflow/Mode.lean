/-
  When the nodes of a graph run.
-/

namespace Dataflow

/-- When a step runs a node: always, only on events, never, or only when triggered. -/
inductive Mode where
  | always
  | onEvent
  | never
  | onTrigger
deriving DecidableEq, Repr, Inhabited

namespace Mode

/-- The number of a mode in data. -/
def number : Mode → Nat
  | always => 0
  | onEvent => 1
  | never => 2
  | onTrigger => 3

/-- The mode with a number. -/
def ofNumber? : Nat → Option Mode
  | 0 => some always
  | 1 => some onEvent
  | 2 => some never
  | 3 => some onTrigger
  | _ => none

theorem ofNumber?_number (m : Mode) : ofNumber? m.number = some m := by cases m <;> rfl

end Mode

end Dataflow
