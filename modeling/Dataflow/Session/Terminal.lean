/-
  Declaring, renaming and removing the terminals of a graph.

  Renaming keeps the place and the value of a terminal and never takes a name that is in use.
  A type counts as changed when its text differs in more than the case of ASCII letters.
-/

import Dataflow.Session.Basic

namespace Dataflow

/-- A text with its ASCII letters in lower case. -/
def asciiFolded (s : String) : List Char := s.toList.map Char.toLower

/-- Whether two types have the same text, the case of ASCII letters aside. -/
def SlotType.readsAs (a b : SlotType) : Bool := asciiFolded a.text = asciiFolded b.text

namespace Session

variable {B σ : Type}

/-- Replaces the terminals of one direction, counts that, and tells observers what happened. -/
def setTerminals (s : Session B σ) (d : Direction) (ts : Assoc String Terminal)
    (events : List (Event B)) : Session B σ :=
  ((s.edit fun g => (g.withTerminals d ts).bump).logAll events).changed

/-- Declares a terminal, in the place of an older one of that name. -/
def addTerminal (s : Session B σ) (d : Direction) (name : String) (type : SlotType)
    (value : Option Value) : Session B σ :=
  s.setTerminals d ((s.graph.terminals d).insert name ⟨name, type, value⟩)
    [.terminalAdded d name type, .terminalsChanged]

/-- Sets the value of a terminal; says whether it exists. -/
def setTerminalValue (s : Session B σ) (d : Direction) (name : String) (value : Value) :
    Bool × Session B σ :=
  ((s.graph.terminals d).contains name, s.edit fun g =>
    g.withTerminals d ((g.terminals d).modify name fun t => { t with value := some value }))

/-- Renames a terminal; says whether that was possible. -/
def renameTerminal (s : Session B σ) (d : Direction) (old new : String) : Bool × Session B σ :=
  let ts := s.graph.terminals d
  if old ≠ new ∧ ts.contains new = false ∧ ts.contains old = true then
    (true, s.setTerminals d (ts.rekey old new fun t => { t with name := new })
      [.terminalRenamed d old new, .terminalsChanged])
  else (false, s)

/-- Changes the type of a terminal; says whether it changed. -/
def retypeTerminal (s : Session B σ) (d : Direction) (name : String) (type : SlotType) :
    Bool × Session B σ :=
  let ts := s.graph.terminals d
  match ts.get? name with
  | some t =>
    if t.type.readsAs type then (false, s)
    else
      (true, s.setTerminals d (ts.insert name { t with type }) [.terminalRetyped d name type])
  | none => (false, s)

/-- Removes a terminal; says whether it existed. -/
def removeTerminal (s : Session B σ) (d : Direction) (name : String) : Bool × Session B σ :=
  let ts := s.graph.terminals d
  if ts.contains name then
    (true, s.setTerminals d (ts.erase name) [.terminalRemoved d name, .terminalsChanged])
  else (false, s)

end Session

end Dataflow
