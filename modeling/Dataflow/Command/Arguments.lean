/-
  The arguments of the command line.

  Arguments are read from left to right, and the first that cannot stand decides.  An option may
  carry its value behind an equals sign, directly behind its letter, or in the next argument;
  behind a lone pair of dashes everything is a file.
-/

import Dataflow.Numeric.Word

namespace Dataflow.Command

/-- What the arguments ask for. -/
structure Arguments where
  /-- The file with the settings. -/
  settings : Option String
  /-- How many steps to run. -/
  ticks : Option Nat
  /-- Whether to show the settings and do nothing else. -/
  printSettings : Bool
  /-- The file with the snapshot to load. -/
  snapshot : Option String
deriving DecidableEq, Inhabited

/-- Arguments that ask for nothing. -/
def Arguments.empty : Arguments := ⟨none, none, false, none⟩

/-- Why the arguments are not followed. -/
inductive Stop where
  | misuse
  | help
  | version
deriving DecidableEq, Repr

/-- An option that takes a value. -/
inductive Valued where
  | settings
  | ticks
deriving DecidableEq

/-! ## Values -/

/-- The number that some digits denote. -/
def number (cs : List Char) : Nat := cs.foldl (fun n c => 10 * n + (c.toNat - 48)) 0

/-- A count of steps: digits, maybe behind a plus, that fit a word. -/
def count? (text : String) : Option Nat :=
  let digits :=
    match text.toList with
    | '+' :: cs => cs
    | cs => cs
  if digits.isEmpty || !digits.all Char.isDigit then none
  else if number digits < Numeric.wordLimit then some (number digits) else none

/-- Sets what may be set once, to a text that is not empty. -/
def fileOnce (old : Option String) (text : String) : Except Stop (Option String) :=
  if old.isSome || text.isEmpty then .error .misuse else .ok (some text)

namespace Arguments

/-- Takes over the value of an option. -/
def set (a : Arguments) : Valued → String → Except Stop Arguments
  | .settings, text => (fileOnce a.settings text).map fun settings => { a with settings }
  | .ticks, text =>
    match a.ticks, count? text with
    | none, some n => .ok { a with ticks := some n }
    | _, _ => .error .misuse

/-- Takes over a file. -/
def setFile (a : Arguments) (text : String) : Except Stop Arguments :=
  (fileOnce a.snapshot text).map fun snapshot => { a with snapshot }

/-- Takes over the wish to see the settings. -/
def setPrint (a : Arguments) : Except Stop Arguments :=
  if a.printSettings then .error .misuse else .ok { a with printSettings := true }

end Arguments

/-! ## Reading -/

/-- How far the reading of arguments has come. -/
structure Reading where
  arguments : Arguments
  /-- The option that waits for its value. -/
  waiting : Option Valued
  /-- Whether everything that follows is a file. -/
  literal : Bool

/-- Goes on with other arguments, nothing waiting. -/
def Reading.after (r : Reading) (a : Except Stop Arguments) : Except Stop Reading :=
  a.map fun arguments => { r with arguments, waiting := none }

/-- The parts of an option in front of and behind its first equals sign. -/
def splitValue (cs : List Char) : List Char × Option (List Char) :=
  match cs.dropWhile (· ≠ '=') with
  | [] => (cs, none)
  | _ :: value => (cs.takeWhile (· ≠ '='), some value)

/-- Takes the value of an option, or waits for it. -/
def Reading.option (r : Reading) (o : Valued) : Option (List Char) → Except Stop Reading
  | some value => r.after (r.arguments.set o (String.ofList value))
  | none => .ok { r with waiting := some o }

/-- Reads an option by its name. -/
def Reading.long (r : Reading) (cs : List Char) : Except Stop Reading :=
  let (name, value) := splitValue cs
  match String.ofList name, value with
  | "settings", _ => r.option .settings value
  | "ticks", _ => r.option .ticks value
  | "print-settings", none => r.after r.arguments.setPrint
  | "help", none => .error .help
  | "version", none => .error .version
  | _, _ => .error .misuse

/-- The value that follows the letter of an option, if there is one. -/
def attached : List Char → Option (List Char)
  | [] => none
  | '=' :: cs => some cs
  | cs => some cs

/-- Reads an option by its letter. -/
def Reading.short (r : Reading) (c : Char) (rest : List Char) : Except Stop Reading :=
  match c with
  | 's' => r.option .settings (attached rest)
  | 't' => r.option .ticks (attached rest)
  | 'h' => .error .help
  | 'V' => .error .version
  | _ => .error .misuse

/-- Reads one argument. -/
def Reading.step (r : Reading) (arg : String) : Except Stop Reading :=
  let free := r.waiting.isNone
  if r.literal then r.after (r.arguments.setFile arg)
  else
    match arg.toList with
    | '-' :: '-' :: [] => if free then .ok { r with literal := true } else .error .misuse
    | '-' :: '-' :: cs => if free then r.long cs else .error .misuse
    | '-' :: c :: cs => if free then r.short c cs else .error .misuse
    | _ =>
      match r.waiting with
      | some o => r.after (r.arguments.set o arg)
      | none => r.after (r.arguments.setFile arg)

/-- Reads the arguments. -/
def Arguments.read (args : List String) : Except Stop Arguments := do
  let r ← args.foldlM Reading.step ⟨.empty, none, false⟩
  if r.waiting.isSome then throw .misuse
  return r.arguments

example : (Arguments.read ["-t", "4", "g"]).toOption = some ⟨none, some 4, false, some "g"⟩ := by
  decide +kernel
example : (Arguments.read ["--ticks=+4", "--", "-g"]).toOption
    = some ⟨none, some 4, false, some "-g"⟩ := by
  decide +kernel
example : (Arguments.read ["--ticks"]).toOption = none := by decide +kernel
example : (Arguments.read ["-1", "--version"]).toOption = none := by decide +kernel

end Dataflow.Command
