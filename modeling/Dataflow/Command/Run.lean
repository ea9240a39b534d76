/-
  What a run of the command does.

  A run reads at most two files, the settings and a snapshot, and ends with a reply.  It is a
  value that asks for files, so that the same run can be carried out on a disk or on a table of
  texts.
-/

import Dataflow.Catalog
import Dataflow.Command.Arguments
import Dataflow.Demo
import Dataflow.Engine
import Dataflow.Record.Reader
import Dataflow.Record.Writer
import Dataflow.Settings.Reader
import Dataflow.Settings.Writer

namespace Dataflow.Command

/-! ## Runs -/

/-- What a file holds. -/
inductive Content where
  | missing
  | unreadable
  | text (s : String)

/-- How a run ends: its exit code and what it has written. -/
structure Reply where
  exit : Nat
  stdout : String
deriving DecidableEq, Repr

/-- A run that has failed, without a word. -/
def Reply.failure : Reply := ⟨1, ""⟩

/-- A run that asks for files. -/
inductive Job where
  | done (reply : Reply)
  | read (path : String) (next : Content → Job)

/-- Carries out a run, given what the files hold. -/
def Job.reply (files : String → Content) : Job → Reply
  | done reply => reply
  | read path next => (next (files path)).reply files

/-! ## The work -/

/-- Steps a graph until it has failed or all steps are run. -/
def steps : Nat → Body Catalog Unit (Except GraphError Unit)
  | 0 => return .ok ()
  | n + 1 => do
    match ← Body.tick with
    | .error e => return .error e
    | .ok () =>
      let g ← Body.graph
      if g.failed then return .ok () else steps n

/-- Fills the graph: with a snapshot, or with the demonstration. -/
def fill : Option Snapshot → Body Catalog Unit Bool
  | some s => do
    let _ ← Body.perform (.load s false)
    return true
  | none => do
    match ← Demo.build with
    | .ok _ => return true
    | .error _ => return false

/-- Fills the graph and runs it; answers the graph, unless something failed. -/
def work (snapshot : Option Snapshot) (ticks : Nat) :
    Body Catalog Unit (Option (Graph Catalog)) := do
  if !(← fill snapshot) then return none
  Body.edit .start
  match ← steps ticks with
  | .error _ => return none
  | .ok () =>
    Body.edit .stop
    let g ← Body.graph
    return some g

/-- The line that shows what a watch holds. -/
def watchLine (n : Node Catalog) : String :=
  n.displayTitle ++ ": " ++ ((n.property? "value").getD .null).text ++ "\n"

/-- What is written about a graph: its snapshot, and what its watches hold. -/
def report (g : Graph Catalog) : String :=
  g.snapshotInOrder.prettyText ++ "\n"
    ++ String.join ((g.ofType "basic/watch").map watchLine)

/-- Runs a graph and reports on it.  No more bodies are nested than there are nodes. -/
def conclude (settings : RunSettings) (snapshot : Option Snapshot) : Reply :=
  let g : Graph Catalog := .empty (Catalog.registry id) settings.graph
  match Engine.exec settings.graph.maxNodes (work snapshot settings.ticks) ⟨g, [], ()⟩ with
  | some (some g, _) => ⟨0, report g⟩
  | _ => .failure

/-! ## The command -/

/-- The file with the settings when none is named. -/
def defaultSettings : String := "layerflow.ron"

/-- The settings in a file; a missing file stands for the settings that nobody has set. -/
def settingsIn? : Content → Option RunSettings
  | .missing => some .default
  | .unreadable => none
  | .text s => RunSettings.read? s

/-- The settings with what the arguments say in their place. -/
def Arguments.override (a : Arguments) (s : RunSettings) : RunSettings :=
  { s with ticks := a.ticks.getD s.ticks, snapshot := a.snapshot.or s.snapshot }

/-- Loads a snapshot, if one is named, and runs the graph. -/
def runGraph (settings : RunSettings) : Job :=
  match settings.snapshot with
  | none => .done (conclude settings none)
  | some path =>
    .read path fun content =>
      match content with
      | .text s =>
        match Snapshot.read? s with
        | some snapshot => .done (conclude settings (some snapshot))
        | none => .done .failure
      | _ => .done .failure

/-- The version shown. -/
def versionText : String := "layerflow 0.1.0\n"

/-- The help shown. -/
def helpText : String :=
  "Headless runner for layerflow graphs\n\n"
    ++ "Usage: layerflow [OPTIONS] [SNAPSHOT]\n\n"
    ++ "Arguments:\n"
    ++ "  [SNAPSHOT]  JSON snapshot to load instead of the demo pipeline\n\n"
    ++ "Options:\n"
    ++ "  -s, --settings <FILE>  Settings file (RON)\n"
    ++ "  -t, --ticks <TICKS>    Number of steps to run, overriding the settings\n"
    ++ "      --print-settings   Print the effective settings as RON and exit\n"
    ++ "  -h, --help             Print help\n"
    ++ "  -V, --version          Print version\n"

/-- The reply to arguments that are not followed. -/
def Stop.reply : Stop → Reply
  | misuse => ⟨2, ""⟩
  | help => ⟨0, helpText⟩
  | version => ⟨0, versionText⟩

/-- The run that the arguments ask for. -/
def job (args : List String) : Job :=
  match Arguments.read args with
  | .error stop => .done stop.reply
  | .ok a =>
    .read (a.settings.getD defaultSettings) fun content =>
      match settingsIn? content with
      | none => .done .failure
      | some s =>
        let s := a.override s
        if a.printSettings then .done ⟨0, s.text ++ "\n"⟩ else runGraph s

end Dataflow.Command
