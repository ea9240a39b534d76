/-
  The command on a disk.
-/

import Dataflow.Command.Run

namespace Dataflow.Command

/-- What a file on the disk holds. -/
def contentOf (path : String) : IO Content := do
  try
    let s ← IO.FS.readFile path
    return .text s
  catch e =>
    match e with
    | .noFileOrDirectory .. => return .missing
    | _ => return .unreadable

/-- Carries out a run on the disk. -/
def Job.carryOut : Job → IO Reply
  | done reply => return reply
  | read path next => do (next (← contentOf path)).carryOut

end Dataflow.Command

/-- Runs a graph as the arguments say. -/
def main (args : List String) : IO UInt32 := do
  let reply ← (Dataflow.Command.job args).carryOut
  IO.print reply.stdout
  return reply.exit.toUInt32
