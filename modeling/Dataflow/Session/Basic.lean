/-
  A graph in use.

  A session is a graph, the events that happened in it, newest first, and whatever its host
  keeps beside it.  Every operation on a graph is a function on sessions, so that what observers
  are shown is part of what can be said about the operation.
-/

import Dataflow.Graph.Order

namespace Dataflow

/-- A graph, what happened in it, newest first, and what the host keeps. -/
structure Session (B σ : Type) where
  graph : Graph B
  events : List (Event B)
  host : σ

namespace Session

variable {B σ : Type}

/-! ## Events -/

/-- Adds an event. -/
def log (s : Session B σ) (e : Event B) : Session B σ := { s with events := e :: s.events }

/-- Adds events, the first of them first. -/
def logAll (s : Session B σ) (es : List (Event B)) : Session B σ :=
  { s with events := es.reverse ++ s.events }

/-- Changes the graph without a trace. -/
def edit (s : Session B σ) (f : Graph B → Graph B) : Session B σ := { s with graph := f s.graph }

/-- Tells observers that the structure changed. -/
def changed (s : Session B σ) : Session B σ := s.log (.changed s.graph.version)

/-- Changes the structure, counts that, and tells observers. -/
def restructure (s : Session B σ) (f : Graph B → Graph B) : Session B σ :=
  (s.edit fun g => (f g).bump).changed

/-- Tells the behaviour of a node something; nobody listens while its body runs. -/
def tell [Kind B] (s : Session B σ) (id : NodeId) (notice : Notice) : Session B σ :=
  match s.graph.nodes.get? id with
  | some n =>
    let (n, events) := n.tell notice
    (s.edit fun g => { g with nodes := g.nodes.modify id fun _ => n }).logAll events
  | none => s

/-- Tells the behaviours of several nodes the same. -/
def tellAll [Kind B] (s : Session B σ) (ids : List NodeId) (notice : Notice) : Session B σ :=
  ids.foldl (fun s id => s.tell id notice) s

/-! ## The cached order -/

/-- Notes that the cached order may be wrong. -/
def markStale (s : Session B σ) : Session B σ := s.edit fun g => { g with stale := true }

/-- Brings the cached order up to date if it may be wrong and no batch is open. -/
def refresh (s : Session B σ) : Session B σ :=
  if s.graph.batchDepth = 0 && s.graph.stale then s.edit Graph.updateOrder else s

/-- Notes that the cached order is wrong, and brings it up to date unless a batch is open. -/
def invalidate (s : Session B σ) : Session B σ := s.markStale.refresh

/-- Opens a batch. -/
def beginBatch (s : Session B σ) : Session B σ :=
  s.edit fun g => { g with batchDepth := g.batchDepth + 1 }

/-- Closes a batch; without an open one, the order is still brought up to date. -/
def endBatch (s : Session B σ) : Session B σ :=
  (s.edit fun g => { g with batchDepth := g.batchDepth - 1 }).refresh

/-! ## Starting and stopping -/

/-- Starts the graph and tells every node. -/
def start [Kind B] (s : Session B σ) : Session B σ :=
  if s.graph.running then s
  else
    let s := (s.edit fun g => { g with running := true }).log .started
    s.tellAll s.graph.nodes.keys .started

/-- Stops the graph and tells every node. -/
def stop [Kind B] (s : Session B σ) : Session B σ :=
  if s.graph.running then
    let s := (s.edit fun g => { g with running := false }).log .stopped
    s.tellAll s.graph.nodes.keys .stopped
  else s

end Session

end Dataflow
