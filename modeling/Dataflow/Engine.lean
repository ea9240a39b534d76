/-
  Running the bodies of nodes.

  While the body of a node runs, its behaviour is taken out of the node: a node without one is
  skipped, so no body is entered twice at the same time.  When the body returns, the behaviour
  goes back, or learns that its node is gone.

  A body may run other bodies, and those again others.  The engine is told how deep that may go;
  `none` means that it went deeper.  All else is total: a body is finite, and so is every list of
  nodes or links that an operation works through.
-/

import Dataflow.Body

namespace Dataflow

/-- A step of the engine; `none` when bodies are nested too deeply. -/
abbrev Act (B σ : Type) := StateT (Session B σ) Option

/-- What runs a body to its end. -/
abbrev Runner (B σ : Type) := Body B σ (Outcome B) → Act B σ (Outcome B)

/-! ## Interpreting bodies -/

/-- Runs a body, given what its calls do. -/
def Body.run {B σ α : Type} (perform : (c : Call B) → Act B σ c.Answer) :
    Body B σ α → Act B σ α
  | .done a => pure a
  | .look next => do
    let s ← get
    (next s.graph s.host).run perform
  | .keep f next => do
    modify fun s => { s with host := f s.host }
    next.run perform
  | .note remark next => do
    modify fun s => s.log (.note remark)
    next.run perform
  | .call c next => do
    let a ← perform c
    (next a).run perform

namespace Graph

variable {B : Type}

/-! ## Behaviours come and go -/

/-- The graph with the behaviour of a node taken out. -/
def detach (g : Graph B) (id : NodeId) : Graph B :=
  g.modifyNode id fun n => { n with behavior := none }

/-- The graph with a behaviour put into a node. -/
def attach (g : Graph B) (id : NodeId) (b : B) : Graph B :=
  g.modifyNode id fun n => { n with behavior := some b }

/-- Whether a node waits for its behaviour to come back. -/
def awaitsBehavior (g : Graph B) (id : NodeId) : Bool :=
  (g.nodes.get? id).any (·.behavior.isNone)

/-! ## Identities of nodes -/

/-- The first number from `n` on that no node has; `n` itself when `fuel` runs out. -/
def freeNodeFrom (nodes : Assoc NodeId (Node B)) : Nat → Nat → Nat
  | 0, n => n
  | fuel + 1, n => if nodes.contains ⟨n⟩ then freeNodeFrom nodes fuel (n + 1) else n

/-- The identity that a new node gets, and where the next search starts.  A requested identity
is kept unless it is taken. -/
def claimNode (g : Graph B) (requested : Option NodeId) : NodeId × Nat :=
  let n := freeNodeFrom g.nodes g.nodes.size g.nextNode
  match requested with
  | some id =>
    if g.nodes.contains id then (⟨n⟩, n + 1) else (id, max g.nextNode (afterId id.number))
  | none => (⟨n⟩, n + 1)

/-- The graph with a new node under an identity. -/
def place (g : Graph B) (n : Node B) (id : NodeId) (next : Nat) : Graph B :=
  let n := { n with id := some id }
  let n := if g.settings.alignToGrid then n.alignToGrid g.settings.gridSize.toFloat32 else n
  { g with nodes := g.nodes.insert id n, nextNode := next }.bump

end Graph

namespace Engine

variable {B σ : Type}

/-! ## Entering a node -/

/-- Puts a behaviour back into its node.  If the node has left the graph meanwhile, the
behaviour is told so. -/
def restore (s : Session B σ) (id : NodeId) (b : B) : Session B σ :=
  if s.graph.awaitsBehavior id then s.edit fun g => g.attach id b else s.log (.told b .removed)

variable [Behavior B σ] (run : Runner B σ)

/-- Runs the body of a node, unless it is running already. -/
def enter (id : NodeId) (task : Task) : Act B σ (Option Ending) := do
  let s ← get
  match s.graph.behavior? id with
  | none => return none
  | some b =>
    set ((s.edit fun g => g.detach id).log (.began id b task))
    let out ← run (Behavior.body b id task)
    modify fun s => restore (s.log (.ended id)) id out.state
    return some out.result

/-- What running a body says to the one who asked for it. -/
def verdict (id : NodeId) : Option Ending → Except GraphError Bool
  | none => .ok false
  | some (.ok ()) => .ok true
  | some (.error e) => .error (.execution id e)

/-- Runs the body of a node with a payload; says whether it ran. -/
def runBody (id : NodeId) (payload : Option Value) : Act B σ (Except GraphError Bool) := do
  let s ← get
  match s.graph.nodes.get? id with
  | none => return .error (.nodeNotFound id)
  | some n =>
    if n.canExecute then return verdict id (← enter run id (.execute payload))
    else return .ok false

/-- Lets a node handle an event; says whether it did. -/
def runAction (id : NodeId) (action : String) (payload : Value) :
    Act B σ (Except GraphError Bool) := do
  let s ← get
  match s.graph.nodes.get? id with
  | none => return .error (.nodeNotFound id)
  | some _ => return verdict id (← enter run id (.act action payload))

/-! ## Adding nodes -/

/-- Adds a node and lets it know; `refresh` tells whether the order is brought up to date. -/
def insertNode (n : Node B) (refresh : Bool) : Act B σ (Except GraphError NodeId) := do
  let s ← get
  let limit := s.graph.settings.maxNodes
  if limit ≤ s.graph.nodes.size then return .error (.nodeLimitExceeded limit)
  let (id, next) := s.graph.claimNode n.id
  set (s.edit fun g => g.place n id next)
  let _ ← enter run id .added
  modify fun s =>
    let s := s.markStale
    ((if refresh then s.refresh else s).log (.nodeAdded id)).changed
  return .ok id

/-- The nodes of a snapshot that were added so far. -/
structure Placing where
  report : LoadReport
  placed : List (NodeId × NodeRecord)
  /-- The recorded identities with those of now; the first record of an identity counts. -/
  nodes : Renaming NodeId

/-- Adds the nodes of a snapshot, with stand-ins for unknown types; nodes for which there is no
room are left out. -/
def placeAll : List NodeRecord → Placing → Act B σ Placing
  | [], p => return p
  | r :: rest, p => do
    let s ← get
    let (n, missing) :=
      match s.graph.registry.create r.type r.title with
      | .ok n => (n, [])
      | .error e => (Node.placeholder r, [e.id])
    let known := missing.isEmpty
    let answer ← insertNode run { n with id := r.id } false
    let report : LoadReport := { p.report with
      hadErrors := p.report.hadErrors || !known
      missingTypes := p.report.missingTypes ++ missing }
    match answer with
    | .error _ => placeAll rest { p with report := { report with hadErrors := true } }
    | .ok id =>
      let nodes :=
        match r.id with
        | some recorded =>
          if p.nodes.contains recorded then p.nodes else p.nodes.insert recorded id
        | none => p.nodes
      placeAll rest { report, placed := p.placed ++ [(id, r)], nodes }

/-- Loads a snapshot, in the place of what is there or beside it. -/
def load (snapshot : Snapshot) (keepOld : Bool) : Act B σ LoadReport := do
  modify fun s =>
    let s := if keepOld then s else s.clear
    (s.edit fun g => { g with config := g.config.insertAll snapshot.config.entries }).beginBatch
  let p ← placeAll run snapshot.nodes ⟨.clean, [], ∅⟩
  modifyGet fun s => s.settleLoad snapshot p.placed p.nodes p.report

/-! ## Events -/

/-- Delivers an event through one link; says whether a body ran. -/
def deliver (payload : Value) (l : LinkId) : Act B σ (Except GraphError Bool) := do
  let s ← get
  match s.graph.links.get? l with
  | none => return .ok false
  | some link =>
    set (s.edit fun g => g.modifyLink l fun l => { l with triggered := true })
    match s.graph.nodes.get? link.target with
    | none => return .ok false
    | some n =>
      if n.acceptsActions then
        let action := ((n.inputs[link.targetSlot]?).map Input.name).getD ""
        runAction run link.target action payload
      else if n.mode = .onTrigger then runBody run link.target (some payload)
      else return .ok false

/-- Delivers an event through links, first to last; counts the bodies that ran. -/
def deliverAll (payload : Value) : List LinkId → Nat → Act B σ (Except GraphError Nat)
  | [], count => return .ok count
  | l :: rest, count => do
    match ← deliver run payload l with
    | .error e => return .error e
    | .ok ran => deliverAll payload rest (if ran then count + 1 else count)

/-- Sends an event through the links that leave an output now, or through one of them. -/
def triggerSlot (id : NodeId) (slot : Nat) (payload : Value) (only : Option LinkId) :
    Act B σ (Except GraphError Nat) := do
  let s ← get
  match s.graph.nodes.get? id with
  | none => return .error (.nodeNotFound id)
  | some n =>
    match n.outputs[slot]? with
    | none => return .ok 0
    | some o => deliverAll run payload (o.links.filter fun l => only.all (· = l)) 0

/-- Sends an event through outputs, first to last; counts the bodies that ran. -/
def triggerSlots (id : NodeId) (payload : Value) :
    List Nat → Nat → Act B σ (Except GraphError Nat)
  | [], count => return .ok count
  | slot :: rest, count => do
    match ← triggerSlot run id slot payload none with
    | .error e => return .error e
    | .ok n => triggerSlots id payload rest (count + n)

/-- The event outputs of a node, or those of one name. -/
def eventOutputs (n : Node B) (action : Option String) : List Nat :=
  (List.range n.outputs.length).filter fun slot =>
    (n.outputs[slot]?).any fun o => o.type.isEvent && action.all (· = o.name)

/-- Sends an event through the event outputs of a node, or through those of one name. -/
def trigger (id : NodeId) (action : Option String) (payload : Value) :
    Act B σ (Except GraphError Nat) := do
  let s ← get
  match s.graph.nodes.get? id with
  | none => return .error (.nodeNotFound id)
  | some n => triggerSlots run id payload (eventOutputs n action) 0

/-- Runs the node that feeds an input, and reads the input. -/
def pull (id : NodeId) (slot : Nat) : Act B σ (Except GraphError (Option Value)) := do
  let s ← get
  match s.graph.inputLink? id slot with
  | none => return .ok none
  | some l =>
    match ← runBody run l.origin none with
    | .error e => return .error e
    | .ok _ => return .ok ((← get).graph.inputData? id slot)

/-! ## Steps -/

/-- Whether it is a node's turn whenever a pass comes by. -/
def isAlways (g : Graph B) (id : NodeId) : Bool := (g.nodes.get? id).any (·.mode = .always)

/-- Runs those of some nodes whose turn it is, first to last, up to the first failure. -/
def runNodes : List NodeId → Act B σ (Except GraphError Unit)
  | [] => return .ok ()
  | id :: rest => do
    if isAlways (← get).graph id then
      match ← runBody run id none with
      | .error e => return .error e
      | .ok _ => runNodes rest
    else runNodes rest

/-- Runs passes over the executable nodes, up to the first failure. -/
def runPasses : Nat → Act B σ (Except GraphError Unit)
  | 0 => return .ok ()
  | n + 1 => do
    match ← runNodes run (← get).graph.executable with
    | .error e => return .error e
    | .ok () =>
      modify fun s =>
        let s := s.edit fun g => { g with fixedTime := g.fixedTime + g.settings.fixedTimeLapse.toFloat }
        s.log .passed
      runPasses n

/-- What a step answers, and what a failure leaves behind when it is kept. -/
def conclude (propagate : Bool) (result : Except GraphError Unit) (s : Session B σ) :
    Except GraphError Unit × Session B σ :=
  match result, propagate with
  | .ok (), true => (.ok (), s)
  | .ok (), false => (.ok (), s.edit fun g => { g with failed := false })
  | .error e, true => (.error e, s)
  | .error _, false => (.ok (), (s.edit fun g => { g with failed := true }).stop)

/-- Runs one step of some passes.  A failure ends it; it is either answered, or kept and flagged,
which stops the graph. -/
def runStep (passes : Nat) (propagate : Bool) : Act B σ (Except GraphError Unit) := do
  modify fun s => if s.graph.stale then s.edit Graph.updateOrder else s
  let result ← runPasses run passes
  modify fun s => s.log .stepped
  let answer ← modifyGet (conclude propagate result)
  modify fun s => s.edit fun g => { g with iteration := g.iteration + 1 }
  return answer

/-! ## The engine -/

/-- What a call does, given what runs bodies. -/
def perform : (c : Call B) → Act B σ c.Answer
  | .edit e => fun s => some (e.apply s)
  | .add n => insertNode run n true
  | .load snapshot keepOld => load run snapshot keepOld
  | .execute id => runBody run id none
  | .triggerSlot id slot payload only => triggerSlot run id slot payload only
  | .trigger id action payload => trigger run id action payload
  | .pull id slot => pull run id slot
  | .runStep passes propagate => runStep run passes propagate

omit run in
/-- Runs bodies that are nested less deeply than `depth`. -/
def runner : Nat → Runner B σ
  | 0 => fun _ _ => none
  | depth + 1 => fun body => body.run (perform (runner depth))

omit run in
/-- Runs a program on a session, with bodies nested less deeply than `depth`. -/
def exec {α : Type} (depth : Nat) (p : Body B σ α) : Act B σ α := p.run (perform (runner depth))

end Engine

end Dataflow
