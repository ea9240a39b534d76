/-
  Bridges in step with their terminals.

  The body of a bridge consists of edits only, so it always ends, and well.  Whatever the graph was,
  the bridge is in step with a terminal then, and it has not touched terminals that are not its
  business (`Engine.docks_enter`, `Engine.docks_insertNode`).
-/

import Dataflow.Proofs.Bodies
import Dataflow.Proofs.Docking
import Dataflow.Proofs.Firing
import Dataflow.Proofs.Labels
import Dataflow.Proofs.Unspent

namespace Dataflow

variable {B σ α β : Type}

/-! ## Running a body, step by step -/

section Steps

variable {perform : (c : Call B) → Act B σ c.Answer} {s t : Session B σ} {a : α}

theorem Body.run_seq {p : Body B σ α} (h : p.run perform s = some (a, t)) (f : α → Body B σ β) :
    (p >>= f).run perform s = (f a).run perform t := by
  show (p.bind f).run perform s = _
  rw [Body.run_bind]
  show (p.run perform s).bind _ = _
  rw [h]
  rfl

end Steps

/-! ## Running the body of a bridge -/

namespace Catalog

variable [Behavior B σ] {run : Runner B σ}

theorem run_settleName (d : Direction) (id : NodeId) (asked : String) (s : Session B σ) :
    (settleName d id asked : Body B σ String).run (Engine.perform run) s =
      some (if asked.isEmpty then defaultName d id else asked, s.settled d id asked) := by
  unfold settleName Session.settled
  split <;> rfl

/-- What is done after the terminal was renamed: it is declared if there is none of its name, and it
and the slot get what they should have. -/
def conform (d : Direction) (id : NodeId) (name : String) (type : SlotType) :
    Body B σ (Option String) := do
  if !((← Body.graph).terminals d).contains name then
    Body.edit (.addTerminal d name type none)
  let _ ← Body.edit (.retypeTerminal d name type)
  Body.edit (.renameSlot (inside d) id 0 name)
  return some name

theorem run_conform (d : Direction) (id : NodeId) (name : String) (type : SlotType)
    (s : Session B σ) : (conform d id name type : Body B σ _).run (Engine.perform run) s =
      some (some name, ((s.declared d name type).retypeTerminal d name type).2.renameSlot
        (inside d) id 0 name) := by
  unfold conform Session.declared
  rw [Body.run_seq (p := Body.graph) (a := s.graph) (t := s) rfl]
  cases (s.graph.terminals d).contains name <;> rfl

/-- Bringing a terminal in step ends, with the name that the node asks for. -/
theorem run_sync (d : Direction) (registered : Option String) {id : NodeId} {s : Session B σ}
    {n : Node B} (hn : s.graph.nodes.get? id = some n) :
    (sync d registered id : Body B σ _).run (Engine.perform run) s =
      some (some (terminalName d id n), (s.settled d id (askedName n)).docked d registered id
        (terminalName d id n) (askedType n)) := by
  unfold sync
  rw [Body.run_seq (p := Body.graph) (a := s.graph) (t := s) rfl, wanted?_eq hn]
  simp only
  rw [Body.run_seq (run_settleName d id (askedName n) s)]
  generalize s.settled d id (askedName n) = u
  cases registered with
  | none => exact run_conform d id (terminalName d id n) (askedType n) u
  | some old =>
    by_cases hne : old ≠ terminalName d id n
    · refine (congrFun (congrArg _ (if_pos hne)) u).trans ?_
      exact run_conform d id (terminalName d id n) (askedType n) _
    · refine (congrFun (congrArg _ (if_neg hne)) u).trans ?_
      have hsame : u.handedOver d (some old) (terminalName d id n) = u := by
        unfold Session.handedOver Session.renameTerminal
        simp only
        rw [if_neg fun h => hne h.1]
      unfold Session.docked
      rw [hsame]
      exact run_conform d id (terminalName d id n) (askedType n) u

/-- Carrying a value ends. -/
theorem run_carry (d : Direction) (name : String) (id : NodeId) (s : Session B σ) :
    (carry d name id : Body B σ Unit).run (Engine.perform run) s =
      some ((), s.carried d id name) := by
  unfold carry Session.carried
  rw [Body.run_seq (p := Body.graph) (a := s.graph) (t := s) rfl]
  cases d with
  | input => cases s.graph.terminalValue? .input name <;> rfl
  | output => cases s.graph.inputData? id 0 <;> rfl

/-- When its node is added, and when it runs, the body of a bridge ends well. -/
theorem run_bridge (d : Direction) (registered : Option String) {id : NodeId} {task : Task}
    (htask : ∀ action payload, task ≠ .act action payload) {s : Session B σ} {n : Node B}
    (hn : s.graph.nodes.get? id = some n) :
    ((bridge d registered).body id task : Body B σ _).run (Engine.perform run) s =
      some ((bridge d (some (terminalName d id n)), .ok ()), s.bridged d registered id n task) := by
  cases task with
  | act action payload => exact absurd rfl (htask action payload)
  | added => exact Body.run_seq (run_sync d registered hn) _
  | execute payload =>
    have hsync : (syncAndCarry d registered id : Body B σ _).run (Engine.perform run) s =
        some (some (terminalName d id n), s.bridged d registered id n (.execute payload)) :=
      (Body.run_seq (run_sync d registered hn) _).trans
        (Body.run_seq (run_carry d (terminalName d id n) id _) _)
    exact Body.run_seq hsync _

end Catalog

/-! ## Behaviours of the catalog among others -/

/-- The behaviours of the catalog are among those of a graph, with the bodies that they have in the
catalog. -/
structure Catalog.Hosted [Behavior B σ] (of : Catalog → B) : Prop where
  body : ∀ b id task, (Behavior.body (of b) id task : Body B σ (Outcome B)) =
    (b.body id task).bind fun ended => .done ⟨of ended.1, ended.2⟩

theorem Catalog.hosted_id : Catalog.Hosted (σ := Unit) (id : Catalog → Catalog) := ⟨fun _ _ _ => rfl⟩

/-! ## Entering a bridge -/

theorem Graph.Docks.of_node {d : Direction} {registered : Option String} {id : NodeId}
    {n : Node B} {brought : Option Value} {b b' : Option B} {g g' g'' : Graph B}
    (h : g.Docks d registered id n brought b g')
    (hnode : ∀ n' : Node B, g'.nodes.get? id = some n' → n'.behavior = b → ∃ n'' : Node B,
      g''.nodes.get? id = some n'' ∧ n''.behavior = b' ∧ n''.properties = n'.properties ∧
        n''.inputs = n'.inputs ∧ n''.outputs = n'.outputs)
    (hshore : g''.shore = g'.shore) : g.Docks d registered id n brought b' g'' := by
  have hterminals := Graph.terminals_of_shore hshore
  obtain ⟨n', hn', hb', hdocked⟩ := h.node
  obtain ⟨n'', hn'', hb, hp, hi, ho⟩ := hnode n' hn' hb'
  refine ⟨⟨n'', hn'', hb, ?_⟩, ?_, fun d' hd => (hterminals d').trans (h.beyond d' hd)⟩
  · constructor
    · exact (congrArg (·.get? "name") hp).trans hdocked.asks
    · rw [← hdocked.asksType]
      unfold Catalog.askedType Node.property?
      rw [hp]
    · intro x hx
      refine hdocked.slot x ?_
      revert hx
      unfold Node.firstName?
      rw [hi, ho]
      exact fun h => h
  · rw [hterminals d]
    exact h.terminals

namespace Engine

variable [Behavior B σ] {of : Catalog → B} (hof : Catalog.Hosted (σ := σ) of) (depth : Nat)
  {s : Session B σ} {id : NodeId} {n : Node B} {d : Direction} {registered : Option String}
include hof

omit n in
/-- Run as the body of a node, that of a bridge ends well, with the name of the terminal
registered. -/
theorem runner_bridge {m : Node B} (hm : s.graph.nodes.get? id = some m) (task : Task)
    (htask : ∀ action payload, task ≠ .act action payload) :
    runner (depth + 1) (Behavior.body (of (.bridge d registered)) id task) s = some
      (⟨of (.bridge d (some (Catalog.terminalName d id m))), .ok ()⟩,
        s.bridged d registered id m task) := by
  rw [hof.body]
  exact Body.run_seq (Catalog.run_bridge d registered htask hm) _

/-- The body of a bridge ends well, and the bridge is in step with the terminal of the name that its
node asked for. -/
theorem docks_enter (hn : s.graph.nodes.get? id = some n)
    (hb : n.behavior = some (of (.bridge d registered))) (task : Task)
    (htask : ∀ action payload, task ≠ .act action payload) :
    ∃ s', enter (runner (depth + 1)) id task s = some (some (.ok ()), s') ∧
      s.graph.Docks d registered id n (Catalog.brought? d task s.graph id)
        (some (of (.bridge d (some (Catalog.terminalName d id n))))) s'.graph := by
  let b := of (.bridge d registered)
  let u := (s.edit fun g => g.detach id).log (.began id b task)
  let m : Node B := { n with behavior := none }
  have hm : u.graph.nodes.get? id = some m := Graph.get?_detach hn
  have hbehavior : s.graph.behavior? id = some b := (Graph.behavior_of_node hn).trans hb
  have hrun : runner (depth + 1) (Behavior.body b id task) u = some
      (⟨of (.bridge d (some (Catalog.terminalName d id n))), .ok ()⟩,
        u.bridged d registered id m task) := runner_bridge hof depth hm task htask
  refine ⟨_, enter_idle hbehavior hrun, ?_⟩
  have hout := u.docks_bridged d registered hm task
  -- what the node lost for the time of the body shows nowhere in that
  have hsame : s.graph.Docks d registered id n (Catalog.brought? d task s.graph id) none
      (u.bridged d registered id m task).graph := by
    have hbrought : Catalog.brought? d task u.graph id = Catalog.brought? d task s.graph id := by
      unfold Catalog.brought?
      split
      · exact s.graph.inputData?_detach id id 0
      · rfl
    have hterminals : ∀ d', u.graph.terminals d' = s.graph.terminals d' :=
      Graph.terminals_of_shore rfl
    rw [hbrought] at hout
    obtain ⟨hnode, hin, hbeyond⟩ := hout
    rw [hterminals] at hin
    exact ⟨hnode, hin, fun d' hd => (hbeyond d' hd).trans (hterminals d')⟩
  obtain ⟨n', hn', hnone, -⟩ := hsame.node
  have hawaits : (u.bridged d registered id m task).graph.awaitsBehavior id = true := by
    unfold Graph.awaitsBehavior
    rw [hn']
    exact Option.isNone_iff_eq_none.2 hnone
  have hattached : (restore ((u.bridged d registered id m task).log (.ended id)) id
      (of (.bridge d (some (Catalog.terminalName d id n))))).graph =
        (u.bridged d registered id m task).graph.attach id
          (of (.bridge d (some (Catalog.terminalName d id n)))) := by
    unfold restore
    exact congrArg Session.graph (if_pos hawaits)
  rw [hattached]
  refine hsame.of_node (fun n' hn' _ => ?_) rfl
  refine ⟨{ n' with behavior := some (of (.bridge d (some (Catalog.terminalName d id n)))) }, ?_,
    rfl, rfl, rfl, rfl⟩
  refine (Graph.get?_modifyNode ..).trans ?_
  rw [if_pos rfl, hn']
  rfl

/-- A bridge that is added is in step then, if there is room for it. -/
theorem docks_insertNode (hb : n.behavior = some (of (.bridge d registered))) (refresh : Bool)
    (hroom : s.graph.nodes.size < s.graph.settings.maxNodes) :
    ∃ s', insertNode (runner (depth + 1)) n refresh s = some (.ok (s.graph.claimNode n.id).1, s') ∧
      s.graph.Docks d registered (s.graph.claimNode n.id).1 n none
        (some (of (.bridge d (some (Catalog.terminalName d (s.graph.claimNode n.id).1 n)))))
        s'.graph := by
  let i := (s.graph.claimNode n.id).1
  let u := s.edit fun g => g.place n i (s.graph.claimNode n.id).2
  obtain ⟨pos, hpos⟩ := n.snapped_eq s.graph.settings
  have hm : u.graph.nodes.get? i = some { n with id := some i, pos } := by
    refine (s.graph.get?_place n i _ i).trans ?_
    rw [if_pos rfl, hpos]
  obtain ⟨t, henter, hdocks⟩ := docks_enter hof depth hm hb .added nofun
  have hrun : insertNode (runner (depth + 1)) n refresh s = some (.ok i,
      ((if refresh then t.markStale.refresh else t.markStale).log (.nodeAdded i)).changed) := by
    show (if s.graph.settings.maxNodes ≤ s.graph.nodes.size then _ else _ : Act B σ _) s = _
    rw [if_neg (Nat.not_le.2 hroom)]
    show (enter (runner (depth + 1)) i .added u).bind _ = _
    rw [henter]
    rfl
  refine ⟨_, hrun, ?_⟩
  have hterminals : ∀ d', u.graph.terminals d' = s.graph.terminals d' := by
    refine Graph.terminals_of_shore ?_
    show (s.graph.place n i _).shore = _
    rw [s.graph.place_snapped]
    rfl
  obtain ⟨hnode, hin, hbeyond⟩ := hdocks
  rw [hterminals] at hin
  have hbrought : Catalog.brought? d .added u.graph i = none := by cases d <;> rfl
  rw [hbrought] at hin
  have hstill : s.graph.Docks d registered i n none
      (some (of (.bridge d (some (Catalog.terminalName d i n))))) t.graph :=
    ⟨hnode, hin, fun d' hd => (hbeyond d' hd).trans (hterminals d')⟩
  refine hstill.of_node (fun n' hn' hb' => ?_) ?_
  · cases refresh with
    | false => exact ⟨n', hn', hb', rfl, rfl, rfl⟩
    | true =>
      obtain ⟨k, hk⟩ := (Session.reordered_refresh t.markStale).nodes _ n' hn'
      exact ⟨{ n' with order := k }, hk, hb', rfl, rfl, rfl⟩
  · show (if refresh then t.markStale.refresh else t.markStale).graph.shore = t.graph.shore
    cases refresh with
    | false => rfl
    | true => exact t.markStale.shore_refresh

/-- The nodes of the two types that cross the boundary of a graph are bridges.  When such a node has
run, and when it was added, it asks for a name that is not empty, there is a terminal of that name
and of the type that it asks for, and its first slot inside has that name.  The terminals of the other
direction are as they were.  In its own direction so is every terminal but that one and the one that
the bridge had registered; this gives up its name in its place, with its value, exactly if it is there
and the new name is free.  The value of the terminal is then the one that an outlet brings to it, if
any has reached the outlet.  And in every graph on the way of a run each terminal has the name that it
is known by. -/
theorem bridges_in_step :
    (∀ title, ((Catalog.inletType of).instantiate title).behavior = some (of (.bridge .input none)) ∧
      ((Catalog.outletType of).instantiate title).behavior = some (of (.bridge .output none))) ∧
    (∀ (s : Session B σ) (id : NodeId) (n : Node B) (d : Direction) (registered : Option String)
      (task : Task), s.graph.nodes.get? id = some n →
      n.behavior = some (of (.bridge d registered)) →
      (∀ action payload, task ≠ .act action payload) →
      ∃ s', enter (runner (depth + 1)) id task s = some (some (.ok ()), s') ∧
        Catalog.terminalName d id n ≠ "" ∧
        s.graph.Docks d registered id n (Catalog.brought? d task s.graph id)
          (some (of (.bridge d (some (Catalog.terminalName d id n))))) s'.graph) ∧
    (∀ (s : Session B σ) (n : Node B) (d : Direction) (registered : Option String) (refresh : Bool),
      n.behavior = some (of (.bridge d registered)) →
      s.graph.nodes.size < s.graph.settings.maxNodes →
      ∃ id s', insertNode (runner (depth + 1)) n refresh s = some (.ok id, s') ∧
        Catalog.terminalName d id n ≠ "" ∧
        s.graph.Docks d registered id n none
          (some (of (.bridge d (some (Catalog.terminalName d id n))))) s'.graph) ∧
    ∀ (r : Registry B) (settings : Settings) (events : List (Event B)) (host : σ) (p : Body B σ α)
      (a : α) (s : Session B σ),
      exec depth p ⟨Graph.empty r settings, events, host⟩ = some (a, s) →
      ∃ c, (Graph.empty r settings).Path c s.graph ∧ ∀ m ∈ c, m.graph.Labelled := by
  refine ⟨fun title => ⟨rfl, rfl⟩, ?_, ?_, ?_⟩
  · intro s id n d registered task hn hb htask
    obtain ⟨s', hs', hdocks⟩ := docks_enter hof depth hn hb task htask
    exact ⟨s', hs', Catalog.terminalName_ne_empty d id n, hdocks⟩
  · intro s n d registered refresh hb hroom
    obtain ⟨s', hs', hdocks⟩ := docks_insertNode hof depth hb refresh hroom
    exact ⟨_, s', hs', Catalog.terminalName_ne_empty d _ n, hdocks⟩
  · intro r settings events host p a s hrun
    obtain ⟨c, hc⟩ := reaches_exec depth p ⟨Graph.empty r settings, events, host⟩ a s hrun
    exact ⟨c, hc, hc.labelled (Graph.labelled_empty r settings)⟩

end Engine

/-! ## A value on its way out -/

open Engine

/-- A value is on its way to an outlet, whose terminal has another one and will get another name. -/
def launch : Body Catalog Unit Unit := do
  let _ ← Body.edit .beginBatch
  let _ ← Body.addNew "basic/const_number"
  let _ ← Body.addNew "graph/output"
  let _ ← Body.edit (.tryConnect ⟨1⟩ 0 ⟨2⟩ 0)
  let _ ← Body.edit (.setOutputData ⟨1⟩ 0 (.str "new"))
  let _ ← Body.edit (.setTerminalValue .output "output_2" (.str "old"))
  let _ ← Body.edit (.setProperty ⟨2⟩ "name" (.str "x"))
  return ()

theorem launch_runs :
    (exec 1 launch ⟨Graph.empty (Catalog.registry id) .default, [], ()⟩).any fun e =>
      (match e.2.graph.behavior? ⟨2⟩ with
        | some (.bridge .output (some name)) => name = "output_2"
        | _ => false) &&
      (e.2.graph.property? ⟨2⟩ "name").bind Value.str? = some "x" &&
      (e.2.graph.inputData? ⟨2⟩ 0).bind Value.str? = some "new" &&
      (e.2.graph.terminals .output).keys = ["output_2"] &&
      (e.2.graph.terminalValue? .output "output_2").bind Value.str? = some "old" := by
  decide +kernel

/-- The outlet is ready to give its terminal another name and another value. -/
structure Launched (s : Session Catalog Unit) : Prop where
  run : exec 1 launch ⟨Graph.empty (Catalog.registry id) .default, [], ()⟩ = some ((), s)
  node : ∃ n, s.graph.nodes.get? ⟨2⟩ = some n ∧
    n.behavior = some (.bridge .output (some "output_2")) ∧ Catalog.terminalName .output ⟨2⟩ n = "x"
  data : s.graph.inputData? ⟨2⟩ 0 = some (.str "new")
  names : (s.graph.terminals .output).keys = ["output_2"]
  value : s.graph.terminalValue? .output "output_2" = some (.str "old")

theorem exists_launched : ∃ s, Launched s := by
  obtain ⟨⟨a, s⟩, hrun, hfacts⟩ := (Option.any_eq_true _ _).1 launch_runs
  simp only [Bool.and_eq_true, decide_eq_true_eq] at hfacts
  obtain ⟨⟨⟨⟨hbridge, hname⟩, hdata⟩, hnames⟩, hvalue⟩ := hfacts
  refine ⟨s, hrun, ?_, Value.eq_of_str? hdata, hnames, Value.eq_of_str? hvalue⟩
  split at hbridge
  · next name hb =>
    obtain rfl : name = "output_2" := of_decide_eq_true hbridge
    obtain ⟨n, hn, hb⟩ := Option.bind_eq_some_iff.1 hb
    refine ⟨n, hn, hb, ?_⟩
    have hasked : Catalog.askedName n = "x" := by
      rw [Graph.property_of_node hn] at hname
      unfold Catalog.askedName
      rw [hname]
      rfl
    unfold Catalog.terminalName
    rw [hasked]
    rfl
  · cases hbridge

/-- When the outlet runs, its terminal gets the new name in the place of the old one. -/
theorem launched_in_step : Catalog.Hosted (σ := Unit) (id : Catalog → Catalog) ∧
    ∃ s s', Launched s ∧ enter (runner 1) ⟨2⟩ (.execute none) s = some (some (.ok ()), s') ∧
      (s'.graph.terminals .output).keys = ["x"] := by
  obtain ⟨s, hs⟩ := exists_launched
  obtain ⟨n, hn, hb, hname⟩ := hs.node
  obtain ⟨s', hs', -, hdocks⟩ := (bridges_in_step (α := Unit) Catalog.hosted_id 0).2.1 s ⟨2⟩ n
    .output (some "output_2") (.execute none) hn hb nofun
  refine ⟨Catalog.hosted_id, s, s', hs, hs', ?_⟩
  have hmoved := hdocks.terminals.moved "output_2" rfl
  rw [hname, hs.names] at hmoved
  exact hmoved (by decide) (by decide)

/-- The terminal that was renamed in its place does not keep its value: the outlet brings it the one
that has reached it. -/
theorem renamed_value_lost : ∃ s s', Launched s ∧
    enter (runner 1) ⟨2⟩ (.execute none) s = some (some (.ok ()), s') ∧
    (s'.graph.terminals .output).keys = ["x"] ∧
    s.graph.terminalValue? .output "output_2" = some (.str "old") ∧
    s'.graph.terminalValue? .output "x" = some (.str "new") := by
  obtain ⟨s, hs⟩ := exists_launched
  obtain ⟨n, hn, hb, hname⟩ := hs.node
  obtain ⟨s', hs', hdocks⟩ := docks_enter Catalog.hosted_id 0 hn hb (.execute none) nofun
  have hin := hdocks.terminals
  rw [hname] at hin
  refine ⟨s, s', hs, hs', ?_, hs.value, ?_⟩
  · have hmoved := hin.moved "output_2" rfl
    rw [hs.names] at hmoved
    exact hmoved (by decide) (by decide)
  · obtain ⟨t, ht, -, hvalue⟩ := hin.own
    unfold Graph.terminalValue?
    rw [ht, Option.bind_some, hvalue]
    show ((s.graph.inputData? ⟨2⟩ 0).or _) = _
    rw [hs.data]
    rfl

end Dataflow
