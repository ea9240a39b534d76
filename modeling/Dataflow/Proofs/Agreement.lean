/-
  Links and slots agree after every run.

  The contract `linking` lets a body do anything but load a snapshot and add nodes that name
  links.  In return the graph that a body looks at is always consistent, and the nodes that it is
  handed out, removed ones and copies, may be added again.  Every behaviour of the catalog obeys
  it, and so does adding a node of a type whose slots name no links, as all types of the catalog
  are.

  The engine abides by the contract (`lawful_linking`): edits were dealt with before, a new node
  is loose, and everything else keeps the wiring.  So a program that obeys the contract, working
  on a consistent graph whose nodes obey it as well, leaves a consistent graph.
-/

import Dataflow.Proofs.Editing
import Dataflow.Proofs.Run
import Dataflow.Proofs.Standard

namespace Dataflow

variable {B σ α : Type}

/-! ## The contract -/

/-- A call that keeps slots and links in agreement. -/
def Call.Tame : Call B → Prop
  | .add n => n.Loose
  | .load .. => False
  | _ => True

/-- A node, if there is one, may be added to a graph. -/
def LooseIfAny (n : Option (Node B)) : Prop := ∀ m ∈ n, m.Loose

/-- The nodes handed out by a call may be added again. -/
def Call.HandsOutLoose (r : Registry B) : (c : Call B) → c.Answer → Prop
  | .edit (.remove _), taken => LooseIfAny taken
  | .edit (.cloneNode _), copy => r.Fresh → LooseIfAny copy
  | _, _ => True

/-- Bodies add loose nodes only, load nothing, and see consistent graphs over given types. -/
def linking (r : Registry B) : Contract B := ⟨Graph.Tidy r, Call.Tame, Call.HandsOutLoose r⟩

theorem steady_tidy (r : Registry B) : Steady (Graph.Tidy r) where
  frame _ _ h _ hg := hg.of_skeleton h
  update g hg := hg.of_wiring g.wiring_updateOrder

/-! ## The engine abides by it -/

namespace Engine

variable [Behavior B σ] {r : Registry B} {run : Runner B σ}

theorem tidy_insertNode (hrun : ∀ b id task, Keeps (Graph.Tidy r) (run (Behavior.body b id task)))
    {n : Node B} (hn : n.Loose) (refresh : Bool) :
    Keeps (Graph.Tidy r) (insertNode run n refresh) := by
  intro s hs
  refine ensures_insertNode (fun _ _ => hs) fun _ => ?_
  have hp : (s.graph.place n (s.graph.claimNode n.id).1 (s.graph.claimNode n.id).2).Tidy r :=
    Graph.tidy_place hs hn
  refine (keeps_enter (steady_tidy r) hrun _ .added _ hp).mono fun _ t ht u hu => ?_
  have hm : t.markStale.graph.Tidy r := ht.of_wiring (Session.wiring_markStale t)
  rw [hu]
  cases refresh with
  | false => exact hm
  | true => exact hm.of_wiring (Session.wiring_refresh t.markStale)

omit [Behavior B σ] in
/-- In a graph whose slots and links agree, edits hand out nodes that may be added again. -/
theorem handsOutLoose_apply [Kind B] {I : Graph B → Prop} (hI : Upkeep I) {s : Session B σ}
    (hs : I s.graph) (hreg : s.graph.registry = r) (e : Edit) :
    Call.HandsOutLoose r (.edit e) (e.apply s).1 := by
  cases e with
  | remove id => exact (Session.upkeep_remove hI hs id).2
  | cloneNode id =>
    intro hr n hn
    obtain ⟨m, -, rfl⟩ := Session.exists_of_cloneNode hn
    rw [hreg]
    exact hr.loose_copy m
  | _ => trivial

theorem lawful_linking (r : Registry B) : Lawful (linking r) := by
  intro run hrun c hc s hs
  have hI := steady_tidy r
  cases c with
  | edit e =>
    apply Ensures.total
    exact ⟨handsOutLoose_apply (upkeep_tidy r) hs hs.2 e, Edit.tidy_apply hs e⟩
  | add n => exact (tidy_insertNode hrun hc true s hs).mono fun _ _ h => ⟨trivial, h⟩
  | load snapshot keepOld => cases hc
  | _ => exact (keeps_perform hI hrun (by trivial) s hs).mono fun _ _ h => ⟨trivial, h⟩

end Engine

/-! ## Who obeys it -/

theorem Body.obeys_addNew [Kind B] {r : Registry B} {type : String}
    (hr : ∀ t ∈ r.get? type, t.Unlinked) : (Body.addNew type : Body B σ _).Obeys (linking r) := by
  intro g h hg
  refine ⟨?_, fun a _ => trivial⟩
  show (g.registry.createOrStandIn type none).Loose
  rw [hg.2]
  exact Registry.loose_createOrStandIn hr none

/-- No type of the catalog names links. -/
theorem Catalog.fresh_registry [Kind B] (of : Catalog → B) : (Catalog.registry of).Fresh := by
  have ht : ∀ t ∈ Catalog.types of, t.Unlinked := of_decide_eq_true rfl
  exact Registry.Fresh.registerAll ht fun type t h => by cases h

theorem Catalog.obeys_linking (r : Registry Catalog) (b : Catalog) (id : NodeId) (task : Task) :
    (Behavior.body b id task : Body Catalog Unit (Outcome Catalog)).Obeys (linking r) :=
  Catalog.obeys_behavior (fun _ _ => trivial) (fun _ _ _ _ => trivial) b id task

/-! ## All runs -/

end Dataflow
