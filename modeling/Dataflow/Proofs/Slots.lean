/-
  What changes of one slot do to the slots of a graph.

  A change of an input is seen at that input and nowhere else, and the same for outputs.
-/

import Dataflow.Proofs.Consistent

namespace Dataflow.Graph

variable {B : Type}

/-! ## Changes of a node -/

theorem get?_modifyNode (g : Graph B) (id id' : NodeId) (f : Node B → Node B) :
    (g.modifyNode id f).nodes.get? id' =
      if id' = id then (g.nodes.get? id').map f else g.nodes.get? id' :=
  Assoc.get?_modify ..

/-- A node after a change that keeps identities was there before, under the same identity. -/
theorem node_of_modifyNode {g : Graph B} {id id' : NodeId} {f : Node B → Node B} {n : Node B}
    (hf : ∀ m, (f m).id = m.id) (h : (g.modifyNode id f).nodes.get? id' = some n) :
    ∃ m, g.nodes.get? id' = some m ∧ n.id = m.id := by
  obtain ⟨-, hn⟩ | ⟨rfl, m, hm, rfl⟩ := Assoc.exists_of_get?_modify h
  · exact ⟨n, hn, rfl⟩
  · exact ⟨m, hm, hf m⟩

section Part

variable {α : Type} {g : Graph B} {id : NodeId} {f : Node B → Node B} {part : Node B → Option α}

/-- A change of one node is seen at a part of that node as a change of the part. -/
theorem bind_modifyNode {change : α → α} (h : ∀ n, part (f n) = (part n).map change)
    (id' : NodeId) : ((g.modifyNode id f).nodes.get? id').bind part =
      ((g.nodes.get? id').bind part).map fun a => if id' = id then change a else a := by
  rw [get?_modifyNode]
  by_cases hi : id' = id
  · simp only [if_pos hi]
    cases g.nodes.get? id' with
    | none => rfl
    | some n => exact h n
  · simp only [if_neg hi, Option.map_id']

/-- A change of one node is not seen at a part that it keeps. -/
theorem bind_modifyNode_of_eq (h : ∀ n, part (f n) = part n) (id' : NodeId) :
    ((g.modifyNode id f).nodes.get? id').bind part = (g.nodes.get? id').bind part := by
  have hkeep : ∀ n, part (f n) = (part n).map fun a => a := fun n => (h n).trans Option.map_id'.symm
  refine (bind_modifyNode hkeep id').trans ?_
  simp only [ite_self, Option.map_id']

end Part

theorem input?_modifyNode {g : Graph B} {id : NodeId} {f : Node B → Node B}
    (h : ∀ n, (f n).inputs = n.inputs) (id' : NodeId) (slot : Nat) :
    (g.modifyNode id f).input? id' slot = g.input? id' slot :=
  bind_modifyNode_of_eq (fun n => congrArg (fun inputs => inputs[slot]?) (h n)) id'

theorem output?_modifyNode {g : Graph B} {id : NodeId} {f : Node B → Node B}
    (h : ∀ n, (f n).outputs = n.outputs) (id' : NodeId) (slot : Nat) :
    (g.modifyNode id f).output? id' slot = g.output? id' slot :=
  bind_modifyNode_of_eq (fun n => congrArg (fun outputs => outputs[slot]?) (h n)) id'

/-! ## Changes of a slot -/

theorem getElem?_modify_map {α : Type} (xs : List α) (i : Nat) (f : α → α) (j : Nat) :
    (xs.modify i f)[j]? = xs[j]?.map fun a => if j = i then f a else a := by
  rw [List.getElem?_modify]
  simp only [eq_comm (a := i)]
  rfl

theorem input?_modifyInput (g : Graph B) (id : NodeId) (slot : Nat) (f : Input → Input)
    (id' : NodeId) (slot' : Nat) :
    (g.modifyNode id fun n => n.modifyInput slot f).input? id' slot' =
      (g.input? id' slot').map fun s => if id' = id ∧ slot' = slot then f s else s := by
  refine (bind_modifyNode (fun n => getElem?_modify_map n.inputs slot f slot') id').trans ?_
  by_cases hi : id' = id
  · simp only [hi, true_and, if_true]
    rfl
  · simp only [hi, false_and, if_false]
    rfl

theorem output?_modifyOutput (g : Graph B) (id : NodeId) (slot : Nat) (f : Output → Output)
    (id' : NodeId) (slot' : Nat) :
    (g.modifyNode id fun n => n.modifyOutput slot f).output? id' slot' =
      (g.output? id' slot').map fun s => if id' = id ∧ slot' = slot then f s else s := by
  refine (bind_modifyNode (fun n => getElem?_modify_map n.outputs slot f slot') id').trans ?_
  by_cases hi : id' = id
  · simp only [hi, true_and, if_true]
    rfl
  · simp only [hi, false_and, if_false]
    rfl

/-- A change of an input is not seen at outputs. -/
theorem output?_modifyInput (g : Graph B) (id : NodeId) (slot : Nat) (f : Input → Input)
    (id' : NodeId) (slot' : Nat) :
    (g.modifyNode id fun n => n.modifyInput slot f).output? id' slot' = g.output? id' slot' := by
  apply output?_modifyNode
  exact fun n => rfl

/-- A change of an output is not seen at inputs. -/
theorem input?_modifyOutput (g : Graph B) (id : NodeId) (slot : Nat) (f : Output → Output)
    (id' : NodeId) (slot' : Nat) :
    (g.modifyNode id fun n => n.modifyOutput slot f).input? id' slot' = g.input? id' slot' := by
  apply input?_modifyNode
  exact fun n => rfl

end Dataflow.Graph
