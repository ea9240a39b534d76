/-
  The phases of a load, one by one.

  Once the nodes of a snapshot were added, a load takes in its links, lets the nodes take over
  their records, and repairs what does not agree.  What comes after that leaves neither a slot nor
  a link as it was not: behaviours are told what happened, groups and a counter are taken over, and
  the order is brought up to date.  `settleLoad_eq` splits a load there.
-/

import Dataflow.Proofs.Merge

namespace Dataflow

variable {B σ : Type}

/-! ## Records that are taken over -/

namespace Graph

variable [Kind B] (table : Renaming LinkId)

theorem adopted_cons (g : Graph B) (id : NodeId) (r : NodeRecord)
    (placed : List (NodeId × NodeRecord)) : g.adopted table ((id, r) :: placed) =
      (g.modifyNode id fun n => (n.applyRecord r).1.relink fun _ _ k => table.get? k).adopted table
        placed := rfl

/-- A node without a record of its own stays as it is. -/
theorem get?_adopted_of_notMem {placed : List (NodeId × NodeRecord)} {id : NodeId}
    (h : id ∉ placed.map Prod.fst) (g : Graph B) :
    (g.adopted table placed).nodes.get? id = g.nodes.get? id := by
  induction placed generalizing g with
  | nil => rfl
  | cons e placed ih =>
    rw [List.map_cons, List.mem_cons, not_or] at h
    rw [adopted_cons, ih h.2, get?_modifyNode, if_neg h.1]

/-- Every node takes over its own record. -/
theorem get?_adopted {placed : List (NodeId × NodeRecord)} (hp : (placed.map Prod.fst).Nodup)
    {id : NodeId} {r : NodeRecord} (h : (id, r) ∈ placed) (g : Graph B) :
    (g.adopted table placed).nodes.get? id = (g.nodes.get? id).map fun n =>
      (n.applyRecord r).1.relink fun _ _ k => table.get? k := by
  induction placed generalizing g with
  | nil => cases h
  | cons e placed ih =>
    rw [List.map_cons, List.nodup_cons] at hp
    rcases List.mem_cons.1 h with rfl | h
    · rw [adopted_cons, get?_adopted_of_notMem table hp.1, get?_modifyNode, if_pos rfl]
    · have hne : id ≠ e.1 := ne_of_mem_of_not_mem (List.mem_map_of_mem h) hp.1
      rw [adopted_cons, ih hp.2 h, get?_modifyNode, if_neg hne]

theorem adopted_eq (placed : List (NodeId × NodeRecord)) (g : Graph B) :
    g.adopted table placed = { g with nodes := (g.adopted table placed).nodes } := by
  induction placed generalizing g with
  | nil => rfl
  | cons e placed ih =>
    rw [adopted_cons, ih]
    rfl

end Graph

/-! ## Notices and the order -/

namespace Session

/-- What a load ends with. -/
def finishLoad (s : Session B σ) (snapshot : Snapshot) : Session B σ :=
  ((s.edit fun g => { g with
    groups := snapshot.groups
    nextNode := max g.nextNode snapshot.nextNode }).markStale.endBatch).restructure id

theorem finishLoad_spec (s : Session B σ) (snapshot : Snapshot) :
    (s.finishLoad snapshot).graph.wiring =
        { s.graph.wiring with nextNode := max s.graph.nextNode snapshot.nextNode } ∧
      s.graph.Reordered (s.finishLoad snapshot).graph ∧
      (s.finishLoad snapshot).graph.groups = snapshot.groups ∧
      (s.finishLoad snapshot).graph.config = s.graph.config ∧
      (s.finishLoad snapshot).graph.settings = s.graph.settings := by
  let taken := (s.edit fun g => { g with
    groups := snapshot.groups, nextNode := max g.nextNode snapshot.nextNode }).markStale.edit
      fun g => { g with batchDepth := g.batchDepth - 1 }
  have hlast := reordered_refresh taken
  have hkept : taken.refresh.graph.groups = taken.graph.groups ∧
      taken.refresh.graph.config = taken.graph.config ∧
      taken.refresh.graph.settings = taken.graph.settings := by
    unfold refresh
    split
    · show (taken.graph.number _).groups = _ ∧ (taken.graph.number _).config = _ ∧
        (taken.graph.number _).settings = _
      rw [Graph.number_eq]
      exact ⟨rfl, rfl, rfl⟩
    · exact ⟨rfl, rfl, rfl⟩
  exact ⟨wiring_refresh taken, ⟨hlast.keys, hlast.nodes, hlast.links⟩, hkept⟩

/-- A session differs from another in behaviours and events only. -/
structure Told (s t : Session B σ) : Prop where
  skeleton : t.graph.skeleton = s.graph.skeleton
  still : t.graph.still = s.graph.still
  rest : t.graph = { s.graph with nodes := t.graph.nodes }

theorem Told.refl (s : Session B σ) : s.Told s := ⟨rfl, rfl, rfl⟩

theorem Told.trans {s t u : Session B σ} (h : s.Told t) (h' : t.Told u) : s.Told u := by
  refine ⟨h'.skeleton.trans h.skeleton, h'.still.trans h.still, h'.rest.trans ?_⟩
  rw [h.rest]

section Kind

variable [Kind B]

theorem told_tell (s : Session B σ) (id : NodeId) (notice : Notice) : s.Told (s.tell id notice) := by
  refine ⟨skeleton_tell s id notice, still_tell s id notice, ?_⟩
  unfold tell
  split <;> rfl

theorem told_tellAll (ids : List NodeId) (notice : Notice) (s : Session B σ) :
    s.Told (s.tellAll ids notice) := by
  induction ids generalizing s with
  | nil => exact .refl s
  | cons id ids ih => exact (told_tell s id notice).trans (ih _)

/-- Clearing a graph keeps its types and its settings. -/
theorem clear_spec (s : Session B σ) :
    s.clear.graph.registry = s.graph.registry ∧ s.clear.graph.settings = s.graph.settings := by
  have hstop : s.stop.graph.registry = s.graph.registry ∧
      s.stop.graph.settings = s.graph.settings := by
    unfold stop
    split
    · have h := told_tellAll s.graph.nodes.keys .stopped
        ((s.edit fun g => { g with running := false }).log .stopped)
      exact ⟨(congrArg Graph.registry h.rest).trans rfl, (congrArg Graph.settings h.rest).trans rfl⟩
    · exact ⟨rfl, rfl⟩
  have h := told_tellAll s.stop.graph.nodes.keys .removed s.stop
  exact ⟨(congrArg Graph.registry h.rest).trans hstop.1, (congrArg Graph.settings h.rest).trans hstop.2⟩

theorem told_introduceAll (placed : List (NodeId × NodeRecord)) (s : Session B σ) :
    s.Told (placed.foldl (fun s e => s.introduce e.1 e.2) s) := by
  have hend : ∀ (id : NodeId) (links : List (Direction × Nat × Link)) (s : Session B σ),
      s.Told (links.foldl (fun s e => s.tellEnd e.1 id e.2.1 true e.2.2) s) := by
    intro id links
    induction links with
    | nil => exact fun s => .refl s
    | cons e links ih =>
      intro s
      have htell : s.Told (s.tellEnd e.1 id e.2.1 true e.2.2) := by
        unfold tellEnd
        split
        · exact told_tell s id _
        · exact .refl s
      exact htell.trans (ih _)
  induction placed generalizing s with
  | nil => exact .refl s
  | cons e placed ih => exact ((hend e.1 _ s).trans (told_tell _ e.1 _)).trans (ih _)

/-- A load, split where the repair is done. -/
theorem settleLoad_eq (s : Session B σ) (snapshot : Snapshot) (placed : List (NodeId × NodeRecord))
    (nodes : Renaming NodeId) (report : LoadReport) :
    let load := s.graph.mergeLinks nodes snapshot.links
    let merged := s.edit fun _ =>
      { load.graph with nextLink := max load.graph.nextLink snapshot.nextLink }
    let repair := (merged.graph.adopted load.table placed).repair (report.prunedLinks ++ load.pruned)
    let adopted := placed.foldl (fun (lost, s) (id, r) =>
      let (l, s) := s.adopt load.table id r
      (lost || l, s)) (false, merged)
    ∃ told, Told (adopted.2.edit fun _ => repair.graph) told ∧
      s.settleLoad snapshot placed nodes report =
        ({ report with
            hadErrors := report.hadErrors || !load.pruned.isEmpty || adopted.1 || repair.repaired
            prunedLinks := repair.pruned }, told.finishLoad snapshot) := by
  intro load merged repair adopted
  have hrepair : adopted.2.graph.repair (report.prunedLinks ++ load.pruned) = repair := by
    rw [graph_adopts load.table placed false merged]
  refine ⟨placed.foldl (fun s e => s.introduce e.1 e.2) (adopted.2.edit fun _ => repair.graph),
    told_introduceAll placed _, ?_⟩
  show ({ report with
      hadErrors := report.hadErrors || !load.pruned.isEmpty || adopted.1 ||
        (adopted.2.graph.repair (report.prunedLinks ++ load.pruned)).repaired
      prunedLinks := (adopted.2.graph.repair (report.prunedLinks ++ load.pruned)).pruned },
    (placed.foldl (fun s e => s.introduce e.1 e.2) (adopted.2.edit fun _ =>
      (adopted.2.graph.repair (report.prunedLinks ++ load.pruned)).graph)).finishLoad snapshot) = _
  rw [hrepair]

end Kind

end Session

end Dataflow
