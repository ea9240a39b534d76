/-
  Loading links, records and repairs into a graph that is in order.

  A graph that is `Orderly` stays so through the phases of a load, although its slots and links
  need not agree in between.  Recorded links get identities of their own, no two the same one
  (`InOrder`), so an output that did not repeat a link does not repeat one under the new identities.
  A repair adds to an output only what is not there, takes links away and makes none, and leaves all
  else of a graph alone (`Mends`).
-/

import Dataflow.Proofs.Bodies
import Dataflow.Proofs.Sound

namespace Dataflow

variable {B σ : Type}

/-- No output is recorded with a link named twice. -/
def NodeRecord.Plain (r : NodeRecord) : Prop :=
  ∀ outputs ∈ r.outputs, ∀ s ∈ outputs, s.links.Nodup

/-- So for all nodes of a snapshot. -/
def Snapshot.Plain (snapshot : Snapshot) : Prop := ∀ r ∈ snapshot.nodes, r.Plain

/-! ## Links that are loaded -/

namespace LinkLoad

/-- Links were loaded into a graph, which is the same but for them.  They are in order, and what
was recorded as two links was loaded as two. -/
structure InOrder (g : Graph B) (load : LinkLoad B) : Prop where
  rest : load.graph =
    { g with links := load.graph.links, nextLink := load.graph.nextLink }
  own : ∀ k l, load.graph.links.get? k = some l → l.id = k
  counted : ∀ k ∈ load.graph.links.keys, afterId k.number ≤ load.graph.nextLink
  start : 1 ≤ load.graph.nextLink
  known : ∀ i k, load.table.get? i = some k → k ∈ load.graph.links.keys
  injective : ∀ i j k, load.table.get? i = some k → load.table.get? j = some k → i = j

variable {g : Graph B} {load : LinkLoad B}

/-- The identity that a recorded link gets is not that of another one. -/
theorem InOrder.claim_own (h : load.InOrder g) {i j : LinkId}
    (hj : load.table.get? j = some (load.claim i).1) : j = i := by
  cases hi : load.table.get? i with
  | some k =>
    rw [claim_known hi] at hj
    exact h.injective j i k hj hi
  | none => exact absurd (h.known j _ hj) (claim_fresh hi)

theorem InOrder.add (h : load.InOrder g) (nodes : Renaming NodeId) (r : LinkRecord) :
    (LinkLoad.add nodes load r).InOrder g := by
  unfold LinkLoad.add
  cases nodes.get? r.origin with
  | none => exact ⟨h.rest, h.own, h.counted, h.start, h.known, h.injective⟩
  | some origin =>
  cases nodes.get? r.target with
  | none => exact ⟨h.rest, h.own, h.counted, h.start, h.known, h.injective⟩
  | some target =>
  have hle := load.le_claim r.id
  have hown := fun {j} => h.claim_own (i := r.id) (j := j)
  simp only
  -- of the identity only this matters: the counter is not behind it, and no other record has it
  generalize load.claim r.id = claimed at hle hown
  have hnext : load.graph.nextLink ≤ max claimed.2 (afterId claimed.1.number) :=
    Nat.le_trans hle (Nat.le_max_left ..)
  constructor
  case rest =>
    show ({ load.graph with links := _, nextLink := _ } : Graph B) = _
    rw [h.rest]
  case own =>
    intro k l hl
    change (load.graph.links.insert claimed.1 _).get? k = some l at hl
    rw [Assoc.get?_insert] at hl
    split at hl
    · next hk =>
      cases hl
      exact hk.symm
    · exact h.own k l hl
  case counted =>
    intro k hk
    obtain ⟨l, hl⟩ := Assoc.mem_keys_iff.1 hk
    change (load.graph.links.insert claimed.1 _).get? k = some l at hl
    rw [Assoc.get?_insert] at hl
    split at hl
    · next hk =>
      rw [hk]
      exact Nat.le_max_right ..
    · exact Nat.le_trans (h.counted k (Assoc.mem_keys_of_get? hl)) hnext
  case start =>
    exact Nat.le_trans h.start hnext
  case known =>
    intro i k hi
    change (load.table.insert r.id claimed.1).get? i = some k at hi
    rw [Assoc.get?_insert] at hi
    show k ∈ (load.graph.links.insert claimed.1 _).keys
    rw [Assoc.mem_keys_iff, Assoc.get?_insert]
    split at hi
    · cases hi
      exact ⟨_, if_pos rfl⟩
    · obtain ⟨l, hl⟩ := Assoc.mem_keys_iff.1 (h.known i k hi)
      split
      · exact ⟨_, rfl⟩
      · exact ⟨l, hl⟩
  case injective =>
    intro i j k hi hj
    change (load.table.insert r.id claimed.1).get? i = some k at hi
    change (load.table.insert r.id claimed.1).get? j = some k at hj
    rw [Assoc.get?_insert] at hi hj
    -- the identity given out last belongs to this record only
    split at hi <;> split at hj
    · next h h' => exact h.trans h'.symm
    · next h' =>
      cases hi
      exact absurd (hown hj) h'
    · next h' _ =>
      cases hj
      exact absurd (hown hi) h'
    · exact h.injective i j k hi hj

theorem InOrder.addAll (h : load.InOrder g) (nodes : Renaming NodeId) (records : List LinkRecord) :
    (records.foldl (LinkLoad.add nodes) load).InOrder g := by
  induction records generalizing load with
  | nil => exact h
  | cons r records ih => exact ih (h.add nodes r)

end LinkLoad

namespace Graph

variable {reg : Registry B} {g g' g'' : Graph B}

theorem Orderly.inOrder (hg : g.Orderly reg) (nodes : Renaming NodeId) (records : List LinkRecord) :
    (g.mergeLinks nodes records).InOrder g := by
  have hstart : LinkLoad.InOrder g ⟨g, ∅, []⟩ :=
    ⟨rfl, hg.linkOwn, hg.counted.link, hg.counted.linkStart, fun _ _ h => (nomatch h),
      fun _ _ _ h => (nomatch h)⟩
  exact hstart.addAll nodes records

/-- A graph stays in order when links are loaded into it and the counter is moved up. -/
theorem Orderly.merged (hg : g.Orderly reg) {load : LinkLoad B} (hl : load.InOrder g) (next : Nat) :
    Orderly reg { load.graph with nextLink := max load.graph.nextLink next } := by
  have hnodes : load.graph.nodes = g.nodes := (congrArg Graph.nodes hl.rest).trans rfl
  have hnext : load.graph.nextNode = g.nextNode := (congrArg Graph.nextNode hl.rest).trans rfl
  constructor
  case once =>
    intro id slot s hs
    refine hg.once id slot s ?_
    rw [← hs]
    show (g.nodes.get? id).bind _ = (load.graph.nodes.get? id).bind _
    rw [hnodes]
  case nodeOwn =>
    intro id n hn
    exact hg.nodeOwn id n (hnodes ▸ hn)
  case linkOwn =>
    exact hl.own
  case counted =>
    refine ⟨?_, ?_, ?_, ?_⟩
    · intro id hid
      show _ ≤ load.graph.nextNode
      rw [hnext]
      exact hg.counted.node id (hnodes ▸ hid)
    · intro k hk
      exact Nat.le_trans (hl.counted k hk) (Nat.le_max_left ..)
    · show 1 ≤ load.graph.nextNode
      rw [hnext]
      exact hg.counted.nodeStart
    · exact Nat.le_trans hl.start (Nat.le_max_left ..)
  case registry =>
    exact (congrArg Graph.registry hl.rest).trans hg.registry

/-! ## Records that are taken over -/

theorem Orderly.modifyNode (hg : g.Orderly reg) (id : NodeId) {f : Node B → Node B}
    (hid : ∀ n, (f n).id = n.id)
    (hout : ∀ n : Node B, (∀ s ∈ n.outputs, s.links.Nodup) → ∀ s ∈ (f n).outputs, s.links.Nodup) :
    (g.modifyNode id f).Orderly reg := by
  refine ⟨?_, ?_, hg.linkOwn, hg.counted.modifyNode id f, hg.registry⟩
  · intro i slot s hs
    obtain ⟨n', hn', hslot⟩ := node_of_output hs
    rw [get?_modifyNode] at hn'
    have hold : ∀ n, g.nodes.get? i = some n → ∀ s ∈ n.outputs, s.links.Nodup := by
      intro n hn s hs
      obtain ⟨j, hj⟩ := List.getElem?_of_mem hs
      exact hg.once i j s ((output_of_node hn j).trans hj)
    split at hn'
    · obtain ⟨n, hn, rfl⟩ := Option.map_eq_some_iff.1 hn'
      exact hout n (hold n hn) s (List.mem_of_getElem? hslot)
    · exact hold n' hn' s (List.mem_of_getElem? hslot)
  · intro i n' hn'
    obtain ⟨n, hn, he⟩ := node_of_modifyNode hid hn'
    exact he.trans (hg.nodeOwn i n hn)

end Graph

namespace Node

variable [Kind B]

theorem offerProperties_eq (n : Node B) (ps : List (String × Value)) :
    ∃ properties b, (n.offerProperties ps).1 = { n with properties, behavior := b } := by
  induction ps generalizing n with
  | nil => exact ⟨n.properties, n.behavior, rfl⟩
  | cons e ps ih =>
    obtain ⟨b, hb⟩ := n.tell_eq (.propertyOffered e.1 e.2)
    have hoffer : ∃ properties b, (n.offerProperty e.1 e.2).1 = { n with properties, behavior := b } := by
      unfold offerProperty
      simp only [hb]
      split
      · exact ⟨n.properties, b, rfl⟩
      · exact ⟨n.properties.insert e.1 e.2, b, rfl⟩
    obtain ⟨properties, b, hoffer⟩ := hoffer
    obtain ⟨properties', b', h⟩ := ih (n.offerProperty e.1 e.2).1
    refine ⟨properties', b', ?_⟩
    show ((n.offerProperty e.1 e.2).1.offerProperties ps).1 = _
    rw [h, hoffer]

theorem id_applyRecord (n : Node B) (r : NodeRecord) : (n.applyRecord r).1.id = n.id := by
  obtain ⟨properties, b, h⟩ := n.offerProperties_eq r.properties.entries
  unfold applyRecord
  simp only [h]

/-- Outputs do not repeat links after a record was taken over, if neither the node nor the record
did before. -/
theorem nodup_applyRecord {n : Node B} (hn : ∀ s ∈ n.outputs, s.links.Nodup) {r : NodeRecord}
    (hr : r.Plain) : ∀ s ∈ (n.applyRecord r).1.outputs, s.links.Nodup := by
  obtain ⟨properties, b, h⟩ := n.offerProperties_eq r.properties.entries
  unfold applyRecord
  simp only [h]
  cases ho : r.outputs with
  | none => exact hn
  | some outputs => exact hr outputs ho

omit [Kind B] in
theorem nodup_relink {n : Node B} (hn : ∀ s ∈ n.outputs, s.links.Nodup)
    {f : Direction → Nat → LinkId → Option LinkId}
    (hf : ∀ d slot i j k, f d slot i = some k → f d slot j = some k → i = j) :
    ∀ s ∈ (n.relink f).outputs, s.links.Nodup := by
  intro s hs
  obtain ⟨slot, hslot⟩ := List.getElem?_of_mem hs
  change (n.outputs.mapIdx _)[slot]? = some s at hslot
  rw [List.getElem?_mapIdx] at hslot
  obtain ⟨o, ho, rfl⟩ := Option.map_eq_some_iff.1 hslot
  refine (hn o (List.mem_of_getElem? ho)).filterMap fun i j k hi hj => ?_
  exact hf .output slot i j k hi hj

omit [Kind B] in
theorem lasts_relink {p : Prop} (n : Node B) (f : Direction → Nat → LinkId → Option LinkId) :
    n.Lasts p (n.relink f) := by
  refine .of_eq rfl ?_ rfl
  show (⟨(n.inputs.mapIdx _).length, (n.outputs.mapIdx _).length, _⟩ : Build) = _
  rw [List.length_mapIdx, List.length_mapIdx]
  rfl

end Node

namespace Graph

theorem Orderly.adopted [Kind B] {reg : Registry B} {table : Renaming LinkId}
    (ht : ∀ i j k, table.get? i = some k → table.get? j = some k → i = j)
    {placed : List (NodeId × NodeRecord)} (hp : ∀ e ∈ placed, e.2.Plain) {g : Graph B}
    (hg : g.Orderly reg) : (g.adopted table placed).Orderly reg := by
  induction placed generalizing g with
  | nil => exact hg
  | cons e placed ih =>
    refine ih (fun i hi => hp i (List.mem_cons_of_mem e hi)) (hg.modifyNode e.1 ?_ ?_)
    · exact fun n => n.id_applyRecord e.2
    · intro n hn
      refine Node.nodup_relink (Node.nodup_applyRecord hn (hp e (List.mem_cons_self ..))) ?_
      exact fun _ _ i j k => ht i j k

/-! ## Repairs -/

/-- A graph was mended: outputs repeat no links that they did not repeat before, links were taken
away, and nothing else has changed. -/
structure Mends (g g' : Graph B) : Prop where
  rest : g' = { g with nodes := g'.nodes, links := g'.links }
  keys : g'.nodes.keys = g.nodes.keys
  nodes : g'.Descends (fun _ => False) g
  links : ∀ k l, g'.links.get? k = some l → g.links.get? k = some l
  once : (∀ id slot s, g.output? id slot = some s → s.links.Nodup) →
    ∀ id slot s, g'.output? id slot = some s → s.links.Nodup

namespace Mends

variable {reg : Registry B} {g g' g'' : Graph B}

theorem refl (g : Graph B) : g.Mends g := ⟨rfl, rfl, .refl g, fun _ _ h => h, fun h => h⟩

theorem trans (h : g.Mends g') (h' : g'.Mends g'') : g.Mends g'' where
  rest := by
    rw [h'.rest, h.rest]
  keys := h'.keys.trans h.keys
  nodes := h'.nodes.trans h.nodes
  links k l hl := h.links k l (h'.links k l hl)
  once hg := h'.once (h.once hg)

/-- Mending keeps a graph in order. -/
theorem orderly (h : g.Mends g') (hg : g.Orderly reg) : g'.Orderly reg where
  once := h.once hg.once
  nodeOwn id n' hn' := by
    obtain ⟨n, hn, hl⟩ := h.nodes id n' hn'
    exact (congrArg Make.id hl.make).trans (hg.nodeOwn id n hn)
  linkOwn k l hl := hg.linkOwn k l (h.links k l hl)
  counted := by
    have hnode : g'.nextNode = g.nextNode := by rw [h.rest]
    have hlink : g'.nextLink = g.nextLink := by rw [h.rest]
    refine hg.counted.mono (fun id hid => h.keys ▸ hid) (fun k hk => ?_) (Nat.le_of_eq hnode.symm)
      (Nat.le_of_eq hlink.symm)
    obtain ⟨l, hl⟩ := Assoc.mem_keys_iff.1 hk
    exact Assoc.mem_keys_of_get? (h.links k l hl)
  registry := by
    rw [h.rest]
    exact hg.registry

end Mends

theorem descends_enter {T : NodeId → Prop} (g : Graph B) (k : LinkId) (l : Link) :
    (g.enter k l).Descends T g := by
  have hin : ∀ g : Graph B, (g.modifyNode l.target fun n => n.modifyInput l.targetSlot fun s =>
      { s with link := some (s.link.getD k) }).Descends T g :=
    fun g => descends_modifyNode fun n _ => n.lasts_modifyInput ..
  have hout : ∀ g : Graph B, (g.modifyNode l.origin fun n => n.modifyOutput l.originSlot fun s =>
      if k ∈ s.links then s else { s with links := s.links ++ [k] }).Descends T g :=
    fun g => descends_modifyNode fun n _ => n.lasts_modifyOutput ..
  exact (hout _).trans (hin _)

theorem mends_enter (g : Graph B) (k : LinkId) (l : Link) : g.Mends (g.enter k l) where
  rest := rfl
  keys := (Assoc.keys_modify ..).trans (Assoc.keys_modify ..)
  nodes := g.descends_enter k l
  links _ _ hl := hl
  once hg id slot s hs := by
    rw [output?_enter] at hs
    obtain ⟨o, ho, rfl⟩ := Option.map_eq_some_iff.1 hs
    have hold := hg id slot o ho
    split
    · split
      · exact hold
      · next hk =>
        refine List.nodup_append.2 ⟨hold, List.nodup_singleton k, fun i hi j hj => ?_⟩
        rw [List.mem_singleton.1 hj]
        exact ne_of_mem_of_not_mem hi hk
    · exact hold

theorem mends_eraseLink (g : Graph B) (k : LinkId) : g.Mends { g with links := g.links.erase k } := by
  refine ⟨rfl, rfl, .of_nodes rfl, fun i l' hl => ?_, fun hg => hg⟩
  exact Assoc.get?_of_get?_erase hl

theorem mends_settles (ks : List LinkId) (r : Repair B) :
    r.graph.Mends (ks.foldl settle r).graph :=
  settles_keep (P := r.graph.Mends) (fun g k l h => h.trans (g.mends_enter k l))
    (fun g k h => h.trans (g.mends_eraseLink k)) ks (.refl _)

theorem mends_relinkAll (g : Graph B) {f : NodeId → Direction → Nat → LinkId → Option LinkId}
    (hf : ∀ id d slot i k, f id d slot i = some k → i = k) : g.Mends (g.relinkAll f) where
  rest := rfl
  keys := Assoc.keys_mapValues ..
  nodes id n' hn' := by
    have hm : (g.nodes.get? id).map (fun n => n.relink (f id)) = some n' :=
      (Assoc.get?_mapValues ..).symm.trans hn'
    obtain ⟨n, hn, rfl⟩ := Option.map_eq_some_iff.1 hm
    exact ⟨n, hn, n.lasts_relink (f id)⟩
  links _ _ hl := hl
  once hg id slot s hs := by
    rw [output?_relinkAll] at hs
    obtain ⟨o, ho, rfl⟩ := Option.map_eq_some_iff.1 hs
    refine (hg id slot o ho).filterMap fun i j k hi hj => ?_
    exact (hf id .output slot i k hi).trans (hf id .output slot j k hj).symm

theorem mends_repair (g : Graph B) (pruned : List LinkId) : g.Mends (g.repair pruned).graph := by
  have hsettled := mends_settles g.links.keys ⟨g, pruned, false⟩
  refine hsettled.trans (.trans ?_ (mends_relinkAll _ ?_))
  · exact mends_relinkAll _ fun _ _ _ _ _ h => ((live_eq_some _).1 h).1
  · exact fun _ _ _ _ _ h => ((owned_eq_some _).1 h).1

end Graph

end Dataflow
