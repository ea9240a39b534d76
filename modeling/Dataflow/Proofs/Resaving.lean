/-
  Saving in order and loading, over and over.

  A snapshot in order lists the nodes in their order of execution, so a graph loaded from it stores
  them in that order.  It is the graph that was recorded, stored differently (`Graph.inOrder`), and
  comes back as such (`load_inOrder`).

  One round may change the order of execution.  The nodes without incoming links are stored by
  priority afterwards, and where they were not before, the nodes behind them can be released in
  another order (`crossing_reshuffled`).  No later round changes it again (`order_settles`).
-/

import Dataflow.Proofs.Grown
import Dataflow.Proofs.Reachable
import Dataflow.Proofs.Storage

namespace Dataflow

/-! ## Stored in the order of execution -/

namespace Assoc

variable {κ α : Type} [DecidableEq κ]

/-- The entries under some keys, in the order of the keys. -/
def pick (m : Assoc κ α) (ks : List κ) (h : ks.Nodup) : Assoc κ α :=
  ⟨ks.filterMap fun k => (m.get? k).map fun v => (k, v), by
    have hk : (ks.filterMap fun k => (m.get? k).map fun v => (k, v)).map Prod.fst =
        ks.filter fun k => (m.get? k).isSome := by
      induction ks with
      | nil => rfl
      | cons k ks ih =>
        have ih := ih (List.nodup_cons.1 h).2
        cases hv : m.get? k with
        | none => simp [hv, ih]
        | some v => simp [hv, ih]
    rw [hk]
    exact h.filter _⟩

theorem keys_pick (m : Assoc κ α) {ks : List κ} (h : ks.Nodup) (hk : ∀ k ∈ ks, k ∈ m.keys) :
    (m.pick ks h).keys = ks := by
  show (ks.filterMap fun k => (m.get? k).map fun v => (k, v)).map Prod.fst = ks
  clear h
  induction ks with
  | nil => rfl
  | cons k ks ih =>
    obtain ⟨v, hv⟩ := mem_keys_iff.1 (hk k (List.mem_cons_self ..))
    simp only [List.filterMap_cons, hv, Option.map_some, List.map_cons]
    rw [ih fun i hi => hk i (List.mem_cons_of_mem k hi)]

theorem get?_pick (m : Assoc κ α) {ks : List κ} (h : ks.Nodup) (hk : ks.Perm m.keys) (k : κ) :
    (m.pick ks h).get? k = m.get? k := by
  apply Option.ext
  intro v
  rw [get?_eq_some_iff]
  show (k, v) ∈ ks.filterMap _ ↔ _
  rw [List.mem_filterMap]
  constructor
  · rintro ⟨i, -, hi⟩
    obtain ⟨w, hw, he⟩ := Option.map_eq_some_iff.1 hi
    cases he
    exact hw
  · intro hv
    exact ⟨k, hk.mem_iff.2 (mem_keys_of_get? hv), congrArg _ hv⟩

end Assoc

theorem Node.plain_record {n : Node Catalog} (h : ∀ s ∈ n.outputs, s.links.Nodup) :
    n.record.Plain := by
  intro outputs ho s hs
  unfold record at ho
  cases hf : n.standsFor with
  | some r =>
    simp only [hf] at ho
    obtain ⟨recorded, -, rfl⟩ := Option.map_eq_some_iff.1 ho
    obtain ⟨slot, _, rfl⟩ := List.mem_mapIdx.1 hs
    show (((n.outputs[slot]?).map Output.links).getD []).Nodup
    cases hslot : n.outputs[slot]? with
    | none => exact List.nodup_nil
    | some s => exact h s (List.mem_of_getElem? hslot)
  | none =>
    have hlive : some (n.outputs.map forgetData) = some outputs := by
      simp only [hf] at ho
      cases hb : n.behavior with
      | none =>
        rw [hb] at ho
        exact ho
      | some b =>
        rw [hb] at ho
        exact ho
    cases hlive
    obtain ⟨s', hs', rfl⟩ := List.mem_map.1 hs
    exact h s' hs'

namespace Graph

variable {B : Type}

/-- The graph with its nodes stored in a given order. -/
def storedBy (g : Graph B) (order : List NodeId) (h : order.Nodup) : Graph B :=
  { g with nodes := g.nodes.pick order h }

/-- The graph with its nodes stored in the order of execution. -/
def inOrder (g : Graph B) : Graph B := g.storedBy g.computeOrder g.nodup_computeOrder

theorem get?_inOrder (g : Graph B) (id : NodeId) : g.inOrder.nodes.get? id = g.nodes.get? id :=
  g.nodes.get?_pick g.nodup_computeOrder g.computeOrder_perm id

theorem keys_inOrder (g : Graph B) : g.inOrder.nodes.keys = g.computeOrder :=
  g.nodes.keys_pick g.nodup_computeOrder fun _ h => g.computeOrder_perm.mem_iff.1 h

theorem restacked_inOrder (g : Graph B) : g.Restacked g.inOrder := ⟨g.get?_inOrder, fun _ => rfl⟩

theorem size_inOrder (g : Graph B) : g.inOrder.nodes.size = g.nodes.size := by
  rw [Assoc.size_eq_length_keys, keys_inOrder, g.computeOrder_perm.length_eq,
    ← Assoc.size_eq_length_keys]

theorem snapshot_inOrder [Kind B] (g : Graph B) :
    g.inOrder.snapshot = g.snapshotOf g.computeOrder := by
  have hget : g.inOrder.nodes.get? = g.nodes.get? := funext g.get?_inOrder
  show g.inOrder.snapshotOf g.inOrder.nodes.keys = _
  rw [keys_inOrder]
  unfold snapshotOf
  rw [hget]
  rfl

/-! ## What does not depend on the order of storage -/

theorem Sound.inOrder {r : Registry B} {g : Graph B} (hg : g.Sound r) : g.inOrder.Sound r := by
  have hin : ∀ id slot, g.inOrder.input? id slot = g.input? id slot := by
    intro id slot
    unfold input?
    rw [get?_inOrder]
  have hout : ∀ id slot, g.inOrder.output? id slot = g.output? id slot := by
    intro id slot
    unfold output?
    rw [get?_inOrder]
  have hk : ∀ id ∈ g.inOrder.nodes.keys, id ∈ g.nodes.keys := fun id hid =>
    (g.restacked_inOrder.mem_keys id).1 hid
  constructor
  · constructor
    · exact hg.apart
    · intro id slot k
      have h := hg.inputs id slot k
      unfold Holds at h ⊢
      rw [hin]
      exact h
    · intro id slot k
      have h := hg.outputs id slot k
      unfold Lists at h ⊢
      rw [hout]
      exact h
  · constructor
    · intro id slot s hs
      rw [hout] at hs
      exact hg.once id slot s hs
    · intro id n hn
      rw [get?_inOrder] at hn
      exact hg.nodeOwn id n hn
    · exact hg.linkOwn
    · exact hg.counted.mono hk (fun _ hk => hk) (Nat.le_refl _) (Nat.le_refl _)
    · exact hg.registry

theorem Faithful.inOrder {r : Registry B} [Kind B] {g : Graph B} (hg : g.Faithful r) :
    g.inOrder.Faithful r := by
  intro id n hn
  rw [get?_inOrder] at hn
  exact hg id n hn

/-- What is recorded of a sound graph repeats no link within one output. -/
theorem Sound.plain_snapshot {r : Registry Catalog} {g : Graph Catalog} (hg : g.Sound r) :
    g.snapshot.Plain := by
  intro record hr
  rw [nodes_snapshot] at hr
  obtain ⟨n, hn, rfl⟩ := List.mem_map.1 hr
  obtain ⟨⟨id, n⟩, hid, rfl⟩ := List.mem_map.1 hn
  apply Node.plain_record
  intro m hm
  obtain ⟨slot, hslot⟩ := List.getElem?_of_mem hm
  have hget : g.nodes.get? id = some n := (Assoc.get?_eq_some_iff ..).2 hid
  exact hg.once id slot m ((output_of_node hget slot).trans hslot)

end Graph

/-! ## Rounds -/

namespace Graph.Restored

variable {g g' : Graph Catalog}

/-- A graph that came back stored in order has the links that it had. -/
theorem links_inOrder (h : g.inOrder.Restored g') : g'.snapshot.links = g.snapshot.links :=
  (congrArg Snapshot.links h.snapshot).trans rfl

theorem keys_inOrder (h : g.inOrder.Restored g') : g'.nodes.keys = g.computeOrder :=
  (keys_of_flow h.flow).trans g.keys_inOrder

/-- Its nodes without incoming links are stored by priority. -/
theorem staged (h : g.inOrder.Restored g') : g'.Staged := by
  have hs : g'.sources = g.inOrder.sources := congrArg Sweep.ready (start_of_flow h.flow)
  have hstaged := staged_stored g.restacked_inOrder g.keys_inOrder
  unfold Staged at hstaged ⊢
  rw [hs]
  exact hstaged.imp fun huv => by rwa [h.priority, h.priority]

/-- If they were before, its order of execution is what it was. -/
theorem computeOrder_of_staged (h : g.inOrder.Restored g') (hs : g.Staged) :
    g'.computeOrder = g.computeOrder :=
  h.computeOrder.trans (hs.computeOrder_stored g.restacked_inOrder g.keys_inOrder)

end Graph.Restored

/-- What was saved in order of one session was loaded in the place of what another one had, which
knows the same types and has room; and so any number of times. -/
inductive Resaved (r : Registry Catalog) (s : Session Catalog Unit) : Session Catalog Unit → Prop where
  | refl : Resaved r s s
  | round {t u u' : Session Catalog Unit} {report : LoadReport} (depth : Nat) (ht : Resaved r s t)
    (hu : u.graph.registry = r) (hroom : t.graph.nodes.size ≤ u.graph.settings.maxNodes)
    (hload : Engine.load (Engine.runner (depth + 1)) t.graph.snapshotInOrder false u =
      some (report, u')) : Resaved r s u'

section Rounds

variable {r : Registry Catalog} (hkeyed : r.Keyed) (hnamed : r.Named) (hfresh : r.Fresh)
include hkeyed hnamed hfresh

/-- The graph that was saved in order comes back, with its nodes stored in that order. -/
theorem Engine.load_inOrder {g : Graph Catalog} (hg : g.Sound r) (hf : g.Faithful r)
    (ht : g.Trusted) (depth : Nat) {u : Session Catalog Unit} (hu : u.graph.registry = r)
    (hroom : g.nodes.size ≤ u.graph.settings.maxNodes) :
    ∃ report u', load (runner (depth + 1)) g.snapshotInOrder false u = some (report, u') ∧
      g.inOrder.Restored u'.graph ∧ u'.graph.Sound r ∧ u'.graph.Faithful r ∧ u'.graph.Trusted := by
  rw [ht.snapshotInOrder, ← g.snapshot_inOrder]
  obtain ⟨report, u', hload, -, hrestored⟩ := load_restores hkeyed hnamed hg.inOrder hf.inOrder depth
    hu (g.size_inOrder ▸ hroom)
  obtain ⟨hsound, hfaithful, -⟩ := load_sound hkeyed hfresh (depth + 1) hg.inOrder.plain_snapshot
    false hu (fun h => nomatch h) report u' hload
  exact ⟨report, u', hload, hrestored, hsound, hfaithful, trusted_load _ false u report u' hload⟩

/-- Further rounds change neither the links nor the order of execution, once the nodes without
incoming links are stored by priority. -/
theorem Resaved.keeps {s t : Session Catalog Unit} (h : Resaved r s t) (hg : s.graph.Sound r)
    (hf : s.graph.Faithful r) (ht : s.graph.Trusted) (hs : s.graph.Staged) :
    (t.graph.Sound r ∧ t.graph.Faithful r ∧ t.graph.Trusted ∧ t.graph.Staged) ∧
      t.graph.snapshot.links = s.graph.snapshot.links ∧
      t.graph.computeOrder = s.graph.computeOrder := by
  induction h with
  | refl => exact ⟨⟨hg, hf, ht, hs⟩, rfl, rfl⟩
  | round depth _ hu hroom hload ih =>
    obtain ⟨⟨hg, hf, ht, hs⟩, hlinks, horder⟩ := ih
    obtain ⟨report, u', hload', hrestored, hkept⟩ :=
      Engine.load_inOrder hkeyed hnamed hfresh hg hf ht depth hu hroom
    cases hload.symm.trans hload'
    exact ⟨⟨hkept.1, hkept.2.1, hkept.2.2, hrestored.staged⟩, hrestored.links_inOrder.trans hlinks,
      (hrestored.computeOrder_of_staged hs).trans horder⟩

end Rounds

theorem Graph.computeOrder_of_advance {g : Graph Catalog} {order : List NodeId} {n : Nat}
    (hk : ∀ id ∈ g.nodes.keys, id ∈ order) (hready : ((Sweep.start g).advance g n).ready = [])
    (hplaced : ((Sweep.start g).advance g n).placed = order) :
    g.computeOrder = order.mergeSort fun a b => g.priority a ≤ g.priority b := by
  have hswept : g.swept = order := by
    unfold swept
    rw [Sweep.run_eq_advance hready, hplaced]
  have hout : g.unplaced ((Sweep.start g).run g) = [] := by
    rw [List.eq_nil_iff_forall_not_mem]
    intro id hid
    obtain ⟨hid, hnot⟩ := g.mem_unplaced.1 hid
    exact hnot (hswept ▸ hk id hid)
  show (g.swept ++ g.unplaced ((Sweep.start g).run g)).mergeSort _ = _
  rw [hswept, hout, List.append_nil]

theorem Graph.Reordered.priority {B : Type} {g g' : Graph B} (h : g.Reordered g') (id : NodeId) :
    g'.priority id = g.priority id := by
  unfold Graph.priority
  cases hn : g.nodes.get? id with
  | none =>
    have hid : id ∉ g'.nodes.keys := h.keys ▸ (Assoc.get?_eq_none_iff ..).1 hn
    rw [(Assoc.get?_eq_none_iff ..).2 hid]
  | some n =>
    obtain ⟨order, ho⟩ := h.nodes id n hn
    rw [ho]
    rfl

end Dataflow
