/-
  What nodes are born with.

  A node keeps its type, what comes with the type, whether it can run, and whether it stands in for
  another node, through all edits and bodies, and when it takes over a record; and its first
  properties stay first.  So a property of nodes that depends on no more than that (`Node.Innate`)
  holds of all nodes of a graph if it holds of those that were put there: every call keeps it
  (`Engine.peopled_perform`).
-/

import Dataflow.Proofs.Grown
import Dataflow.Proofs.Report
import Dataflow.Proofs.Terminals

namespace Dataflow

variable {B σ : Type}

/-! ## Birth -/

/-- What of a node never changes. -/
structure Birth where
  type : String
  typeTitle : String
  typePriority : Int
  standsFor : Option NodeRecord
  canExecute : Bool
  acceptsActions : Bool

namespace Node

def birth (n : Node B) : Birth :=
  ⟨n.type, n.typeTitle, n.typePriority, n.standsFor, n.canExecute, n.acceptsActions⟩

/-- A node was born as another one, and has the properties of that one first. -/
structure Grows (n n' : Node B) : Prop where
  birth : n'.birth = n.birth
  properties : n.properties.keys <+: n'.properties.keys

/-- A property that a node has from its birth. -/
def Innate (P : Node B → Prop) : Prop := ∀ n n', n.Grows n' → P n → P n'

namespace Grows

variable {n n' : Node B}

theorem of_lasts {p : Prop} (h : n.Lasts p n') : n.Grows n' where
  birth := congrArg (fun m : Make =>
    (⟨m.type, m.typeTitle, m.typePriority, m.standsFor, m.canExecute, m.acceptsActions⟩ : Birth))
    h.make
  properties := h.properties

theorem of_follows (h : n.Follows n') : n.Grows n' := ⟨(of_lasts h).birth, h.properties⟩

end Grows

theorem grows_placed (n : Node B) (id : Option NodeId) (pos : Point) : n.Grows { n with id, pos } :=
  ⟨rfl, List.prefix_rfl⟩

/-- A node that takes over a record. -/
theorem grows_applyRecord [Kind B] (n : Node B) (r : NodeRecord) : n.Grows (n.applyRecord r).1 :=
  have ho : n.Grows (n.offerProperties r.properties.entries).1 :=
    .of_lasts (p := False) (n.lasts_offerProperties _)
  ⟨ho.birth, ho.properties⟩

end Node

/-! ## Graphs -/

/-- A graph over given types whose nodes have a property. -/
structure Graph.Peopled (r : Registry B) (P : Node B → Prop) (g : Graph B) : Prop where
  registry : g.registry = r
  nodes : ∀ id n, g.nodes.get? id = some n → P n

variable {r : Registry B} {P : Node B → Prop}

theorem Graph.peopled_empty (r : Registry B) (settings : Settings) :
    (Graph.empty r settings).Peopled r P := ⟨rfl, fun _ _ hn => nomatch hn⟩

namespace Graph.Peopled

variable {g g' : Graph B} (hP : Node.Innate P) (hg : g.Peopled r P)
include hP hg

theorem descends {T : NodeId → Prop} (hr : g'.registry = g.registry) (h : g'.Descends T g) :
    g'.Peopled r P := by
  refine ⟨hr.trans hg.registry, fun id n' hn' => ?_⟩
  obtain ⟨n, hn, hl⟩ := h id n' hn'
  exact hP n n' (.of_lasts hl) (hg.nodes id n hn)

theorem trails (h : g'.Trails g) : g'.Peopled r P := by
  refine ⟨(registry_of_wiring h.wiring).trans hg.registry, fun id n' hn' => ?_⟩
  obtain ⟨n, hn, hf⟩ := h.nodes id n' hn'
  exact hP n n' (.of_follows hf) (hg.nodes id n hn)

/-- One node more. -/
theorem placed {n : Node B} (hn : P n) (h : g'.Trails (Engine.placing g n)) : g'.Peopled r P := by
  have hr : (Engine.placing g n).registry = g.registry := by
    unfold Engine.placing
    rw [place_snapped]
    rfl
  refine ⟨(registry_of_wiring h.wiring).trans (hr.trans hg.registry), fun id n' hn' => ?_⟩
  rcases Engine.node_of_trails h hn' with ⟨-, pos, hf⟩ | ⟨-, m, hm, hf⟩
  · exact hP _ n' (.of_follows hf) (hP n _ (n.grows_placed _ pos) hn)
  · exact hP m n' (.of_follows hf) (hg.nodes id m hm)

theorem adopted [Kind B] (table : Renaming LinkId) (placed : List (NodeId × NodeRecord)) :
    (g.adopted table placed).Peopled r P := by
  induction placed generalizing g with
  | nil => exact hg
  | cons e placed ih =>
    refine ih ⟨hg.registry, fun id n' hn' => ?_⟩
    obtain ⟨-, hn⟩ | ⟨-, n, hn, rfl⟩ := Assoc.exists_of_get?_modify hn'
    · exact hg.nodes id n' hn
    · have hadopted := hP n _ (n.grows_applyRecord e.2) (hg.nodes e.1 n hn)
      exact hP (n.applyRecord e.2).1 _ ⟨rfl, List.prefix_rfl⟩ hadopted

end Graph.Peopled

/-! ## Calls -/

section Calls

variable {r : Registry Catalog} {P : Node Catalog → Prop} (hP : Node.Innate P)
  {s : Session Catalog Unit} (hs : s.graph.Peopled r P)
include hP hs

theorem Session.peopled_settleLoad (snapshot : Snapshot) (p : Engine.Placing) :
    (s.settleLoad snapshot p.placed p.nodes p.report).2.graph.Peopled r P := by
  have hregistry := Graph.registry_of_shore (s.shore_settleLoad snapshot p.placed p.nodes p.report)
  obtain ⟨told, htold, heq⟩ := s.settleLoad_eq snapshot p.placed p.nodes p.report
  rw [heq] at hregistry ⊢
  let load := s.graph.mergeLinks p.nodes snapshot.links
  let merged : Graph Catalog :=
    { load.graph with nextLink := max load.graph.nextLink snapshot.nextLink }
  have hkept : merged.nodes = s.graph.nodes := (s.graph.mergeLinks_tells p.nodes snapshot.links).kept
  have hmerged : merged.Peopled merged.registry P :=
    ⟨rfl, fun id n hn => hs.nodes id n (hkept ▸ hn)⟩
  have hadopted := hmerged.adopted hP load.table p.placed
  have hmended := hadopted.descends hP (Graph.registry_of_shore (Graph.shore_repair ..))
    (Graph.mends_repair _ (p.report.prunedLinks ++ load.pruned)).nodes
  have htold' := hmended.trails hP
    (.of_still (Graph.wiring_of_skeleton htold.skeleton) htold.still)
  obtain ⟨-, hlast, -⟩ := told.finishLoad_spec snapshot
  refine ⟨hregistry.trans hs.registry, fun id n' hn' => ?_⟩
  obtain ⟨n, hn, hl⟩ := hlast.descends (T := fun _ => False) id n' hn'
  exact hP n n' (.of_lasts hl) (htold'.nodes id n hn)

/-- An edit brings no node. -/
theorem Edit.peopled_apply (e : Edit) : (e.apply s).2.graph.Peopled r P :=
  hs.descends hP (s.registry_apply e) (e.quiet_apply s).nodes

/-- The nodes that an edit hands out have the property, if copies have it. -/
theorem Edit.innate_handed (hcopy : ∀ n, P n → P (n.copy r).1) (e : Edit) :
    ∀ n ∈ (Call.edit e).handed (e.apply s).1, P n := by
  cases e with
  | remove id =>
    intro n hn
    obtain ⟨m, m', hm, hl, rfl⟩ := lasts_removed s id n hn
    exact hP m' _ (m'.grows_placed none m'.pos) (hP m m' (.of_lasts hl) (hs.nodes id m hm))
  | cloneNode id =>
    intro n hn
    obtain ⟨m, hm, rfl⟩ := Session.exists_of_cloneNode hn
    rw [hs.registry]
    exact hcopy m (hs.nodes id m hm)
  | _ => exact fun n hn => nomatch hn

namespace Engine

theorem peopled_insertNode (depth : Nat) {n : Node Catalog} (hn : P n) (refresh : Bool) :
    Ensures (insertNode (runner depth) n refresh) s fun _ s' => s'.graph.Peopled r P := by
  refine (insertNode_trails depth n refresh s).mono ?_
  rintro answer s' (⟨-, rfl⟩ | ⟨-, ht⟩)
  · exact hs
  · exact hs.placed hP hn ht

theorem peopled_placeAll (depth : Nat) {records : List NodeRecord}
    (hrecords : ∀ record ∈ records, P (madeOf r record).1) {p : Placing} :
    Ensures (placeAll (runner depth) records p) s fun _ s' => s'.graph.Peopled r P := by
  induction records generalizing p s with
  | nil => exact Ensures.pure hs
  | cons record records ih =>
    obtain ⟨hrecord, hrest⟩ := List.forall_mem_cons.1 hrecords
    apply placeAll_step
    have hmade : P { (madeOf s.graph.registry record).1 with id := record.id } := by
      rw [hs.registry]
      exact hP _ _ (Node.grows_placed _ record.id _) hrecord
    refine (peopled_insertNode hP hs depth hmade false).mono ?_
    exact fun answer s' h => ⟨fun id _ => ih h hrest, fun e _ => ih h hrest⟩

theorem peopled_load (depth : Nat) {snapshot : Snapshot}
    (hsnapshot : ∀ record ∈ snapshot.nodes, P (madeOf r record).1) (keepOld : Bool) :
    Ensures (load (runner depth) snapshot keepOld) s fun _ s' => s'.graph.Peopled r P := by
  have hstart : (if keepOld then s else s.clear).graph.Peopled r P := by
    cases keepOld with
    | true => exact hs
    | false => exact Edit.peopled_apply hP hs .clear
  apply Ensures.modify_bind
  apply Ensures.bind
  refine (peopled_placeAll hP ?_ depth hsnapshot).mono fun p t ht => ?_
  · exact ⟨hstart.registry, hstart.nodes⟩
  · exact Ensures.total (Session.peopled_settleLoad hP ht snapshot p)

/-- A call keeps what nodes have from their birth, if the nodes that it brings have it.  So do the
nodes that it hands out, if copies have it. -/
theorem peopled_perform (hcopy : ∀ n, P n → P (n.copy r).1) {c : Call Catalog}
    (hadd : ∀ n, c = .add n → P n) (hload : ∀ snapshot keepOld, c = .load snapshot keepOld →
      ∀ record ∈ snapshot.nodes, P (madeOf r record).1) (depth : Nat) :
    Ensures (perform (runner depth) c) s fun a s' =>
      s'.graph.Peopled r P ∧ ∀ n ∈ c.handed a, P n := by
  have hnone : ∀ n ∈ (none : Option (Node Catalog)), P n := fun n hn => nomatch hn
  cases c with
  | edit e => exact Ensures.total ⟨e.peopled_apply hP hs, e.innate_handed hP hs hcopy⟩
  | add n => exact (peopled_insertNode hP hs depth (hadd n rfl) true).mono fun _ _ h => ⟨h, hnone⟩
  | load snapshot keepOld =>
    have hsnapshot := hload snapshot keepOld rfl
    exact (peopled_load hP hs depth hsnapshot keepOld).mono fun _ _ h => ⟨h, hnone⟩
  | _ => exact (trails_perform depth (by trivial) s).mono fun _ _ ht => ⟨hs.trails hP ht, hnone⟩

end Engine

end Calls

end Dataflow
