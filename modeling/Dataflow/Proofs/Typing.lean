/-
  Links between slots that fit, whatever programs do.

  A load takes links over with the types in their records, and nobody compares them with the slots
  that they come to join; the repair asks whether both slots exist, and whether the input is free,
  but not what types they have (`crossed_stays`).  So programs may only load snapshots whose links
  fit the slots in the records of their nodes, or those that the nodes were made with where a record
  has none (`Snapshot.Fits`).

  While the nodes of a snapshot wait for their records, no link touches any of them, and they have
  the slots that they were made with (`Graph.Docking`).  Bodies of nodes that are added may only do
  what those of the catalog do, so they give them no others.  Then every link between loaded nodes
  joins the slots that its record was judged by.
-/

import Dataflow.Proofs.Consumers
import Dataflow.Proofs.Fitting

namespace Dataflow

variable {B σ α : Type}

theorem Catalog.SyncEdit.upholding {id : NodeId} {e : Edit} (h : SyncEdit id e) :
    e.upholding = true := by
  cases e <;> first | rfl | exact h.elim

/-! ## Snapshots -/

/-- The types of the slots of a node when it has taken over its record. -/
def NodeRecord.face [Kind B] (registry : Registry B) (record : NodeRecord) : Face :=
  let made := (Engine.madeOf registry record).1
  ⟨(record.inputs.getD made.inputs).map Input.type, (record.outputs.getD made.outputs).map Output.type⟩

/-- Whether a link fits the slots that it is to join, if both exist. -/
def LinkRecord.fits (source sink : Face) (l : LinkRecord) : Bool :=
  match source.outputs[l.originSlot]?, sink.inputs[l.targetSlot]? with
  | some output, some input => output.feeds input && decide (l.type = input)
  | _, _ => true

theorem LinkRecord.fits_iff {source sink : Face} {l : LinkRecord} : l.fits source sink = true ↔
    ∀ output input, source.outputs[l.originSlot]? = some output →
      sink.inputs[l.targetSlot]? = some input → output.feeds input = true ∧ l.type = input := by
  unfold fits
  cases source.outputs[l.originSlot]? with
  | none => simp
  | some output =>
    cases sink.inputs[l.targetSlot]? with
    | none => simp
    | some input => simp

/-- The links of a snapshot fit the slots of the nodes that they name. -/
def Snapshot.Fits [Kind B] (registry : Registry B) (snapshot : Snapshot) : Prop :=
  ∀ l ∈ snapshot.links, ∀ source ∈ snapshot.nodes, ∀ sink ∈ snapshot.nodes,
    source.id = some l.origin → sink.id = some l.target →
      l.fits (source.face registry) (sink.face registry) = true

instance [Kind B] (registry : Registry B) (snapshot : Snapshot) :
    Decidable (snapshot.Fits registry) := inferInstanceAs (Decidable (∀ _ ∈ _, _))

/-- The slots that a record gives a node, or leaves to it. -/
theorem Node.face_applyRecord [Kind B] {registry : Registry B} {record : NodeRecord} {n : Node B}
    (h : n.face = (Engine.madeOf registry record).1.face) :
    (n.applyRecord record).1.face = record.face registry := by
  unfold Node.face NodeRecord.face
  rw [n.inputs_applyRecord, n.outputs_applyRecord]
  congr 1
  · cases record.inputs with
    | some inputs => rfl
    | none => exact congrArg Face.inputs h
  · cases record.outputs with
    | some outputs => rfl
    | none => exact congrArg Face.outputs h

/-! ## The invariant -/

theorem Face.Grows.eq_of_length {a b : Face} (h : a.Grows b)
    (hi : b.inputs.length = a.inputs.length) (ho : b.outputs.length = a.outputs.length) : b = a := by
  have hin := h.inputs.eq_of_length hi.symm
  have hout := h.outputs.eq_of_length ho.symm
  cases a
  cases b
  exact congr (congrArg Face.mk hin.symm) hout.symm

namespace Graph

/-- A sound graph whose links fit.  The nodes that wait for records have the slots that they were
made with, and no links. -/
structure Docking [Kind B] (r : Registry B) (placed : List (NodeId × NodeRecord)) (g : Graph B) :
    Prop where
  sound : g.Sound r
  fitted : g.Fitted
  distinct : (placed.map Prod.fst).Nodup
  faces : ∀ e ∈ placed, ∃ n, g.nodes.get? e.1 = some n ∧ n.face = (Engine.madeOf r e.2).1.face
  bare : ∀ k l, g.links.get? k = some l →
    l.origin ∉ placed.map Prod.fst ∧ l.target ∉ placed.map Prod.fst

/-- A node that stays, while nothing happens to the wiring, gets no slots. -/
theorem Upholds.face {g g' : Graph B} (h : g.Upholds g') (hw : g'.wiring = g.wiring) {id : NodeId}
    {n : Node B} (hn : g.nodes.get? id = some n) :
    ∃ n', g'.nodes.get? id = some n' ∧ n'.face = n.face := by
  obtain ⟨n', hn', hpins⟩ := node_of_wiring hw.symm hn
  obtain ⟨m, hm, hgrows⟩ := h.nodes id n' hn'
  cases Option.some.inj (hn.symm.trans hm)
  obtain ⟨hi, ho⟩ := n.length_pins
  obtain ⟨hi', ho'⟩ := n'.length_pins
  rw [hpins] at hi' ho'
  refine ⟨n', hn', hgrows.eq_of_length ?_ ?_⟩
  · show (n'.inputs.map _).length = (n.inputs.map _).length
    rw [List.length_map, List.length_map, ← hi, hi']
  · show (n'.outputs.map _).length = (n.outputs.map _).length
    rw [List.length_map, List.length_map, ← ho, ho']

/-! ## Adding a node -/

theorem Sound.target_mem {r : Registry B} {g : Graph B} (hs : g.Sound r) {k : LinkId} {l : Link}
    (hl : g.links.get? k = some l) : l.target ∈ g.nodes.keys := by
  obtain ⟨i, hi, -⟩ := hs.target_exists hl
  obtain ⟨n, hn, -⟩ := node_of_input hi
  exact Assoc.mem_keys_of_get? hn

/-- A node that is added leaves links where they were. -/
theorem Fitted.place {r : Registry B} {g : Graph B} (hg : g.Fitted) (hs : g.Sound r) (n : Node B)
    {id : NodeId} (hid : id ∉ g.nodes.keys) (next : Nat) : (g.place n id next).Fitted := by
  intro k l o i hl ho hi
  rw [g.place_snapped] at hl
  have hsource : l.origin ≠ id := fun he => hid (he ▸ hs.origin_mem hl)
  have hsink : l.target ≠ id := fun he => hid (he ▸ hs.target_mem hl)
  refine hg k l o i hl ?_ ?_
  · obtain ⟨m, hm, hslot⟩ := node_of_output ho
    rw [get?_place, if_neg hsource] at hm
    exact (output_of_node hm _).trans hslot
  · obtain ⟨m, hm, hslot⟩ := node_of_input hi
    rw [get?_place, if_neg hsink] at hm
    exact (input_of_node hm _).trans hslot

section Kind

variable [Kind B] {r : Registry B} {placed : List (NodeId × NodeRecord)} {g g' : Graph B}

theorem Docking.of_fitted (hs : g.Sound r) (hg : g.Fitted) : g.Docking r [] :=
  ⟨hs, hg, List.nodup_nil, fun _ h => (nomatch h),
    fun _ _ _ => ⟨fun h => (nomatch h), fun h => (nomatch h)⟩⟩

theorem Docking.upholds (h : g.Docking r placed) (hw : g'.wiring = g.wiring) (hu : g.Upholds g') :
    g'.Docking r placed where
  sound := h.sound.of_wiring hw
  fitted := h.fitted.sameSlots (.of_wiring hw) hu
  distinct := h.distinct
  faces e he := by
    obtain ⟨n, hn, hface⟩ := h.faces e he
    obtain ⟨n', hn', hsame⟩ := hu.face hw hn
    exact ⟨n', hn', hsame.trans hface⟩
  bare k l hl := by
    obtain ⟨l', hl', hends⟩ := link_of_wiring hw hl
    rw [← show l'.origin = l.origin from congrArg Ends.origin hends,
      ← show l'.target = l.target from congrArg Ends.target hends]
    exact h.bare k l' hl'

/-- What the engine does between two bodies does no harm. -/
theorem even_docking (r : Registry B) (placed : List (NodeId × NodeRecord)) :
    Even (Docking r placed) where
  marked g k h := h.upholds (wiring_of_skeleton (skeleton_modifyLink fun _ => rfl))
    (g.upholds_modifyLink k fun _ => rfl)
  counted _ _ _ _ h := h.upholds rfl (.aside rfl rfl)
  stopped s h := h.upholds (wiring_of_skeleton (Session.skeleton_stop s)) s.upholds_stop
  update g h := h.upholds g.wiring_updateOrder g.upholds_updateOrder

theorem aloof_docking (r : Registry B) (placed : List (NodeId × NodeRecord)) :
    Engine.Aloof (Docking r placed) := by
  intro g id b h
  exact h.upholds (wiring_modifyNode fun _ _ => rfl) (upholds_modifyFace fun _ _ => rfl)

/-- A node that was made for a record waits for it. -/
theorem Docking.place (h : g.Docking r placed) (hr : r.Fresh) (record : NodeRecord) :
    (Engine.placing g { (Engine.madeOf r record).1 with id := record.id }).Docking r
      (placed ++ [((g.claimNode record.id).1, record)]) := by
  obtain ⟨hi, ho⟩ := Engine.unlinked_madeOf hr record
  let made : Node B := { (Engine.madeOf r record).1 with id := record.id }
  show (g.place made (g.claimNode record.id).1 (g.claimNode record.id).2).Docking r _
  have hfree := g.claimNode_fresh record.id
  have hsound : (Engine.placing g made).Sound r := h.sound.place hi ho hfree
  have hfitted := h.fitted.place h.sound made hfree (g.claimNode record.id).2
  have hlinks : (Engine.placing g made).links = g.links := by
    unfold Engine.placing
    rw [g.place_snapped]
    rfl
  have hknown : ∀ e ∈ placed, e.1 ∈ g.nodes.keys := by
    intro e he
    obtain ⟨n, hn, -⟩ := h.faces e he
    exact Assoc.mem_keys_of_get? hn
  change Sound r (g.place made (g.claimNode record.id).1 (g.claimNode record.id).2) at hsound
  change (g.place made (g.claimNode record.id).1 (g.claimNode record.id).2).links = _ at hlinks
  -- of the identity only this matters: it was free
  generalize (g.claimNode record.id).1 = id at hfree hsound hfitted hlinks ⊢
  generalize (g.claimNode record.id).2 = next at hsound hfitted hlinks ⊢
  have hids : (placed ++ [(id, record)]).map Prod.fst = placed.map Prod.fst ++ [id] :=
    List.map_append
  refine ⟨hsound, hfitted, ?_, fun e he => ?_, fun k l hl => ?_⟩
  · rw [hids]
    refine List.nodup_append.2 ⟨h.distinct, List.nodup_singleton id, fun i hi j hj => ?_⟩
    obtain ⟨e, he, rfl⟩ := List.mem_map.1 hi
    rw [List.mem_singleton.1 hj]
    exact ne_of_mem_of_not_mem (hknown e he) hfree
  · rcases List.mem_append.1 he with he | he
    · obtain ⟨n, hn, hface⟩ := h.faces e he
      refine ⟨n, ?_, hface⟩
      rw [get?_place, if_neg (ne_of_mem_of_not_mem (hknown e he) hfree)]
      exact hn
    · rw [List.mem_singleton.1 he]
      obtain ⟨pos, hp⟩ := made.snapped_eq g.settings
      refine ⟨{ made with id := some id, pos }, ?_, rfl⟩
      rw [get?_place, if_pos rfl, hp]
  · rw [hlinks] at hl
    obtain ⟨hsource, hsink⟩ := h.bare k l hl
    rw [hids, List.mem_append, List.mem_append, not_or, not_or]
    refine ⟨⟨hsource, fun hid => ?_⟩, ⟨hsink, fun hid => ?_⟩⟩
    · exact hfree (List.mem_singleton.1 hid ▸ h.sound.origin_mem hl)
    · exact hfree (List.mem_singleton.1 hid ▸ h.sound.target_mem hl)

end Kind

/-! ## The repair -/

theorem upholds_enter (g : Graph B) (k : LinkId) (l : Link) : g.Upholds (g.enter k l) := by
  have hin : g.Upholds (g.modifyNode l.target fun n => n.modifyInput l.targetSlot fun s =>
      { s with link := some (s.link.getD k) }) :=
    upholds_modifyFace fun n _ => n.face_modifyInput _ fun _ => rfl
  refine hin.trans (upholds_modifyFace fun n _ => n.face_modifyOutput _ fun o => ?_)
  split <;> rfl

theorem upholds_repair (g : Graph B) (pruned : List LinkId) : g.Upholds (g.repair pruned).graph :=
  repaired_keeps (P := g.Upholds) (fun g' k l h => h.trans (g'.upholds_enter k l))
    (fun g' k h => h.trans (g'.upholds_eraseLink k)) (fun _ _ h => h.trans (upholds_relinkAll _ _))
    (.refl g) pruned

end Graph

/-! ## Loading -/

/-- Nodes were added for some of the records, and can be found by their records. -/
structure Engine.Placing.Lists (records : List NodeRecord) (p : Placing) : Prop where
  drawn : ∀ e ∈ p.placed, e.2 ∈ records
  known : ∀ i id, p.nodes.get? i = some id → ∃ record, (id, record) ∈ p.placed ∧ record.id = some i

theorem Engine.Placing.Lists.note {records : List NodeRecord} {p : Placing} (h : p.Lists records)
    {record : NodeRecord} (hr : record ∈ records) (missing : List String) (id : NodeId) :
    (p.note missing record id).Lists records where
  drawn e he := by
    rcases List.mem_append.1 he with he | he
    · exact h.drawn e he
    · rw [List.mem_singleton.1 he]
      exact hr
  known i i' hi := by
    rcases Engine.Placing.of_get?_note hi with hold | ⟨rfl, hid⟩
    · obtain ⟨other, hmem, hother⟩ := h.known i i' hold
      exact ⟨other, List.mem_append_left _ hmem, hother⟩
    · exact ⟨record, List.mem_append_right _ (List.mem_singleton_self _), hid⟩

namespace Graph

variable [Kind B] {r : Registry B} {g g' : Graph B} {placed : List (NodeId × NodeRecord)}

/-- The face of a node that has taken over its record. -/
theorem Docking.adopted (h : g.Docking r placed) (hg : g'.nodes = g.nodes)
    (table : Renaming LinkId) {id : NodeId} {record : NodeRecord} (he : (id, record) ∈ placed)
    {n : Node B} (hn : (g'.adopted table placed).nodes.get? id = some n) : n.face = record.face r := by
  rw [get?_adopted table h.distinct he, hg] at hn
  obtain ⟨m, hm, rfl⟩ := Option.map_eq_some_iff.1 hn
  obtain ⟨m', hm', hface⟩ := h.faces _ he
  cases Option.some.inj (hm.symm.trans hm')
  exact (Node.face_relink _ _).trans (Node.face_applyRecord hface)

/-- When links were merged and nodes have taken over their records, the links fit that were there,
and those whose records fit the records of their nodes. -/
theorem Docking.fitted_adopted {p : Engine.Placing} (h : g.Docking r p.placed)
    {snapshot : Snapshot} (hp : p.Lists snapshot.nodes) (hfits : snapshot.Fits r)
    (hg : g'.nodes = g.nodes) {load : LinkLoad B} (hload : load.Tells p.nodes g snapshot.links)
    (hlinks : g'.links = load.graph.links) : (g'.adopted load.table p.placed).Fitted := by
  intro k l o i hl ho hi
  rw [(keys_adopted load.table p.placed g').2, hlinks] at hl
  rcases hload.new k (Assoc.mem_keys_of_get? hl) with hk | ⟨j, hj⟩
  · obtain ⟨l', hl'⟩ := Assoc.mem_keys_iff.1 hk
    cases Option.some.inj (hl.symm.trans (hload.old k l' hl'))
    obtain ⟨hsource, hsink⟩ := h.bare k l hl'
    -- a link that was there joins nodes that were there
    refine h.fitted k l o i hl' ?_ ?_
    · rw [← ho]
      unfold output?
      rw [get?_adopted_of_notMem load.table hsource, hg]
    · rw [← hi]
      unfold input?
      rw [get?_adopted_of_notMem load.table hsink, hg]
  · obtain ⟨record, hrecord⟩ := hload.known j k hj
    obtain ⟨k', l', hk', hat, hl'⟩ := hload.counted j record hrecord
    cases Option.some.inj (hj.symm.trans hk')
    cases Option.some.inj (hl.symm.trans hl')
    obtain ⟨hmem, -, -⟩ := LinkRecord.counting_spec hrecord
    obtain ⟨origin, horigin, hat⟩ := Option.bind_eq_some_iff.1 hat
    obtain ⟨target, htarget, rfl⟩ := Option.map_eq_some_iff.1 hat
    obtain ⟨source, hsource, hsourceId⟩ := hp.known _ _ horigin
    obtain ⟨sink, hsink, hsinkId⟩ := hp.known _ _ htarget
    obtain ⟨n, hn, hout⟩ := type_of_output ho
    obtain ⟨m, hm, hin⟩ := type_of_input hi
    rw [h.adopted hg load.table hsource hn] at hout
    rw [h.adopted hg load.table hsink hm] at hin
    exact LinkRecord.fits_iff.1 (hfits record hmem source (hp.drawn _ hsource) sink
      (hp.drawn _ hsink) hsourceId hsinkId) _ _ hout hin

end Graph

theorem Session.Told.upholds {s t : Session B σ} (h : s.Told t) : s.graph.Upholds t.graph := by
  have hlinks : t.graph.links = s.graph.links := by rw [h.rest]
  refine .of_nodes hlinks fun id n hn => ?_
  obtain ⟨m, hm, he⟩ := Graph.node_of_still h.still hn
  have hinputs : m.still.inputs = n.still.inputs := congrArg Node.inputs he
  have houtputs : m.still.outputs = n.still.outputs := congrArg Node.outputs he
  have hface : m.face = n.face := Node.face_of_slots hinputs houtputs
  exact ⟨m, hm, hface ▸ .refl _⟩

/-- Once the nodes of a snapshot were added, the rest of a load leaves links that fit. -/
theorem Session.fitted_settleLoad [Kind B] {r : Registry B} {s : Session B σ}
    {p : Engine.Placing} (hs : s.graph.Docking r p.placed) {snapshot : Snapshot}
    (hp : p.Lists snapshot.nodes) (hfits : snapshot.Fits r) :
    (s.settleLoad snapshot p.placed p.nodes p.report).2.graph.Fitted := by
  obtain ⟨told, htold, heq⟩ := s.settleLoad_eq snapshot p.placed p.nodes p.report
  rw [heq]
  let load := s.graph.mergeLinks p.nodes snapshot.links
  let merged : Graph B := { load.graph with nextLink := max load.graph.nextLink snapshot.nextLink }
  let adopted := merged.adopted load.table p.placed
  let mended := (adopted.repair (p.report.prunedLinks ++ load.pruned)).graph
  have hload : load.Tells p.nodes s.graph snapshot.links := s.graph.mergeLinks_tells ..
  have hnodes : merged.nodes = s.graph.nodes := hload.kept
  have hadopted : adopted.Fitted := hs.fitted_adopted hp hfits hnodes hload rfl
  have hmended : mended.Fitted :=
    hadopted.sameSlots (adopted.sameSlots_repair _) (adopted.upholds_repair _)
  have htoldFits : told.graph.Fitted :=
    hmended.sameSlots (.of_wiring (Graph.wiring_of_skeleton htold.skeleton)) htold.upholds
  let taken := (told.edit fun g => { g with
    groups := snapshot.groups, nextNode := max g.nextNode snapshot.nextNode }).markStale
  have htaken : taken.graph.Fitted := htoldFits.sameSlots ⟨fun _ _ => rfl, fun _ _ => rfl⟩ (.aside rfl rfl)
  have hlast : (told.finishLoad snapshot).graph.Fitted := by
    have hended : taken.endBatch.graph.Fitted :=
      htaken.sameSlots (.of_wiring (Session.wiring_endBatch taken)) taken.upholds_endBatch
    exact hended.sameSlots ⟨fun _ _ => rfl, fun _ _ => rfl⟩ (.aside rfl rfl)
  exact hlast

/-! ## Runs -/

/-- A call by which no output comes to list a link twice and no link to slots that do not fit. -/
def Call.Fitting [Kind B] (r : Registry B) : Call B → Prop
  | .load snapshot _ => snapshot.Plain ∧ snapshot.Fits r
  | c => c.Unrepeating

/-- Bodies add loose nodes only, load plain snapshots of fitting links only, and see sound graphs
over given types whose links fit. -/
def fitting [Kind B] (r : Registry B) : Contract B :=
  ⟨Graph.Docking r [], Call.Fitting r, Call.HandsOutLoose r⟩

namespace Engine

open Graph (Docking aloof_docking even_docking)

variable [Behavior B σ] {r : Registry B} {run : Runner B σ}

section Added

variable (hadded : ∀ placed b id, Keeps (Docking r placed) (run (Behavior.body b id .added)))
include hadded

theorem docking_insertNode {placed : List (NodeId × NodeRecord)} {s : Session B σ}
    {n : Node B} (hplace : (placing s.graph n).Docking r placed) (refresh : Bool) :
    Ensures (insertNode run n refresh) s fun answer s' =>
      ((∃ e, answer = .error e) ∧ s' = s) ∨
        (answer = .ok (s.graph.claimNode n.id).1 ∧ s'.graph.Docking r placed) := by
  refine (insertNode_spec (aloof_docking r _) refresh hplace fun b _ => hadded _ b _).mono ?_
  rintro answer s' (⟨-, he, rfl⟩ | ⟨-, hok, t, ht, hs'⟩)
  · exact .inl ⟨he, rfl⟩
  · refine .inr ⟨hok, ?_⟩
    have hm := ht.upholds t.wiring_markStale t.upholds_markStale
    rw [hs']
    cases refresh with
    | false => exact hm
    | true => exact hm.upholds (Session.wiring_refresh _) (Session.upholds_refresh _)

/-- While nodes are added, they wait with the slots that they were made with. -/
theorem docking_placeAll (hr : r.Fresh) {all records : List NodeRecord}
    (hall : ∀ record ∈ records, record ∈ all) {p : Placing} (hp : p.Lists all) {s : Session B σ}
    (hs : s.graph.Docking r p.placed) : Ensures (placeAll run records p) s fun p' s' =>
      p'.Lists all ∧ s'.graph.Docking r p'.placed := by
  induction records generalizing p s with
  | nil => exact Ensures.pure ⟨hp, hs⟩
  | cons record records ih =>
    have hrest : ∀ record ∈ records, record ∈ all :=
      fun other h => hall other (List.mem_cons_of_mem record h)
    apply placeAll_step
    rw [hs.sound.registry]
    refine (docking_insertNode hadded (hs.place hr record) false).mono ?_
    rintro answer s' (⟨⟨e, rfl⟩, rfl⟩ | ⟨rfl, hs'⟩)
    · exact ⟨fun id h => (nomatch h), fun _ _ => ih hrest (p := p.skip _) ⟨hp.drawn, hp.known⟩ hs⟩
    · refine ⟨fun i h => ?_, fun e h => nomatch h⟩
      cases h
      exact ih hrest (hp.note (hall record (List.mem_cons_self ..)) _ _) hs'

theorem docking_load (hr : r.Fresh) {snapshot : Snapshot} (hplain : snapshot.Plain)
    (hfits : snapshot.Fits r) (keepOld : Bool) : Keeps (Docking r []) (load run snapshot keepOld) := by
  intro s hs
  let start := if keepOld then s else s.clear
  let opened := (start.edit fun g =>
    { g with config := g.config.insertAll snapshot.config.entries }).beginBatch
  have hstart : start.graph.Docking r [] := by
    cases keepOld with
    | true => exact hs
    | false =>
      exact .of_fitted (Session.upkeep_clear (Graph.upkeep_sound r) hs.sound)
        (Graph.fitted_of_linkless rfl)
  have hopened : opened.graph.Docking r [] := hstart.upholds rfl (.aside rfl rfl)
  apply Ensures.modify_bind
  apply Ensures.bind
  refine (docking_placeAll hadded hr (fun _ h => h) (p := ⟨.clean, [], ∅⟩)
    ⟨fun e he => (nomatch he), fun i id h => (nomatch h)⟩ hopened).mono ?_
  rintro p s' ⟨hp, hs'⟩
  refine Ensures.total (.of_fitted ?_ (s'.fitted_settleLoad hs' hp hfits))
  exact s'.sound_settleLoad hs'.sound (fun e he => hplain e.2 (hp.drawn e he)) snapshot

/-- Calls abide by the contract, as long as they keep within the counter for links. -/
theorem honoured_fitting (hr : r.Fresh)
    (hrun : ∀ b id task, Keeps (Docking r []) (run (Behavior.body b id task))) :
    (fitting r).Honoured fun c => counted (perform run c) := by
  have hI := even_docking r []
  have henter : ∀ id task, Keeps (Docking r []) (enter run id task) :=
    fun id task s hs => keeps_entered (aloof_docking r []) hs fun b _ => hrun b id task
  intro c hc s hs
  apply ensures_counted
  cases c with
  | edit e =>
    apply Ensures.total
    intro hcount
    refine ⟨handsOutLoose_apply (Graph.upkeep_sound r) hs.sound hs.sound.registry e,
      .of_fitted ?_ (e.fitted_apply hs.sound hs.fitted)⟩
    refine e.upkeep_apply (Graph.upkeep_sound r) hs.sound fun h => ?_
    exact hs.sound.linksBelow (Nat.lt_of_lt_of_le h hcount)
  | add n =>
    have hfree := s.graph.claimNode_fresh n.id
    have hplaced : (placing s.graph n).Docking r [] := .of_fitted
      (hs.sound.place hc.inputs hc.outputs hfree) (hs.fitted.place hs.sound n hfree _)
    refine (docking_insertNode hadded hplaced true).mono ?_
    rintro answer s' (⟨-, rfl⟩ | ⟨-, hs'⟩) _
    · exact ⟨trivial, hs⟩
    · exact ⟨trivial, hs'⟩
  | load snapshot keepOld =>
    exact (docking_load hadded hr hc.1 hc.2 keepOld s hs).mono fun _ _ h _ => ⟨trivial, h⟩
  | _ => exact (even_perform hI henter (by trivial) s hs).mono fun _ _ h _ => ⟨trivial, h⟩

end Added

section Bodies

variable (hr : r.Fresh)
  (hb : ∀ b id task, (Behavior.body b id task : Body B σ (Outcome B)).Obeys (fitting r))
  (hadded : ∀ b id, (Behavior.body b id .added : Body B σ (Outcome B)).Obeys (syncing id))
include hadded

/-- The body of a node that is added gives nobody a slot, at whatever depth it runs. -/
theorem docking_added (depth : Nat) (placed : List (NodeId × NodeRecord)) (b : B) (id : NodeId) :
    Keeps (Docking r placed) (countedRunner (σ := σ) depth (Behavior.body b id .added)) := by
  cases depth with
  | zero =>
    intro s _ a s' hrun
    cases hrun
  | succ depth =>
    let K : Contract B := { syncing id with keeps := Docking r placed }
    have hK : K.Honoured fun c => counted (σ := σ) (perform (countedRunner depth) c) := by
      rintro c ⟨e, rfl, he⟩ s hs
      apply ensures_counted
      apply Ensures.total
      intro _
      refine ⟨trivial, hs.upholds (Graph.wiring_of_skeleton (Edit.skeleton_apply he.light s)) ?_⟩
      exact Edit.upholds_apply he.upholding s
    have hobeys : (Behavior.body b id .added : Body B σ (Outcome B)).Obeys K :=
      (hadded b id).mono (fun _ _ => trivial) (fun _ h => h) fun _ _ h => h
    exact Body.keeps_run hK hobeys

include hr hb

theorem honoured_fittingRunner (depth : Nat) :
    (fitting r).Honoured fun c => counted (σ := σ) (perform (countedRunner depth) c) := by
  induction depth with
  | zero =>
    -- at depth zero no body runs to its end
    refine honoured_fitting (docking_added hadded 0) hr ?_
    intro b id task s hs a s' hrun
    cases hrun
  | succ depth ih =>
    refine honoured_fitting (docking_added hadded (depth + 1)) hr fun b id task => ?_
    exact Body.keeps_run ih (hb b id task)

/-- What a program that obeys the contract makes of an empty graph has links that fit. -/
theorem docking_execCounted (settings : Settings) (events : List (Event B)) (host : σ)
    (depth : Nat) {p : Body B σ α} (hp : p.Obeys (fitting r)) {a : α} {s : Session B σ}
    (hrun : execCounted depth p ⟨Graph.empty r settings, events, host⟩ = some (a, s)) :
    s.graph.Docking r [] := by
  refine Body.keeps_run (honoured_fittingRunner hr hb hadded depth) hp
    ⟨Graph.empty r settings, events, host⟩ ?_ a s hrun
  exact .of_fitted (Graph.sound_empty r settings) (Graph.fitted_of_linkless rfl)

end Bodies

end Engine

/-- The bodies of the catalog add nothing and load nothing. -/
theorem Catalog.obeys_fitting (r : Registry Catalog) (b : Catalog) (id : NodeId) (task : Task) :
    (Behavior.body b id task : Body Catalog Unit (Outcome Catalog)).Obeys (fitting r) :=
  Catalog.obeys_behavior (fun _ _ => trivial) (fun _ _ _ _ => trivial) b id task

/-- Every link joins an output and an input of types that fit, and has the type of the input,
whatever program has worked on the graph, if new nodes named no links, the links of snapshots fitted
the recorded slots and were listed once, and bodies of added nodes only brought terminals in step. -/
theorem Engine.links_fit [Behavior B σ] {r : Registry B} (hr : r.Fresh)
    (hb : ∀ b id task, (Behavior.body b id task : Body B σ (Outcome B)).Obeys (fitting r))
    (hadded : ∀ b id, (Behavior.body b id .added : Body B σ (Outcome B)).Obeys (syncing id))
    (settings : Settings) (events : List (Event B)) (host : σ) (depth : Nat) {p : Body B σ α}
    (hp : p.Obeys (fitting r)) {a : α} {s : Session B σ}
    (hrun : execCounted depth p ⟨Graph.empty r settings, events, host⟩ = some (a, s)) :
    ∀ k l, s.graph.links.get? k = some l → ∃ o i,
      s.graph.output? l.origin l.originSlot = some o ∧
      s.graph.input? l.target l.targetSlot = some i ∧
      o.type.feeds i.type = true ∧ l.type = i.type := by
  intro k l hl
  have hs := docking_execCounted hr hb hadded settings events host depth hp hrun
  obtain ⟨o, ho, -⟩ := hs.sound.origin_exists hl
  obtain ⟨i, hi, -⟩ := hs.sound.target_exists hl
  exact ⟨o, i, ho, hi, hs.fitted k l o i hl ho hi⟩

/-- A number that feeds the first of two summands. -/
def summands : Snapshot :=
  { nextNode := 3, nextLink := 2
    nodes := [{ NodeRecord.new "basic/const_number" with id := some ⟨1⟩ },
      { NodeRecord.new "basic/sum" with id := some ⟨2⟩ }]
    links := [⟨⟨1⟩, ⟨1⟩, 0, ⟨2⟩, 0, Catalog.numbers⟩], groups := [], config := ∅ }

/-- Loads the number and the sum, in a batch that stays open, feeds the second summand as well, and
takes the first one away. -/
def summandRemoved : Body Catalog Unit Bool := do
  Body.edit .beginBatch
  let _ ← Body.perform (.load summands true)
  let _ ← Body.edit (.tryConnect ⟨1⟩ 0 ⟨2⟩ 1)
  Body.edit (.removeInput ⟨2⟩ 0)

theorem summandRemoved_obeys : summandRemoved.Obeys (fitting (Catalog.registry id)) := by
  have hplain : summands.Plain := by
    intro record hr outputs ho
    simp only [summands, NodeRecord.new, List.mem_cons, List.not_mem_nil, or_false] at hr
    rcases hr with rfl | rfl
    · cases ho
    · cases ho
  have hfits : summands.Fits (Catalog.registry id) := by decide +kernel
  exact ⟨trivial, fun _ _ => ⟨⟨hplain, hfits⟩, fun _ _ => ⟨trivial, fun _ _ =>
    ⟨trivial, fun _ _ => trivial⟩⟩⟩⟩

theorem summandRemoved_runs : (Engine.execCounted 1 summandRemoved
    ⟨Graph.empty (Catalog.registry id) .default, [], ()⟩).any fun e =>
      decide (e.2.graph.links.keys = [⟨2⟩]) && (e.2.graph.links.get? ⟨2⟩).any fun l =>
        decide (l.target = ⟨2⟩ ∧ l.targetSlot = 0) := by
  decide +kernel

/-- The link to the second summand has moved with it, and fits it. -/
theorem summandRemoved_fits : ∃ answer s l o i,
    Engine.execCounted 1 summandRemoved ⟨Graph.empty (Catalog.registry id) .default, [], ()⟩ =
      some (answer, s) ∧
    s.graph.links.keys = [⟨2⟩] ∧ s.graph.links.get? ⟨2⟩ = some l ∧
    s.graph.output? l.origin l.originSlot = some o ∧ s.graph.input? ⟨2⟩ 0 = some i ∧
    o.type.feeds i.type = true ∧ l.type = i.type := by
  obtain ⟨⟨answer, s⟩, hrun, hfacts⟩ := (Option.any_eq_true _ _).1 summandRemoved_runs
  rw [Bool.and_eq_true, decide_eq_true_eq] at hfacts
  obtain ⟨l, hl, hends⟩ := (Option.any_eq_true _ _).1 hfacts.2
  obtain ⟨htarget, hslot⟩ := of_decide_eq_true hends
  obtain ⟨o, i, ho, hi, hfeeds, htype⟩ := Engine.links_fit (Catalog.fresh_registry id)
    (Catalog.obeys_fitting _) Catalog.obeys_syncing .default [] () 1 summandRemoved_obeys hrun ⟨2⟩ l hl
  rw [htarget, hslot] at hi
  exact ⟨answer, s, l, o, i, hrun, hfacts.1, hl, ho, hi, hfeeds, htype⟩

/-- A number that is recorded to feed a layer. -/
def crossed : Snapshot :=
  { nextNode := 3, nextLink := 2
    nodes := [{ NodeRecord.new "basic/const_number" with id := some ⟨1⟩ },
      { NodeRecord.new "layer/ReLU" with id := some ⟨2⟩ }]
    links := [⟨⟨1⟩, ⟨1⟩, 0, ⟨2⟩, 0, Catalog.numbers⟩], groups := [], config := ∅ }

theorem crossed_evaluates : ((Engine.load (Engine.runner 1) crossed false waiting).any fun e =>
    decide (e.1.prunedLinks = []) && (e.2.graph.links.get? ⟨1⟩).any fun l =>
      (e.2.graph.output? l.origin l.originSlot).any fun o =>
        (e.2.graph.input? l.target l.targetSlot).any fun i =>
          decide (i.link = some ⟨1⟩) && decide (o.type.feeds i.type = false) &&
            decide (l.type ≠ i.type)) = true := by
  decide +kernel

/-- The link is loaded, although nobody could have made it, and is not pruned.  It joins a number to
a shape, and does not have the type of the input that it feeds. -/
theorem crossed_stays : ∃ report t l o i,
    Engine.load (Engine.runner 1) crossed false waiting = some (report, t) ∧
    report.prunedLinks = [] ∧ t.graph.links.get? ⟨1⟩ = some l ∧
    t.graph.output? l.origin l.originSlot = some o ∧
    t.graph.input? l.target l.targetSlot = some i ∧ i.link = some ⟨1⟩ ∧
    o.type.feeds i.type = false ∧ l.type ≠ i.type := by
  obtain ⟨⟨report, t⟩, hload, hfacts⟩ := (Option.any_eq_true _ _).1 crossed_evaluates
  rw [Bool.and_eq_true, decide_eq_true_eq] at hfacts
  obtain ⟨l, hl, hends⟩ := (Option.any_eq_true _ _).1 hfacts.2
  obtain ⟨o, ho, hinput⟩ := (Option.any_eq_true _ _).1 hends
  obtain ⟨i, hi, htypes⟩ := (Option.any_eq_true _ _).1 hinput
  simp only [Bool.and_eq_true, decide_eq_true_eq] at htypes
  obtain ⟨⟨hnamed, hfeeds⟩, htype⟩ := htypes
  exact ⟨report, t, l, o, i, hload, hfacts.1, hl, ho, hi, hnamed, hfeeds, htype⟩

end Dataflow
