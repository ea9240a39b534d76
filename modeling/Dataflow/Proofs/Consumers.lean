/-
  All who read from an output read the same.

  Whatever programs do to a graph, a link that carries a value carries what was last written to the
  output that it leaves.  So the inputs that an output feeds, as far as they have seen a value at
  all, see the same one.

  The delicate moment is a load.  While the nodes of a snapshot are added, and until they have taken
  over their records, no link that carries something leaves any of them (`Graph.Fair`): they are
  new, and links that a load makes carry nothing yet.  So it does no harm that the records come with
  other outputs.  This is why the bodies of nodes that are added may only do what those of the
  catalog do (`syncing`); all other bodies may do what everyone may.

  Where a snapshot lists a link twice, the link moves twice when an output in front of it goes, and
  then it carries what was written to another output (`strayed_cargo`).
-/

import Dataflow.Proofs.Cargo

namespace Dataflow

variable {B σ α : Type}

/-! ## Contracts -/

/-- A program that obeys a contract obeys one that allows as much and promises no less. -/
theorem Body.Obeys.mono {K K' : Contract B} {p : Body B σ α} (h : p.Obeys K)
    (hk : ∀ g, K'.keeps g → K.keeps g) (ha : ∀ c, K.allows c → K'.allows c)
    (hp : ∀ c a, K'.promises c a → K.promises c a) : p.Obeys K' := by
  induction p with
  | done a => trivial
  | look next ih => exact fun g hg hkeep => ih g hg (h g hg (hk g hkeep))
  | keep change next ih => exact ih h
  | note remark next ih => exact ih h
  | call c next ih => exact ⟨ha c h.1, fun a hpr => ih a (h.2 a (hp c a hpr))⟩

/-- What the body of a node does when the node was added: it brings a terminal in step with it. -/
def syncing (id : NodeId) : Contract B :=
  ⟨fun _ => True, fun c => ∃ e, c = .edit e ∧ Catalog.SyncEdit id e, fun _ _ => True⟩

theorem Catalog.obeys_syncing (b : Catalog) (id : NodeId) :
    (Behavior.body b id .added : Body Catalog Unit (Outcome Catalog)).Obeys (syncing id) :=
  Catalog.obeys_added b fun e he => ⟨e, rfl, he⟩

theorem Catalog.SyncEdit.light {id : NodeId} {e : Edit} (h : SyncEdit id e) : e.light = true := by
  cases e <;> first | rfl | exact h.elim

theorem Catalog.SyncEdit.ferrying {id : NodeId} {e : Edit} (h : SyncEdit id e) :
    e.ferrying = true := by
  cases e <;> first | rfl | exact h.elim

/-! ## The invariant -/

namespace Graph

/-- A sound graph whose links carry what was last written to the outputs that they leave, while
those that leave some nodes carry nothing. -/
structure Fair (r : Registry B) (ids : List NodeId) (g : Graph B) : Prop where
  sound : g.Sound r
  honest : g.Honest
  unladen : g.Unladen ids

variable {r : Registry B} {ids : List NodeId} {g g' : Graph B}

theorem Unladen.nil (g : Graph B) : g.Unladen [] := fun _ _ _ _ _ h => nomatch h

theorem Fair.of_honest (hs : g.Sound r) (hg : g.Honest) : g.Fair r [] := ⟨hs, hg, .nil g⟩

theorem Fair.settled (h : g.Fair r ids) : g.Fair r [] := .of_honest h.sound h.honest

theorem Fair.ferries (h : g.Fair r ids) (hw : g'.wiring = g.wiring) (hf : g.Ferries g') :
    g'.Fair r ids := ⟨h.sound.of_wiring hw, h.honest.ferries hf, h.unladen.ferries hf⟩

/-- What the engine does between two bodies does no harm. -/
theorem even_fair [Kind B] (r : Registry B) (ids : List NodeId) : Even (Fair r ids) where
  marked g k h := h.ferries (wiring_of_skeleton (skeleton_modifyLink fun _ => rfl))
    (g.ferries_modifyLink k fun _ => rfl)
  counted _ _ _ _ h := h.ferries rfl (.aside rfl rfl)
  stopped s h := h.ferries (wiring_of_skeleton (Session.skeleton_stop s)) s.ferries_stop.graph
  update g h := h.ferries g.wiring_updateOrder g.ferries_updateOrder

theorem aloof_fair (r : Registry B) (ids : List NodeId) : Engine.Aloof (Fair r ids) := by
  intro g id b h
  refine h.ferries (wiring_modifyNode fun _ _ => rfl) (ferries_modifyNode fun n _ => ?_)
  exact .of_outputs rfl

/-! ## Adding a node -/

theorem Sound.origin_mem (hs : g.Sound r) {k : LinkId} {l : Link} (hl : g.links.get? k = some l) :
    l.origin ∈ g.nodes.keys := by
  obtain ⟨o, ho, -⟩ := hs.origin_exists hl
  obtain ⟨n, hn, -⟩ := node_of_output ho
  exact Assoc.mem_keys_of_get? hn

/-- No link leaves a node that is new. -/
theorem Fair.place (h : g.Fair r ids) {n : Node B} (hi : ∀ s ∈ n.inputs, s.link = none)
    (ho : ∀ s ∈ n.outputs, s.links = []) : (g.place n (g.claimNode n.id).1 (g.claimNode n.id).2).Fair r
      (ids ++ [(g.claimNode n.id).1]) := by
  have hfree := g.claimNode_fresh n.id
  refine ⟨h.sound.place hi ho hfree, ?_, ?_⟩
  all_goals
    generalize (g.claimNode n.id).1 = id at hfree ⊢
    generalize (g.claimNode n.id).2 = next
    rw [g.place_snapped]
    intro k l v hl hv
    have hne : l.origin ≠ id := fun he => hfree (he ▸ h.sound.origin_mem hl)
  · have hold := h.honest k l v hl hv
    rw [outputData?_eq_bind] at hold ⊢
    show ((g.nodes.insert id _).get? l.origin).bind _ = _
    rwa [Assoc.get?_insert_of_ne _ _ hne]
  · rw [List.mem_append, List.mem_singleton, not_or]
    exact ⟨h.unladen k l v hl hv, hne⟩

/-! ## Loading -/

theorem ferries_mergeLinks (nodes : Renaming NodeId) (records : List LinkRecord) (g : Graph B) :
    g.Ferries (g.mergeLinks nodes records).graph := by
  refine mergeLinks_keeps (P := g.Ferries) (fun g' r id origin target next h => h.trans ?_) (.refl g)
    nodes records
  exact g'.ferries_insertLink _ rfl _

/-- Nodes may take over other outputs as long as no link that carries something leaves them. -/
theorem Honest.adopted [Kind B] (table : Renaming LinkId) {placed : List (NodeId × NodeRecord)}
    (hg : g.Honest) (hu : g.Unladen (placed.map Prod.fst)) : (g.adopted table placed).Honest := by
  induction placed generalizing g with
  | nil => exact hg
  | cons e placed ih =>
    refine ih (g := g.modifyNode e.1 _) ?_ ?_
    · intro k l v hl hv
      have hne : l.origin ≠ e.1 := fun he => hu k l v hl hv (he ▸ List.mem_cons_self ..)
      rw [outputData?_eq_bind, get?_modifyNode, if_neg hne, ← outputData?_eq_bind]
      exact hg k l v hl hv
    · exact fun k l v hl hv hmem => hu k l v hl hv (List.mem_cons_of_mem _ hmem)

theorem ferries_enter (g : Graph B) (k : LinkId) (l : Link) : g.Ferries (g.enter k l) := by
  have hin : g.Ferries (g.modifyNode l.target fun n => n.modifyInput l.targetSlot fun s =>
      { s with link := some (s.link.getD k) }) :=
    ferries_modifyNode fun n _ => .of_outputs rfl
  refine hin.trans (ferries_modifyNode fun n _ => n.retains_modifyOutput _ fun o => ?_)
  split <;> rfl

theorem ferries_repair (g : Graph B) (pruned : List LinkId) : g.Ferries (g.repair pruned).graph :=
  repaired_keeps (P := g.Ferries) (fun g' k l h => h.trans (g'.ferries_enter k l))
    (fun g' k h => h.trans (g'.ferries_eraseLink k)) (fun _ _ h => h.trans (ferries_relinkAll _ _))
    (.refl g) pruned

end Graph

namespace Session

theorem Told.ferries {s t : Session B σ} (h : s.Told t) : s.graph.Ferries t.graph := by
  have hlinks : t.graph.links = s.graph.links := by rw [h.rest]
  refine .of_nodes hlinks fun id n hn => ?_
  obtain ⟨n', hn', he⟩ := Graph.node_of_still h.still.symm hn
  have houtputs : n'.still.outputs = n.still.outputs := congrArg Node.outputs he
  exact ⟨n', hn', .of_outputs houtputs⟩

/-- Once the nodes of a snapshot were added, the rest of a load leaves links with what they carried
before, and with nothing where they are new. -/
theorem honest_settleLoad [Kind B] {s : Session B σ} {p : Engine.Placing} (hs : s.graph.Honest)
    (hu : s.graph.Unladen (p.placed.map Prod.fst)) (snapshot : Snapshot) :
    (s.settleLoad snapshot p.placed p.nodes p.report).2.graph.Honest := by
  obtain ⟨told, htold, heq⟩ := s.settleLoad_eq snapshot p.placed p.nodes p.report
  rw [heq]
  let load := s.graph.mergeLinks p.nodes snapshot.links
  let merged : Graph B := { load.graph with nextLink := max load.graph.nextLink snapshot.nextLink }
  let adopted := merged.adopted load.table p.placed
  have hmerged : s.graph.Ferries merged :=
    (s.graph.ferries_mergeLinks p.nodes snapshot.links).trans (.aside rfl rfl)
  have hadopted : adopted.Honest := (hs.ferries hmerged).adopted load.table (hu.ferries hmerged)
  have hmended : (adopted.repair (p.report.prunedLinks ++ load.pruned)).graph.Honest :=
    hadopted.ferries (adopted.ferries_repair _)
  let taken := (told.edit fun g => { g with
    groups := snapshot.groups, nextNode := max g.nextNode snapshot.nextNode }).markStale
  have htaken : told.graph.Ferries taken.graph := .aside rfl rfl
  have hlast : taken.graph.Ferries (told.finishLoad snapshot).graph :=
    taken.ferries_endBatch.graph.trans (.aside rfl rfl)
  exact ((hmended.ferries htold.ferries).ferries htaken).ferries hlast

end Session

/-! ## Runs -/

/-- Bodies add loose nodes only, load plain snapshots only, and see fair graphs over given types. -/
def fair (r : Registry B) : Contract B := ⟨Graph.Fair r [], Call.Unrepeating, Call.HandsOutLoose r⟩

/-- What may rely on less may rely on more. -/
theorem Body.Obeys.toFair {r : Registry B} {p : Body B σ α} (h : p.Obeys (plain r)) :
    p.Obeys (fair r) := by
  refine h.mono (fun g (hg : g.Fair r []) => ?_) (fun _ hc => hc) fun _ _ ha => ha
  exact hg.sound

namespace Engine

open Graph (Fair aloof_fair even_fair)

variable [Behavior B σ] {r : Registry B} {run : Runner B σ}

section Added

variable (hadded : ∀ ids b id, Keeps (Fair r ids) (run (Behavior.body b id .added)))
include hadded

theorem fair_insertNode {ids : List NodeId} {s : Session B σ} (hs : s.graph.Fair r ids) {n : Node B}
    (hi : ∀ s ∈ n.inputs, s.link = none) (ho : ∀ s ∈ n.outputs, s.links = []) (refresh : Bool) :
    Ensures (insertNode run n refresh) s fun answer s' =>
      ((∃ e, answer = .error e) ∧ s' = s) ∨
        ∃ id, answer = .ok id ∧ s'.graph.Fair r (ids ++ [id]) := by
  refine (insertNode_spec (aloof_fair r _) refresh (hs.place hi ho) fun b _ => hadded _ b _).mono ?_
  rintro answer s' (⟨-, he, rfl⟩ | ⟨-, hok, t, ht, hs'⟩)
  · exact .inl ⟨he, rfl⟩
  · refine .inr ⟨_, hok, ?_⟩
    have hm := ht.ferries t.wiring_markStale t.ferries_markStale.graph
    rw [hs']
    cases refresh with
    | false => exact hm
    | true => exact hm.ferries (Session.wiring_refresh _) (Session.ferries_refresh _).graph

/-- While nodes are added, links leave none of them with something. -/
theorem fair_placeAll (hr : r.Fresh) {records : List NodeRecord}
    (hplain : ∀ record ∈ records, record.Plain) {p : Placing} (hp : p.Plain) {s : Session B σ}
    (hs : s.graph.Fair r (p.placed.map Prod.fst)) : Ensures (placeAll run records p) s fun p' s' =>
      p'.Plain ∧ s'.graph.Fair r (p'.placed.map Prod.fst) := by
  induction records generalizing p s with
  | nil => exact Ensures.pure ⟨hp, hs⟩
  | cons record records ih =>
    have hrest : ∀ record ∈ records, record.Plain :=
      fun other h => hplain other (List.mem_cons_of_mem record h)
    obtain ⟨hi, ho⟩ := unlinked_madeOf (hs.sound.registry.symm ▸ hr) record
    apply placeAll_step
    refine (fair_insertNode hadded hs
      (n := { (madeOf s.graph.registry record).1 with id := record.id }) hi ho false).mono ?_
    rintro answer s' (⟨⟨e, rfl⟩, rfl⟩ | ⟨id, rfl, hs'⟩)
    · exact ⟨fun id h => (nomatch h), fun _ _ => ih hrest (p := p.skip _) hp hs⟩
    · refine ⟨fun i h => ?_, fun e h => nomatch h⟩
      cases h
      refine ih hrest (fun e he => ?_) ?_
      · rcases List.mem_append.1 he with he | he
        · exact hp e he
        · rw [List.mem_singleton.1 he]
          exact hplain record (List.mem_cons_self ..)
      · show s'.graph.Fair r ((p.placed ++ [(id, record)]).map Prod.fst)
        rwa [List.map_append]

theorem fair_load (hr : r.Fresh) {snapshot : Snapshot} (hplain : snapshot.Plain) (keepOld : Bool) :
    Keeps (Fair r []) (load run snapshot keepOld) := by
  intro s hs
  let start := if keepOld then s else s.clear
  let opened := (start.edit fun g =>
    { g with config := g.config.insertAll snapshot.config.entries }).beginBatch
  have hstart : start.graph.Fair r [] := by
    cases keepOld with
    | true => exact hs
    | false =>
      exact .of_honest (Session.upkeep_clear (Graph.upkeep_sound r) hs.sound)
        (Graph.honest_of_linkless rfl)
  have hopened : opened.graph.Fair r [] := hstart.ferries rfl (.aside rfl rfl)
  apply Ensures.modify_bind
  apply Ensures.bind
  refine (fair_placeAll hadded hr hplain (p := ⟨.clean, [], ∅⟩) (fun e he => nomatch he)
    hopened).mono ?_
  rintro p s' ⟨hp, hs'⟩
  exact Ensures.total (.of_honest (s'.sound_settleLoad hs'.sound hp snapshot)
    (Session.honest_settleLoad hs'.honest hs'.unladen snapshot))

/-- Calls abide by the contract, as long as they keep within the counter for links. -/
theorem honoured_fair (hr : r.Fresh)
    (hrun : ∀ b id task, Keeps (Fair r []) (run (Behavior.body b id task))) :
    (fair r).Honoured fun c => counted (perform run c) := by
  have hI := even_fair r []
  have henter : ∀ id task, Keeps (Fair r []) (enter run id task) :=
    fun id task s hs => keeps_entered (aloof_fair r []) hs fun b _ => hrun b id task
  intro c hc s hs
  apply ensures_counted
  cases c with
  | edit e =>
    apply Ensures.total
    intro hcount
    refine ⟨handsOutLoose_apply (Graph.upkeep_sound r) hs.sound hs.sound.registry e,
      .of_honest ?_ (e.honest_apply hs.sound hs.honest)⟩
    refine e.upkeep_apply (Graph.upkeep_sound r) hs.sound fun h => ?_
    exact hs.sound.linksBelow (Nat.lt_of_lt_of_le h hcount)
  | add n =>
    refine (fair_insertNode hadded hs hc.inputs hc.outputs true).mono ?_
    rintro answer s' (⟨-, rfl⟩ | ⟨id, -, hs'⟩) _
    · exact ⟨trivial, hs⟩
    · exact ⟨trivial, hs'.settled⟩
  | load snapshot keepOld =>
    exact (fair_load hadded hr hc keepOld s hs).mono fun _ _ h _ => ⟨trivial, h⟩
  | _ => exact (even_perform hI henter (by trivial) s hs).mono fun _ _ h _ => ⟨trivial, h⟩

end Added

section Bodies

variable (hr : r.Fresh)
  (hb : ∀ b id task, (Behavior.body b id task : Body B σ (Outcome B)).Obeys (plain r))
  (hadded : ∀ b id, (Behavior.body b id .added : Body B σ (Outcome B)).Obeys (syncing id))
include hadded

/-- The body of a node that is added does no harm, at whatever depth it runs. -/
theorem fair_added (depth : Nat) (ids : List NodeId) (b : B) (id : NodeId) :
    Keeps (Fair r ids) (countedRunner (σ := σ) depth (Behavior.body b id .added)) := by
  cases depth with
  | zero =>
    intro s _ a s' hrun
    cases hrun
  | succ depth =>
    let K : Contract B := { syncing id with keeps := Fair r ids }
    have hK : K.Honoured fun c => counted (σ := σ) (perform (countedRunner depth) c) := by
      rintro c ⟨e, rfl, he⟩ s hs
      apply ensures_counted
      apply Ensures.total
      intro _
      exact ⟨trivial, hs.ferries (Graph.wiring_of_skeleton (Edit.skeleton_apply he.light s))
        (Edit.ferries_apply he.ferrying s).graph⟩
    have hobeys : (Behavior.body b id .added : Body B σ (Outcome B)).Obeys K :=
      (hadded b id).mono (fun _ _ => trivial) (fun _ h => h) fun _ _ h => h
    exact Body.keeps_run hK hobeys

include hr hb

theorem honoured_countedRunner (depth : Nat) :
    (fair r).Honoured fun c => counted (σ := σ) (perform (countedRunner depth) c) := by
  induction depth with
  | zero =>
    -- at depth zero no body runs to its end
    refine honoured_fair (fair_added hadded 0) hr ?_
    intro b id task s hs a s' hrun
    cases hrun
  | succ depth ih =>
    refine honoured_fair (fair_added hadded (depth + 1)) hr fun b id task => ?_
    exact Body.keeps_run ih (hb b id task).toFair

/-- What a program that obeys the contract makes of an empty graph is fair. -/
theorem fair_execCounted (settings : Settings) (events : List (Event B)) (host : σ) (depth : Nat)
    {p : Body B σ α} (hp : p.Obeys (plain r)) {a : α} {s : Session B σ}
    (hrun : execCounted depth p ⟨Graph.empty r settings, events, host⟩ = some (a, s)) :
    s.graph.Fair r [] := by
  refine Body.keeps_run (honoured_countedRunner hr hb hadded depth)
    hp.toFair ⟨Graph.empty r settings, events, host⟩ ?_ a s hrun
  exact .of_honest (Graph.sound_empty r settings) (Graph.honest_of_linkless rfl)

end Bodies

end Engine

/-- Links carry what was last written to the outputs that they leave, whatever program has worked on
the graph, if new nodes named no links, snapshots repeated none, and bodies of added nodes only
brought terminals in step.  So what an input sees, if anything, is what is at the output that feeds
it, the same for all inputs that the output feeds; and a value that is written there is at once what
all of them see. -/
theorem Engine.consumers_agree [Behavior B σ] {r : Registry B} (hr : r.Fresh)
    (hb : ∀ b id task, (Behavior.body b id task : Body B σ (Outcome B)).Obeys (plain r))
    (hadded : ∀ b id, (Behavior.body b id .added : Body B σ (Outcome B)).Obeys (syncing id))
    (settings : Settings) (events : List (Event B)) (host : σ) (depth : Nat) {p : Body B σ α}
    (hp : p.Obeys (plain r)) {a : α} {s : Session B σ}
    (hrun : execCounted depth p ⟨Graph.empty r settings, events, host⟩ = some (a, s)) :
    (∀ k l, s.graph.links.get? k = some l →
      l.data = none ∨ l.data = s.graph.outputData? l.origin l.originSlot) ∧
    (∀ id slot l v, s.graph.inputLink? id slot = some l → s.graph.inputData? id slot = some v →
      s.graph.outputData? l.origin l.originSlot = some v) ∧
    ∀ id slot o v, s.graph.output? id slot = some o →
      let g := (s.setOutputData id slot v).2.graph
      g.outputData? id slot = some v ∧
        ∀ k l, g.links.get? k = some l → l.origin = id → l.originSlot = slot → l.data = some v := by
  have hs := fair_execCounted hr hb hadded settings events host depth hp hrun
  refine ⟨fun k l hl => ?_, fun id slot l v hl hv => ?_, fun id slot o v ho => ⟨?_, ?_⟩⟩
  · cases hd : l.data with
    | none => exact .inl rfl
    | some v => exact .inr (hs.honest k l v hl hd).symm
  · have hd : l.data = some v := by
      unfold Graph.inputData? at hv
      rwa [hl] at hv
    obtain ⟨i, -, hi⟩ := Option.bind_eq_some_iff.1 hl
    obtain ⟨k, -, hk⟩ := Option.bind_eq_some_iff.1 hi
    exact hs.honest k l v hk hd
  · refine (Graph.outputData?_setOutputData ho v id slot).trans (if_pos ⟨rfl, rfl⟩)
  · intro k l' hl' ho' hs'
    have hl := (hs.sound.links_setOutputData ho v k).symm.trans hl'
    obtain ⟨l, -, rfl⟩ := Option.map_eq_some_iff.1 hl
    by_cases hend : l.origin = id ∧ l.originSlot = slot
    · rw [if_pos hend]
    · rw [if_neg hend] at ho' hs'
      exact absurd ⟨ho', hs'⟩ hend

/-- Loads the fork, in a batch that stays open, writes to its second output and takes the first one
away. -/
def forkShifted : Body Catalog Unit Bool := do
  Body.edit .beginBatch
  let _ ← Body.perform (.load forkSnapshot false)
  let _ ← Body.edit (.setOutputData ⟨1⟩ 1 (.int 7))
  Body.edit (.removeOutput ⟨1⟩ 0)

theorem forkShifted_obeys (r : Registry Catalog) : forkShifted.Obeys (plain r) :=
  ⟨trivial, fun _ _ => ⟨forkSnapshot_plain, fun _ _ => ⟨trivial, fun _ _ => ⟨trivial, fun _ _ => trivial⟩⟩⟩⟩

theorem forkShifted_runs :
    (Engine.execCounted 1 forkShifted ⟨Graph.empty ∅ .default, [], ()⟩).any fun e =>
      (e.2.graph.inputLink? ⟨2⟩ 2).any fun l => l.originSlot = 0 &&
        (e.2.graph.inputData? ⟨2⟩ 2).any fun v => v.text = "7" := by
  decide +kernel

/-- The input that the second output fed still sees what was written there, and it is now what is at
the first. -/
theorem forkShifted_agrees : ∃ taken s l v,
    Engine.execCounted 1 forkShifted ⟨Graph.empty ∅ .default, [], ()⟩ = some (taken, s) ∧
    s.graph.inputLink? ⟨2⟩ 2 = some l ∧ s.graph.inputData? ⟨2⟩ 2 = some v ∧ v.text = "7" ∧
    l.originSlot = 0 ∧ s.graph.outputData? l.origin 0 = some v := by
  obtain ⟨⟨taken, s⟩, hrun, hfacts⟩ := (Option.any_eq_true _ _).1 forkShifted_runs
  obtain ⟨l, hl, hseen⟩ := (Option.any_eq_true _ _).1 hfacts
  rw [Bool.and_eq_true, decide_eq_true_eq] at hseen
  obtain ⟨v, hv, htext⟩ := (Option.any_eq_true _ _).1 hseen.2
  obtain ⟨-, hagree, -⟩ := Engine.consumers_agree Registry.fresh_empty (Catalog.obeys_plain ∅)
    Catalog.obeys_syncing .default [] () 1 (forkShifted_obeys ∅) hrun
  have hout := hagree ⟨2⟩ 2 l v hl hv
  rw [hseen.1] at hout
  exact ⟨taken, s, l, v, hrun, hl, hv, of_decide_eq_true htext, hseen.1, hout⟩

/-- Loads the snapshot that lists a link twice, in a batch that stays open, writes to the output that
the link leaves and takes another one away. -/
def strayed : Body Catalog Unit Bool := do
  Body.edit .beginBatch
  let _ ← Body.perform (.load repeatedSnapshot false)
  let _ ← Body.edit (.setOutputData ⟨1⟩ 2 (.int 7))
  Body.edit (.removeOutput ⟨1⟩ 0)

/-- The link that is listed twice moves by two places.  It still carries the value that was written,
but at the output that it leaves now nothing was written. -/
theorem strayed_cargo :
    (Engine.execCounted 1 strayed ⟨Graph.empty ∅ .default, [], ()⟩).any fun e =>
      (e.2.graph.inputLink? ⟨2⟩ 0).any fun l => l.origin = ⟨1⟩ && l.originSlot = 0 && l.data.isSome &&
        (e.2.graph.outputData? ⟨1⟩ 0).isNone && (e.2.graph.outputData? ⟨1⟩ 1).isSome := by
  decide +kernel

end Dataflow
