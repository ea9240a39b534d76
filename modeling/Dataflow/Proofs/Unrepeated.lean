/-
  An output lists each of its links once.

  Edits never enter a link twice at an output.  A load copies the lists of a snapshot as they are,
  and none of its passes looks for a link that stands there twice (`repeatedSnapshot_kept`).  If no
  list of the snapshot repeats a link (`Snapshot.Plain`), neither does any list of the graph, for
  what was recorded as two links is loaded as two.

  Bodies of any kind may run meanwhile.  The contract `plain` asks of them what is asked of everyone:
  new nodes name no links, and snapshots repeat none.  In return every graph they see is sound.

  The counter for links has 32 bits.  A call that takes it beyond does not return (`counted`), and
  no other run differs from what it is without that (`extends_execCounted`).

  When no link is listed twice, an event through an output is delivered at most once per link, and
  when an output is removed, the links behind it move by exactly one place.
-/

import Dataflow.Proofs.Agreement
import Dataflow.Proofs.Depth
import Dataflow.Proofs.Loading

namespace Dataflow

variable {B σ α : Type}

/-! ## Runs within the counter -/

namespace Engine

/-- A step that does not return if it takes the counter for links beyond its last value. -/
def counted (m : Act B σ α) : Act B σ α := fun s =>
  (m s).filter fun r => decide (r.2.graph.nextLink ≤ idLimit)

variable [Behavior B σ]

/-- Runs bodies whose calls keep within the counter for links. -/
def countedRunner : Nat → Runner B σ
  | 0 => fun _ _ => none
  | depth + 1 => fun body => body.run fun c => counted (perform (countedRunner depth) c)

/-- Runs a program whose calls keep within the counter for links. -/
def execCounted (depth : Nat) (p : Body B σ α) : Act B σ α :=
  p.run fun c => counted (perform (countedRunner depth) c)

omit [Behavior B σ] in
theorem extends_counted (m : Act B σ α) : Extends (counted m) m :=
  fun _ _ h => (Option.filter_eq_some_iff.1 h).1

theorem extends_countedRunner (depth : Nat) (body : Body B σ (Outcome B)) :
    Extends (countedRunner depth body) (runner depth body) := by
  induction depth generalizing body with
  | zero => exact .refl _
  | succ depth ih =>
    exact Body.extends_run (fun c => (extends_counted _).trans (extends_perform ih c)) body

/-- What a run within the counter answers is what the run answers. -/
theorem extends_execCounted (depth : Nat) (p : Body B σ α) :
    Extends (execCounted depth p) (exec depth p) :=
  Body.extends_run
    (fun c => (extends_counted _).trans (extends_perform (extends_countedRunner depth) c)) p

omit [Behavior B σ] in
/-- What holds after a step if the counter has not run over. -/
theorem ensures_counted {m : Act B σ α} {s : Session B σ} {Q : α → Session B σ → Prop}
    (h : Ensures m s fun a s' => s'.graph.nextLink ≤ idLimit → Q a s') :
    Ensures (counted m) s Q := by
  intro a s' hr
  obtain ⟨hm, hcount⟩ := Option.filter_eq_some_iff.1 hr
  exact h a s' hm (of_decide_eq_true hcount)

/-- A contract that calls abide by as long as they keep within the counter is kept by every program
that obeys it, and by all bodies it runs. -/
theorem keeps_execCounted {K : Contract B}
    (hK : ∀ run : Runner B σ, (∀ b id task, Keeps K.keeps (run (Behavior.body b id task))) →
      K.Honoured fun c => counted (perform run c))
    (hb : ∀ b id task, (Behavior.body b id task : Body B σ (Outcome B)).Obeys K)
    {p : Body B σ α} (hp : p.Obeys K) (depth : Nat) : Keeps K.keeps (execCounted depth p) := by
  have hrun : ∀ depth, K.Honoured fun c => counted (perform (countedRunner (B := B) depth) c) := by
    intro depth
    induction depth with
    | zero =>
      -- at depth zero no body runs to its end
      apply hK
      intro b id task s hs a s' hr
      cases hr
    | succ depth ih =>
      apply hK
      intro b id task
      exact Body.keeps_run ih (hb b id task)
  exact Body.keeps_run (hrun depth) hp

end Engine

/-! ## The contract -/

/-- A call by which no output comes to list a link twice. -/
def Call.Unrepeating : Call B → Prop
  | .add n => n.Loose
  | .load snapshot _ => snapshot.Plain
  | _ => True

/-- Bodies add loose nodes only, load plain snapshots only, and see sound graphs over given types. -/
def plain (r : Registry B) : Contract B := ⟨Graph.Sound r, Call.Unrepeating, Call.HandsOutLoose r⟩

theorem steady_sound (r : Registry B) : Steady (Graph.Sound r) where
  frame _ _ h _ hg := hg.of_wiring (Graph.wiring_of_skeleton h)
  update g hg := hg.of_wiring g.wiring_updateOrder

/-! ## Adding and loading -/

/-- Placed nodes are waiting for records that repeat no link. -/
def Engine.Placing.Plain (p : Placing) : Prop := ∀ e ∈ p.placed, e.2.Plain

namespace Session

/-- Once the nodes of a snapshot were added, the rest of a load leaves a sound graph. -/
theorem sound_settleLoad [Kind B] {r : Registry B} {s : Session B σ} (hs : s.graph.Sound r)
    {p : Engine.Placing} (hp : p.Plain) (snapshot : Snapshot) :
    (s.settleLoad snapshot p.placed p.nodes p.report).2.graph.Sound r := by
  obtain ⟨told, htold, heq⟩ := s.settleLoad_eq snapshot p.placed p.nodes p.report
  rw [heq]
  let load := s.graph.mergeLinks p.nodes snapshot.links
  let merged : Graph B := { load.graph with nextLink := max load.graph.nextLink snapshot.nextLink }
  let adopted := merged.adopted load.table p.placed
  let mended := (adopted.repair (p.report.prunedLinks ++ load.pruned)).graph
  have hload : load.InOrder s.graph := hs.toOrderly.inOrder p.nodes snapshot.links
  have hadopted : adopted.Orderly r := (hs.toOrderly.merged hload _).adopted hload.injective hp
  have hmended : mended.Sound r :=
    ⟨adopted.joined_repair _, (adopted.mends_repair _).orderly hadopted⟩
  have htoldSound : told.graph.Sound r := hmended.of_wiring (Graph.wiring_of_skeleton htold.skeleton)
  obtain ⟨hw, -⟩ := told.finishLoad_spec snapshot
  refine (htoldSound.raised snapshot.nextNode).of_wiring ?_
  show (told.finishLoad snapshot).graph.wiring = _
  rw [hw]
  rfl

end Session

namespace Engine

variable [Behavior B σ] {r : Registry B} {run : Runner B σ}

section Runs

variable (hrun : ∀ b id task, Keeps (Graph.Sound r) (run (Behavior.body b id task)))
include hrun

theorem sound_insertNode {n : Node B} (hi : ∀ s ∈ n.inputs, s.link = none)
    (ho : ∀ s ∈ n.outputs, s.links = []) (refresh : Bool) :
    Keeps (Graph.Sound r) (insertNode run n refresh) := by
  intro s hs
  have hplaced := hs.place hi ho (s.graph.claimNode_fresh n.id)
  refine (insertNode_spec (aloof_of_steady (steady_sound r)) refresh hplaced
    fun b _ => hrun b _ .added).mono ?_
  rintro answer s' (⟨-, -, rfl⟩ | ⟨-, -, t, ht, hs'⟩)
  · exact hs
  · rw [hs']
    have hm : t.markStale.graph.Sound r := ht.of_wiring (Session.wiring_markStale t)
    cases refresh with
    | false => exact hm
    | true => exact hm.of_wiring (Session.wiring_refresh t.markStale)

theorem sound_placeAll (hr : r.Fresh) {records : List NodeRecord}
    (hplain : ∀ record ∈ records, record.Plain) {p : Placing} (hp : p.Plain) {s : Session B σ}
    (hs : s.graph.Sound r) : Ensures (placeAll run records p) s fun p' s' =>
      p'.Plain ∧ s'.graph.Sound r := by
  induction records generalizing p s with
  | nil => exact Ensures.pure ⟨hp, hs⟩
  | cons record records ih =>
    have hrest : ∀ record ∈ records, record.Plain :=
      fun other h => hplain other (List.mem_cons_of_mem record h)
    obtain ⟨hi, ho⟩ := unlinked_madeOf (hs.registry.symm ▸ hr) record
    apply placeAll_step
    refine (sound_insertNode hrun (n := { (madeOf s.graph.registry record).1 with id := record.id })
      hi ho false s hs).mono fun answer s' hs' => ⟨?_, ?_⟩
    · intro id _
      refine ih hrest (fun e he => ?_) hs'
      rcases List.mem_append.1 he with he | he
      · exact hp e he
      · rw [List.mem_singleton.1 he]
        exact hplain record (List.mem_cons_self ..)
    · exact fun e _ => ih hrest (p := p.skip _) hp hs'

theorem sound_load (hr : r.Fresh) {snapshot : Snapshot} (hplain : snapshot.Plain) (keepOld : Bool) :
    Keeps (Graph.Sound r) (load run snapshot keepOld) := by
  intro s hs
  let start := if keepOld then s else s.clear
  let opened := (start.edit fun g =>
    { g with config := g.config.insertAll snapshot.config.entries }).beginBatch
  have hstart : start.graph.Sound r := by
    cases keepOld with
    | true => exact hs
    | false =>
      refine Edit.clear.upkeep_apply (Graph.upkeep_sound r) hs fun h => ?_
      exact absurd h (Nat.not_lt.2 hs.counted.linkStart)
  have hopened : opened.graph.Sound r := by
    refine hstart.of_wiring ?_
    rfl
  apply Ensures.modify_bind
  apply Ensures.bind
  refine (sound_placeAll hrun hr hplain (p := ⟨.clean, [], ∅⟩) (fun e he => nomatch he)
    hopened).mono ?_
  rintro p s' ⟨hp, hs'⟩
  exact Ensures.total (s'.sound_settleLoad hs' hp snapshot)

end Runs

/-- Calls abide by the contract, as long as they keep within the counter for links. -/
theorem honoured_plain (hr : r.Fresh)
    (hrun : ∀ b id task, Keeps (Graph.Sound r) (run (Behavior.body b id task))) :
    (plain r).Honoured fun c => counted (perform run c) := by
  intro c hc s hs
  have hI := steady_sound r
  apply ensures_counted
  cases c with
  | edit e =>
    apply Ensures.total
    intro hcount
    refine ⟨handsOutLoose_apply (Graph.upkeep_sound r) hs hs.registry e,
      e.upkeep_apply (Graph.upkeep_sound r) hs fun h => ?_⟩
    exact hs.linksBelow (Nat.lt_of_lt_of_le h hcount)
  | add n =>
    exact (sound_insertNode hrun hc.inputs hc.outputs true s hs).mono fun _ _ h _ => ⟨trivial, h⟩
  | load snapshot keepOld =>
    exact (sound_load hrun hr hc keepOld s hs).mono fun _ _ h _ => ⟨trivial, h⟩
  | _ => exact (keeps_perform hI hrun (by trivial) s hs).mono fun _ _ h _ => ⟨trivial, h⟩

/-- What a program that obeys the contract makes of an empty graph is sound. -/
theorem sound_execCounted (hr : r.Fresh)
    (hb : ∀ b id task, (Behavior.body b id task : Body B σ (Outcome B)).Obeys (plain r))
    (settings : Settings) (events : List (Event B)) (host : σ) (depth : Nat) {p : Body B σ α}
    (hp : p.Obeys (plain r)) {a : α} {s : Session B σ}
    (hrun : execCounted depth p ⟨Graph.empty r settings, events, host⟩ = some (a, s)) :
    s.graph.Sound r :=
  keeps_execCounted (fun _ hrun => honoured_plain hr hrun) hb hp depth
    ⟨Graph.empty r settings, events, host⟩ (Graph.sound_empty r settings) a s hrun

end Engine

theorem Registry.fresh_empty : (∅ : Registry B).Fresh := by
  intro type t ht
  cases ht

/-- The bodies of the catalog add nothing and load nothing. -/
theorem Catalog.obeys_plain (r : Registry Catalog) (b : Catalog) (id : NodeId) (task : Task) :
    (Behavior.body b id task : Body Catalog Unit (Outcome Catalog)).Obeys (plain r) :=
  Catalog.obeys_behavior (fun _ _ => trivial) (fun _ _ _ _ => trivial) b id task

/-! ## What follows -/

namespace Engine

variable [Behavior B σ]

/-- No more bodies run than there are links to deliver through. -/
theorem deliverAll_count (run : Runner B σ) (payload : Value) (ks : List LinkId) (count : Nat)
    (s : Session B σ) : Ensures (deliverAll run payload ks count) s fun answer _ =>
      ∀ n, answer = .ok n → n ≤ count + ks.length := by
  induction ks generalizing count s with
  | nil =>
    apply Ensures.pure
    intro n hn
    cases hn
    exact Nat.le_refl _
  | cons k ks ih =>
    apply Ensures.bind
    intro answer s' _
    cases answer with
    | error e =>
      apply Ensures.pure
      intro n hn
      cases hn
    | ok ran =>
      refine (ih (if ran then count + 1 else count) s').mono fun answer' _ h n hn => ?_
      have hle := h n hn
      rw [List.length_cons]
      split at hle <;> omega

/-- An event through an output is delivered through links that leave it, each of them once. -/
theorem triggerSlot_once (run : Runner B σ) {r : Registry B} {s : Session B σ}
    (hs : s.graph.Sound r) {id : NodeId} {slot : Nat} {o : Output}
    (ho : s.graph.output? id slot = some o) (payload : Value) (only : Option LinkId) :
    ∃ ks : List LinkId, ks.Nodup ∧ (∀ k ∈ ks, s.graph.Leaves k id slot) ∧
      triggerSlot run id slot payload only s = deliverAll run payload ks 0 s := by
  refine ⟨o.links.filter fun l => only.all (· = l), (hs.once id slot o ho).filter _, ?_, ?_⟩
  · intro k hk
    exact (hs.outputs id slot k).1 ⟨o, ho, List.mem_of_mem_filter hk⟩
  · obtain ⟨n, hn, hslot⟩ := Graph.node_of_output ho
    unfold triggerSlot
    rw [get_bind_apply, hn]
    dsimp only
    rw [hslot]

end Engine

/-- When an output is erased, the links behind it move down, also if the node is not there. -/
theorem Graph.Sound.links_eraseOutput {r : Registry B} {g : Graph B} (hg : g.Sound r) (id : NodeId)
    (slot : Nat) (k : LinkId) : (g.eraseOutput id slot).links.get? k = (g.links.get? k).map fun l =>
      if l.origin = id ∧ slot < l.originSlot then { l with originSlot := l.originSlot - 1 }
      else l := by
  cases hn : g.nodes.get? id with
  | some n =>
    obtain ⟨a, b, hc, -⟩ := hg.consistent
    have herase := Graph.get?_links_eraseOutput hc hn slot k
    rw [Graph.recount_eraseOutput] at herase
    exact herase
  | none =>
    unfold eraseOutput
    rw [hn]
    cases hl : g.links.get? k with
    | none => rfl
    | some l =>
      -- a link that leaves the node would leave an output of it
      have hne : l.origin ≠ id := by
        intro ho
        obtain ⟨s, hs, -⟩ := hg.origin_exists hl
        obtain ⟨n, hn', -⟩ := Graph.node_of_output hs
        rw [ho, hn] at hn'
        cases hn'
      rw [Option.map_some, if_neg fun h => hne h.1]

/-- An output lists the links that leave it. -/
theorem Graph.Sound.mem_links_iff {r : Registry B} {g : Graph B} (hg : g.Sound r) {id : NodeId}
    {slot : Nat} {o : Output} (ho : g.output? id slot = some o) {k : LinkId} {l : Link}
    (hl : g.links.get? k = some l) : k ∈ o.links ↔ l.origin = id ∧ l.originSlot = slot := by
  constructor
  · intro hk
    obtain ⟨l', hl', hends⟩ := hg.toJoined.of_output ho hk
    cases Option.some.inj (hl.symm.trans hl')
    exact hends
  · intro hends
    obtain ⟨o', ho', hk⟩ := (hg.outputs id slot k).2 ⟨l, hl, hends⟩
    cases Option.some.inj (ho.symm.trans ho')
    exact hk

namespace Session

variable [Kind B]

/-- The links that are left when some were broken. -/
theorem get?_links_without (ks : List LinkId) (s : Session B σ) (k : LinkId) :
    (ks.foldl unlink s).graph.wiring.links.get? k =
      if k ∈ ks then none else s.graph.wiring.links.get? k := by
  split
  · next hk => exact get?_links_unlinks hk s
  · next hk =>
    induction ks generalizing s with
    | nil => rfl
    | cons k' ks ih =>
      rw [List.mem_cons, not_or] at hk
      refine (ih (s.unlink k') hk.2).trans ?_
      rw [get?_links_unlink, if_neg hk.1]

/-- When an output is disconnected, its links are gone. -/
theorem ends_disconnectOutput {s : Session B σ} {id : NodeId} {slot : Nat} {o : Output}
    (ho : s.graph.output? id slot = some o) {k : LinkId} {l : Link}
    (hl : s.graph.links.get? k = some l) :
    ((s.disconnectOutput id slot none).2.graph.links.get? k).map Link.ends =
      if k ∈ o.links then none else some l.ends := by
  have hleaving : leaving s.graph id slot none = o.links := by
    unfold leaving
    rw [ho]
  rw [← Graph.get?_wiring_links, disconnectOutput_wiring, get?_links_without, hleaving,
    Graph.get?_wiring_links, hl]
  rfl

/-- When an output is removed, its links are gone, and those behind it move by one place. -/
theorem ends_removeOutput {r : Registry B} {s : Session B σ} (hs : s.graph.Sound r) {id : NodeId}
    {slot : Nat} {o : Output} (ho : s.graph.output? id slot = some o) {k : LinkId} {l : Link}
    (hl : s.graph.links.get? k = some l) :
    ((s.removeOutput id slot).2.graph.links.get? k).map Link.ends =
      if l.origin = id ∧ l.originSlot = slot then none
      else if l.origin = id ∧ slot < l.originSlot then
        some { l.ends with originSlot := l.originSlot - 1 }
      else some l.ends := by
  let cut := (s.beginBatch.disconnectOutput id slot none).2
  have hbatch : s.beginBatch.graph.Sound r := hs.of_wiring s.wiring_beginBatch
  have hcut : cut.graph.Sound r := upkeep_disconnectOutput (Graph.upkeep_sound r) hbatch id slot none
  have hmem := hs.mem_links_iff ho hl
  have hleft : (cut.graph.links.get? k).map Link.ends = if k ∈ o.links then none else some l.ends :=
    ends_disconnectOutput (s := s.beginBatch) ho hl
  have hafter : (s.removeOutput id slot).2.graph.wiring = (cut.graph.eraseOutput id slot).wiring := by
    unfold removeOutput
    rw [ho]
    exact wiring_endBatch (cut.edit fun g => (g.eraseOutput id slot).bump).markStale
  rw [← Graph.get?_wiring_links, hafter, Graph.get?_wiring_links, hcut.links_eraseOutput, Option.map_map]
  by_cases hk : k ∈ o.links
  · rw [if_pos hk] at hleft
    rw [if_pos (hmem.1 hk), Option.map_eq_none_iff.1 hleft]
    rfl
  · rw [if_neg hk] at hleft
    rw [if_neg (mt hmem.2 hk)]
    obtain ⟨l', hl', hends⟩ := Option.map_eq_some_iff.1 hleft
    have horigin : l'.origin = l.origin := congrArg Ends.origin hends
    have hslot : l'.originSlot = l.originSlot := congrArg Ends.originSlot hends
    rw [hl', Option.map_some, Function.comp_apply, horigin, hslot]
    split
    · show some { l'.ends with origin := l.origin, originSlot := l.originSlot - 1 } = _
      rw [hends]
      rfl
    · rw [hends]

end Session

/-- No output lists a link twice, whatever program has worked on the graph, if new nodes named no
links and snapshots repeated none.  So an event through an output is delivered at most once per link;
and when an output is removed, the links behind it move by one place, and no link by more. -/
theorem Engine.outputs_list_once [Behavior B σ] {r : Registry B} (hr : r.Fresh)
    (hb : ∀ b id task, (Behavior.body b id task : Body B σ (Outcome B)).Obeys (plain r))
    (settings : Settings) (events : List (Event B)) (host : σ) (depth : Nat) {p : Body B σ α}
    (hp : p.Obeys (plain r)) {a : α} {s : Session B σ}
    (hrun : execCounted depth p ⟨Graph.empty r settings, events, host⟩ = some (a, s)) :
    (∀ id slot o, s.graph.output? id slot = some o → o.links.Nodup) ∧
      (∀ (run : Runner B σ) id slot o payload only, s.graph.output? id slot = some o →
        ∃ ks : List LinkId, ks.Nodup ∧ (∀ k ∈ ks, s.graph.Leaves k id slot) ∧
          triggerSlot run id slot payload only s = deliverAll run payload ks 0 s ∧
          ∀ n t, triggerSlot run id slot payload only s = some (.ok n, t) → n ≤ ks.length) ∧
      ∀ id slot o k l, s.graph.output? id slot = some o → s.graph.links.get? k = some l →
        ((s.removeOutput id slot).2.graph.links.get? k).map Link.ends =
          if l.origin = id ∧ l.originSlot = slot then none
          else if l.origin = id ∧ slot < l.originSlot then
            some { l.ends with originSlot := l.originSlot - 1 }
          else some l.ends := by
  have hs : s.graph.Sound r := sound_execCounted hr hb settings events host depth hp hrun
  refine ⟨hs.once, fun run id slot o payload only ho => ?_, fun id slot o k l ho hl => ?_⟩
  · obtain ⟨ks, hks, hleave, heq⟩ := triggerSlot_once run hs ho payload only
    refine ⟨ks, hks, hleave, heq, fun n t hn => ?_⟩
    rw [heq] at hn
    have hcount := deliverAll_count run payload ks 0 s _ t hn n rfl
    rwa [Nat.zero_add] at hcount
  · exact Session.ends_removeOutput hs ho hl

/-- A snapshot in which two links leave one output of a node, and one leaves the next. -/
def forkSnapshot : Snapshot :=
  let source : NodeRecord :=
    { NodeRecord.new "source" with
      id := some ⟨1⟩
      outputs := some [⟨"first", .any, [⟨1⟩, ⟨2⟩], none, none⟩, ⟨"second", .any, [⟨3⟩], none, none⟩] }
  let sink : NodeRecord :=
    { NodeRecord.new "sink" with
      id := some ⟨2⟩
      inputs := some [⟨"a", .any, some ⟨1⟩, none⟩, ⟨"b", .any, some ⟨2⟩, none⟩,
        ⟨"c", .any, some ⟨3⟩, none⟩] }
  { nextNode := 3, nextLink := 4, nodes := [source, sink]
    links := [⟨⟨1⟩, ⟨1⟩, 0, ⟨2⟩, 0, .any⟩, ⟨⟨2⟩, ⟨1⟩, 0, ⟨2⟩, 1, .any⟩, ⟨⟨3⟩, ⟨1⟩, 1, ⟨2⟩, 2, .any⟩]
    groups := [], config := ∅ }

/-- Loads the fork, in a batch that stays open. -/
def forkLoaded : Body Catalog Unit LoadReport := do
  Body.edit .beginBatch
  Body.perform (.load forkSnapshot false)

theorem forkSnapshot_plain : forkSnapshot.Plain := by
  intro record hr outputs ho s hs
  simp only [forkSnapshot, NodeRecord.new, List.mem_cons, List.not_mem_nil, or_false] at hr
  rcases hr with rfl | rfl
  · cases ho
    rcases List.mem_cons.1 hs with rfl | hs
    · decide
    · rw [List.mem_singleton.1 hs]
      exact List.nodup_singleton _
  · cases ho

theorem forkLoaded_obeys (r : Registry Catalog) : forkLoaded.Obeys (plain r) :=
  ⟨trivial, fun _ _ => ⟨forkSnapshot_plain, fun _ _ => trivial⟩⟩

theorem forkLoaded_runs :
    (Engine.execCounted 1 forkLoaded ⟨Graph.empty ∅ .default, [], ()⟩).any fun e =>
      (e.2.graph.output? ⟨1⟩ 0).any (·.links = [⟨1⟩, ⟨2⟩]) &&
        (e.2.graph.links.get? ⟨3⟩).any fun l => l.origin = ⟨1⟩ && l.originSlot = 1 := by
  decide +kernel

/-- When the first output is removed, the link that leaves the second moves down by one place. -/
theorem forkLoaded_lists_once : ∃ report s o l,
    Engine.execCounted 1 forkLoaded ⟨Graph.empty ∅ .default, [], ()⟩ = some (report, s) ∧
    s.graph.output? ⟨1⟩ 0 = some o ∧ o.links = [⟨1⟩, ⟨2⟩] ∧ o.links.Nodup ∧
    s.graph.links.get? ⟨3⟩ = some l ∧ l.originSlot = 1 ∧
    ((s.removeOutput ⟨1⟩ 0).2.graph.links.get? ⟨3⟩).map Link.ends =
      some { l.ends with originSlot := 0 } := by
  obtain ⟨⟨report, s⟩, hrun, hfacts⟩ := (Option.any_eq_true _ _).1 forkLoaded_runs
  rw [Bool.and_eq_true] at hfacts
  obtain ⟨o, ho, hlinks⟩ := (Option.any_eq_true _ _).1 hfacts.1
  obtain ⟨l, hl, hends⟩ := (Option.any_eq_true _ _).1 hfacts.2
  rw [Bool.and_eq_true, decide_eq_true_eq, decide_eq_true_eq] at hends
  obtain ⟨hnodup, -, hmoved⟩ := Engine.outputs_list_once Registry.fresh_empty (Catalog.obeys_plain ∅)
    .default [] () 1 (forkLoaded_obeys ∅) hrun
  have hafter := hmoved ⟨1⟩ 0 o ⟨3⟩ l ho hl
  have hbehind : 0 < l.originSlot := by omega
  rw [if_neg fun h => absurd h.2 (Nat.ne_of_gt hbehind), if_pos ⟨hends.1, hbehind⟩, hends.2] at hafter
  exact ⟨report, s, o, l, hrun, ho, of_decide_eq_true hlinks, hnodup ⟨1⟩ 0 o ho, hl, hends.2, hafter⟩

/-- A snapshot in which the third output of a node lists its only link twice. -/
def repeatedSnapshot : Snapshot :=
  let source : NodeRecord :=
    { NodeRecord.new "source" with
      id := some ⟨1⟩
      outputs := some [⟨"first", .any, [], none, none⟩, ⟨"second", .any, [], none, none⟩,
        ⟨"third", .any, [⟨1⟩, ⟨1⟩], none, none⟩] }
  let sink : NodeRecord :=
    { NodeRecord.new "sink" with id := some ⟨2⟩, inputs := some [⟨"in", .any, some ⟨1⟩, none⟩] }
  { nextNode := 3, nextLink := 2, nodes := [source, sink]
    links := [⟨⟨1⟩, ⟨1⟩, 2, ⟨2⟩, 0, .any⟩], groups := [], config := ∅ }

/-- A link that a snapshot lists twice is listed twice when the snapshot was loaded, and moves by two
places when an output in front of it is removed. -/
theorem repeatedSnapshot_kept :
    ((Engine.execCounted 1 (Body.perform (.load repeatedSnapshot true))
        (⟨Graph.empty ∅ .default, [], ()⟩ : Session Catalog Unit).beginBatch).map fun e =>
      ((e.2.graph.output? ⟨1⟩ 2).map Output.links, (e.2.graph.links.get? ⟨1⟩).map Link.originSlot,
        ((e.2.removeOutput ⟨1⟩ 0).2.graph.links.get? ⟨1⟩).map Link.originSlot)) =
      some (some [⟨1⟩, ⟨1⟩], some 2, some 0) := by
  decide +kernel

end Dataflow
