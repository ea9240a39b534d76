/-
  Loading repairs whatever it loaded.

  Nothing is assumed of the graph that is repaired: links may lead nowhere, slots may name links
  that do not exist or belong elsewhere.  The first pass looks at every link once.  One that cannot
  stand is dropped, any other is entered at both ends, and what was entered stays so: later steps
  fill free inputs and extend outputs, but never take anything from a slot.  So after that pass
  every link that is left stands (`stands_settled`).

  The other passes only let slots forget.  The last one makes every slot forget what does not end
  there, and keeps what does.  So in the end slots and links agree, from whatever they came.

  A load comes to its end if the bodies that run when its nodes are added do, as those of the
  catalog do.
-/

import Dataflow.Proofs.Slots
import Dataflow.Proofs.Standard

namespace Dataflow

variable {B σ α : Type}

namespace Graph

/-! ## Links that stand -/

/-- A link joins two nodes at slots that name it. -/
structure Stands (g : Graph B) (k : LinkId) (l : Link) : Prop where
  apart : l.origin ≠ l.target
  held : g.Holds l.target l.targetSlot k
  listed : g.Lists l.origin l.originSlot k

/-- No slot of a graph has lost a link that another graph names there. -/
structure Retains (g' g : Graph B) : Prop where
  inputs : ∀ id slot k, g.Holds id slot k → g'.Holds id slot k
  outputs : ∀ id slot k, g.Lists id slot k → g'.Lists id slot k

theorem Retains.refl (g : Graph B) : g.Retains g := ⟨fun _ _ _ h => h, fun _ _ _ h => h⟩

theorem Retains.trans {g g' g'' : Graph B} (h : g''.Retains g') (h' : g'.Retains g) :
    g''.Retains g where
  inputs id slot k hk := h.inputs id slot k (h'.inputs id slot k hk)
  outputs id slot k hk := h.outputs id slot k (h'.outputs id slot k hk)

theorem Stands.retained {g g' : Graph B} {k : LinkId} {l : Link} (h : g.Stands k l)
    (hr : g'.Retains g) : g'.Stands k l :=
  ⟨h.apart, hr.inputs _ _ _ h.held, hr.outputs _ _ _ h.listed⟩

/-! ## The first pass -/

section Enter

variable (g : Graph B) (k : LinkId) (l : Link)

theorem input?_enter (id : NodeId) (slot : Nat) :
    (g.enter k l).input? id slot = (g.input? id slot).map fun s =>
      if id = l.target ∧ slot = l.targetSlot then { s with link := some (s.link.getD k) } else s := by
  unfold enter
  rw [input?_modifyOutput, input?_modifyInput]

theorem output?_enter (id : NodeId) (slot : Nat) :
    (g.enter k l).output? id slot = (g.output? id slot).map fun s =>
      if id = l.origin ∧ slot = l.originSlot then
        if k ∈ s.links then s else { s with links := s.links ++ [k] }
      else s := by
  unfold enter
  rw [output?_modifyOutput, output?_modifyInput]

/-- Entering a link takes nothing from a slot. -/
theorem enter_retains : (g.enter k l).Retains g where
  inputs id slot i := by
    rintro ⟨s, hs, hi⟩
    unfold Holds
    rw [input?_enter, hs]
    refine ⟨_, rfl, ?_⟩
    split
    · show some (s.link.getD k) = some i
      rw [hi]
      rfl
    · exact hi
  outputs id slot i := by
    rintro ⟨s, hs, hi⟩
    unfold Lists
    rw [output?_enter, hs]
    refine ⟨_, rfl, ?_⟩
    show i ∈ (ite _ (ite _ _ _) _ : Output).links
    split
    · split
      · exact hi
      · exact List.mem_append_left _ hi
    · exact hi

/-- What an input names after a link was entered it named before, or it is where the link ends. -/
theorem holds_enter {id : NodeId} {slot : Nat} {i : LinkId} (h : (g.enter k l).Holds id slot i) :
    g.Holds id slot i ∨ i = k ∧ id = l.target ∧ slot = l.targetSlot := by
  obtain ⟨s', hs', hi⟩ := h
  rw [input?_enter] at hs'
  obtain ⟨s, hs, rfl⟩ := Option.map_eq_some_iff.1 hs'
  by_cases hat : id = l.target ∧ slot = l.targetSlot
  · rw [if_pos hat] at hi
    change some (s.link.getD k) = some i at hi
    cases hlink : s.link with
    | none =>
      rw [hlink] at hi
      exact .inr ⟨(Option.some.inj hi).symm, hat⟩
    | some j =>
      rw [hlink] at hi
      exact .inl ⟨s, hs, hlink.trans hi⟩
  · rw [if_neg hat] at hi
    exact .inl ⟨s, hs, hi⟩

/-- A link that can stand does so once it is entered. -/
theorem stands_enter (h : g.canStand k l = true) : (g.enter k l).Stands k l := by
  unfold canStand at h
  rw [Bool.and_eq_true, Bool.and_eq_true] at h
  obtain ⟨⟨ho, hi⟩, hne⟩ := h
  obtain ⟨o, ho⟩ := Option.isSome_iff_exists.1 ho
  constructor
  · exact of_decide_eq_true hne
  · unfold Holds
    rw [input?_enter]
    cases hs : g.input? l.target l.targetSlot with
    | none =>
      rw [hs] at hi
      cases hi
    | some s =>
      rw [hs] at hi
      refine ⟨_, rfl, ?_⟩
      show (ite (l.target = l.target ∧ l.targetSlot = l.targetSlot) _ _ : Input).link = some k
      rw [if_pos ⟨rfl, rfl⟩]
      show some (s.link.getD k) = some k
      -- the input is free or names the link already
      cases hk : s.link with
      | none => rfl
      | some i =>
        rw [Option.any_some, hk, Option.all_some] at hi
        exact congrArg some (of_decide_eq_true hi)
  · unfold Lists
    rw [output?_enter, ho]
    refine ⟨_, rfl, ?_⟩
    show k ∈ (ite (l.origin = l.origin ∧ l.originSlot = l.originSlot) (ite _ _ _) _ : Output).links
    rw [if_pos ⟨rfl, rfl⟩]
    split
    · assumption
    · exact List.mem_append_right _ (List.mem_singleton.2 rfl)

end Enter

/-- A step of the first pass keeps what slots name, makes no link, and leaves its link standing if
it leaves it. -/
theorem settle_spec (r : Repair B) (k : LinkId) :
    (settle r k).graph.Retains r.graph ∧
      (∀ i l, (settle r k).graph.links.get? i = some l → r.graph.links.get? i = some l) ∧
      ∀ l, (settle r k).graph.links.get? k = some l → (settle r k).graph.Stands k l := by
  unfold settle
  cases hl : r.graph.links.get? k with
  | none =>
    refine ⟨.refl _, fun _ _ h => h, fun l h => ?_⟩
    rw [hl] at h
    cases h
  | some l =>
    simp only
    split
    · next hc =>
      refine ⟨enter_retains r.graph k l, fun _ _ h => h, fun l' h => ?_⟩
      change r.graph.links.get? k = some l' at h
      rw [hl] at h
      cases h
      exact stands_enter r.graph k l hc
    · -- dropping a link leaves the slots alone
      refine ⟨⟨fun _ _ _ h => h, fun _ _ _ h => h⟩, fun i l' h => ?_, fun l' h => ?_⟩
      · exact Assoc.get?_of_get?_erase h
      · change (r.graph.links.erase k).get? k = some l' at h
        rw [Assoc.get?_erase, if_pos rfl] at h
        cases h

/-- After the first pass over some links, those of them that are left stand, and so do those that
stood before. -/
theorem settles_spec (ks : List LinkId) (r : Repair B) :
    (ks.foldl settle r).graph.Retains r.graph ∧
      (∀ i l, (ks.foldl settle r).graph.links.get? i = some l → r.graph.links.get? i = some l) ∧
      ∀ k ∈ ks, ∀ l, (ks.foldl settle r).graph.links.get? k = some l →
        (ks.foldl settle r).graph.Stands k l := by
  induction ks generalizing r with
  | nil => exact ⟨.refl _, fun _ _ h => h, fun _ h => by cases h⟩
  | cons k ks ih =>
    obtain ⟨hr, hl, hk⟩ := settle_spec r k
    obtain ⟨hr', hl', hks⟩ := ih (settle r k)
    refine ⟨hr'.trans hr, fun i l h => hl i l (hl' i l h), fun i hi l h => ?_⟩
    rcases List.mem_cons.1 hi with rfl | hi
    · exact (hk l (hl' _ l h)).retained hr'
    · exact hks i hi l h

theorem stands_settled (g : Graph B) (pruned : List LinkId) {k : LinkId} {l : Link}
    (h : (g.links.keys.foldl settle ⟨g, pruned, false⟩).graph.links.get? k = some l) :
    (g.links.keys.foldl settle ⟨g, pruned, false⟩).graph.Stands k l := by
  obtain ⟨-, hl, hk⟩ := settles_spec g.links.keys ⟨g, pruned, false⟩
  exact hk k (Assoc.mem_keys_of_get? (hl k l h)) l h

/-! ## The passes in which slots forget -/

/-- What an input names after forgetting is what it makes of the link that it named before. -/
theorem exists_relinked_input (o : Option Input) (f : LinkId → Option LinkId) (k : LinkId) :
    (∃ s, o.map (fun s => { s with link := s.link.bind f }) = some s ∧ s.link = some k) ↔
      ∃ i, (∃ s, o = some s ∧ s.link = some i) ∧ f i = some k := by
  constructor
  · rintro ⟨s', hs', hk⟩
    obtain ⟨s, hs, rfl⟩ := Option.map_eq_some_iff.1 hs'
    obtain ⟨i, hi, hf⟩ := Option.bind_eq_some_iff.1 hk
    exact ⟨i, ⟨s, hs, hi⟩, hf⟩
  · rintro ⟨i, ⟨s, rfl, hi⟩, hf⟩
    exact ⟨_, rfl, Option.bind_eq_some_iff.2 ⟨i, hi, hf⟩⟩

/-- What an output names after forgetting is what it makes of the links that it named before. -/
theorem exists_relinked_output (o : Option Output) (f : LinkId → Option LinkId) (k : LinkId) :
    (∃ s, o.map (fun s => { s with links := s.links.filterMap f }) = some s ∧ k ∈ s.links) ↔
      ∃ i, (∃ s, o = some s ∧ i ∈ s.links) ∧ f i = some k := by
  constructor
  · rintro ⟨s', hs', hk⟩
    obtain ⟨s, hs, rfl⟩ := Option.map_eq_some_iff.1 hs'
    obtain ⟨i, hi, hf⟩ := List.mem_filterMap.1 hk
    exact ⟨i, ⟨s, hs, hi⟩, hf⟩
  · rintro ⟨i, ⟨s, rfl, hi⟩, hf⟩
    exact ⟨_, rfl, List.mem_filterMap.2 ⟨i, hi, hf⟩⟩

section Relink

variable (g : Graph B) (f : NodeId → Direction → Nat → LinkId → Option LinkId)

theorem input?_relinkAll (id : NodeId) (slot : Nat) :
    (g.relinkAll f).input? id slot =
      (g.input? id slot).map fun s => { s with link := s.link.bind (f id .input slot) } := by
  show ((g.nodes.mapValues _).get? id).bind _ = ((g.nodes.get? id).bind _).map _
  rw [Assoc.get?_mapValues]
  cases g.nodes.get? id with
  | none => rfl
  | some n => exact List.getElem?_mapIdx

theorem output?_relinkAll (id : NodeId) (slot : Nat) :
    (g.relinkAll f).output? id slot =
      (g.output? id slot).map fun s => { s with links := s.links.filterMap (f id .output slot) } := by
  show ((g.nodes.mapValues _).get? id).bind _ = ((g.nodes.get? id).bind _).map _
  rw [Assoc.get?_mapValues]
  cases g.nodes.get? id with
  | none => rfl
  | some n => exact List.getElem?_mapIdx

/-- What an input names after forgetting it named before. -/
theorem holds_relinkAll (id : NodeId) (slot : Nat) (k : LinkId) :
    (g.relinkAll f).Holds id slot k ↔ ∃ i, g.Holds id slot i ∧ f id .input slot i = some k := by
  unfold Holds
  rw [input?_relinkAll]
  exact exists_relinked_input ..

theorem lists_relinkAll (id : NodeId) (slot : Nat) (k : LinkId) :
    (g.relinkAll f).Lists id slot k ↔ ∃ i, g.Lists id slot i ∧ f id .output slot i = some k := by
  unfold Lists
  rw [output?_relinkAll]
  exact exists_relinked_output ..

end Relink

section Owned

variable (g : Graph B)

theorem live_eq_some {id : NodeId} {d : Direction} {slot : Nat} {i k : LinkId} :
    g.live id d slot i = some k ↔ i = k ∧ (g.links.get? k).isSome := by
  unfold live
  rw [Assoc.contains_eq_isSome]
  constructor
  · intro h
    split at h
    · next hc =>
      cases h
      exact ⟨rfl, hc⟩
    · cases h
  · rintro ⟨rfl, hc⟩
    exact if_pos hc

theorem owned_eq_some {id : NodeId} {d : Direction} {slot : Nat} {i k : LinkId} :
    g.owned id d slot i = some k ↔
      i = k ∧ ∃ l, g.links.get? k = some l ∧ endsAt l id d slot = true := by
  unfold owned
  constructor
  · intro h
    split at h
    · next hc =>
      cases h
      refine ⟨rfl, ?_⟩
      cases hl : g.links.get? i with
      | none =>
        rw [hl] at hc
        cases hc
      | some l =>
        rw [hl] at hc
        exact ⟨l, rfl, hc⟩
    · cases h
  · rintro ⟨rfl, l, hl, he⟩
    rw [hl]
    exact if_pos he

end Owned

/-- If all links of a graph stand, slots and links agree once slots have forgotten the links that
do not end there. -/
theorem joined_relink {g : Graph B} (hg : ∀ k l, g.links.get? k = some l → g.Stands k l) :
    ((g.relinkAll g.live).relinkAll (g.relinkAll g.live).owned).Joined where
  apart k l hl := (hg k l hl).apart
  inputs id slot k := by
    rw [holds_relinkAll]
    constructor
    · -- what a slot did not forget is a link that ends there
      rintro ⟨i, -, ho⟩
      obtain ⟨rfl, l, hl, he⟩ := (owned_eq_some _).1 ho
      obtain ⟨ht, hs⟩ := Bool.and_eq_true_iff.1 he
      exact ⟨l, hl, of_decide_eq_true ht, of_decide_eq_true hs⟩
    · -- a link that stands is named at its ends, where no slot forgets it
      rintro ⟨l, hl, rfl, rfl⟩
      refine ⟨k, (holds_relinkAll ..).2 ⟨k, (hg k l hl).held, ?_⟩, ?_⟩
      · exact (live_eq_some g).2 ⟨rfl, Option.isSome_of_eq_some hl⟩
      · refine (owned_eq_some _).2 ⟨rfl, l, hl, Bool.and_eq_true_iff.2 ⟨?_, ?_⟩⟩
        · exact decide_eq_true rfl
        · exact decide_eq_true rfl
  outputs id slot k := by
    rw [lists_relinkAll]
    constructor
    · rintro ⟨i, -, ho⟩
      obtain ⟨rfl, l, hl, he⟩ := (owned_eq_some _).1 ho
      obtain ⟨ht, hs⟩ := Bool.and_eq_true_iff.1 he
      exact ⟨l, hl, of_decide_eq_true ht, of_decide_eq_true hs⟩
    · rintro ⟨l, hl, rfl, rfl⟩
      refine ⟨k, (lists_relinkAll ..).2 ⟨k, (hg k l hl).listed, ?_⟩, ?_⟩
      · exact (live_eq_some g).2 ⟨rfl, Option.isSome_of_eq_some hl⟩
      · refine (owned_eq_some _).2 ⟨rfl, l, hl, Bool.and_eq_true_iff.2 ⟨?_, ?_⟩⟩
        · exact decide_eq_true rfl
        · exact decide_eq_true rfl

/-- Repairing makes slots and links agree, whatever the graph was like. -/
theorem joined_repair (g : Graph B) (pruned : List LinkId) : (g.repair pruned).graph.Joined :=
  joined_relink fun _ _ hl => stands_settled g pruned hl

end Graph

/-! ## Loading -/

namespace Session

variable [Kind B]

theorem skeleton_introduceAll (placed : List (NodeId × NodeRecord)) (s : Session B σ) :
    (placed.foldl (fun s e => s.introduce e.1 e.2) s).graph.skeleton = s.graph.skeleton := by
  induction placed generalizing s with
  | nil => rfl
  | cons e placed ih => exact (ih _).trans (skeleton_introduce s e.1 e.2)

/-- After the repair a load changes neither slots nor links any more. -/
theorem joined_finish {s : Session B σ} (hs : s.graph.Joined) (snapshot : Snapshot)
    (placed : List (NodeId × NodeRecord)) :
    ((((placed.foldl (fun s e => s.introduce e.1 e.2) s).edit fun g => { g with
      groups := snapshot.groups
      nextNode := max g.nextNode snapshot.nextNode }).markStale.endBatch).restructure
        id).graph.Joined := by
  have hi : (placed.foldl (fun s e => s.introduce e.1 e.2) s).graph.Joined :=
    hs.of_wiring (Graph.wiring_of_skeleton (skeleton_introduceAll placed s))
  revert hi
  generalize placed.foldl (fun s e => s.introduce e.1 e.2) s = s'
  intro hi
  have hn : (s'.edit fun g => { g with
      groups := snapshot.groups
      nextNode := max g.nextNode snapshot.nextNode }).graph.Joined := ⟨hi.apart, hi.inputs, hi.outputs⟩
  exact hn.of_wiring ((wiring_endBatch (markStale _)).trans (wiring_markStale _))

theorem joined_settleLoad (s : Session B σ) (snapshot : Snapshot)
    (placed : List (NodeId × NodeRecord)) (nodes : Renaming NodeId) (report : LoadReport) :
    (s.settleLoad snapshot placed nodes report).2.graph.Joined := by
  unfold settleLoad
  extract_lets load _ merged
  generalize placed.foldl _ (false, merged) = adopted
  let repair := adopted.2.graph.repair (report.prunedLinks ++ load.pruned)
  have hr : (adopted.2.edit fun _ => repair.graph).graph.Joined := Graph.joined_repair ..
  exact joined_finish hr snapshot placed

end Session

/-! ## A load answers -/

namespace Engine

variable [Behavior B σ] {run : Runner B σ}
  (hrun : ∀ b id, Answers (run (Behavior.body b id .added)))
include hrun

theorem answers_insertNode (n : Node B) (refresh : Bool) : Answers (insertNode run n refresh) := by
  have henter : ∀ id, Answers (enter run id .added) := by
    intro id
    refine (Answers.total _).bind fun s => ?_
    cases s.graph.behavior? id with
    | none => exact .pure _
    | some b =>
      refine (Answers.total _).bind fun _ => (hrun b id).bind fun out => ?_
      exact (Answers.total _).bind fun _ => .pure _
  refine (Answers.total _).bind fun s => ?_
  show Answers (ite _ _ _)
  split
  · exact .pure _
  · refine (Answers.total _).bind fun _ => (henter _).bind fun _ => ?_
    exact (Answers.total _).bind fun _ => .pure _

theorem answers_placeAll (records : List NodeRecord) (p : Placing) :
    Answers (placeAll run records p) := by
  induction records generalizing p with
  | nil => exact .pure _
  | cons r records ih =>
    refine (Answers.total _).bind fun s => ?_
    refine (answers_insertNode hrun _ false).bind fun answer => ?_
    cases answer with
    | error e => exact ih _
    | ok id => exact ih _

theorem answers_load (snapshot : Snapshot) (keepOld : Bool) : Answers (load run snapshot keepOld) :=
  (Answers.total _).bind fun _ =>
    (answers_placeAll hrun snapshot.nodes _).bind fun _ => Answers.total _

end Engine

/-- Bodies may edit the graph and do nothing else to it. -/
def editing (B : Type) : Contract B := ⟨fun _ => True, fun c => ∃ e, c = .edit e, fun _ _ => True⟩

/-- A body that only edits answers. -/
theorem Body.answers_run [Behavior B σ] {run : Runner B σ} {p : Body B σ α}
    (hp : p.Obeys (editing B)) : Answers (p.run (Engine.perform run)) := by
  induction p with
  | done a => exact .pure a
  | look next ih => exact (Answers.total _).bind fun s => ih _ _ (hp _ _ trivial)
  | keep change next ih => exact (Answers.total _).bind fun _ => ih hp
  | note remark next ih => exact (Answers.total _).bind fun _ => ih hp
  | call c next ih =>
    obtain ⟨⟨e, rfl⟩, hnext⟩ := hp
    exact (Answers.total e.apply).bind fun a => ih a (hnext a trivial)

/-- When a standard node is added, it only edits. -/
theorem Catalog.answers_added (depth : Nat) (b : Catalog) (id : NodeId) :
    Answers (Engine.runner (depth + 1) (Behavior.body b id .added)) :=
  Body.answers_run (obeys_added b fun e _ => ⟨e, rfl⟩)

/-- A load answers if the bodies of the nodes it adds do.  After it slots and links agree, whatever
the snapshot, the graph before, and those bodies. -/
theorem Engine.joined_load [Behavior B σ] (run : Runner B σ) (snapshot : Snapshot) (keepOld : Bool)
    (s : Session B σ) :
    ((∀ b id, Answers (run (Behavior.body b id .added))) →
        ∃ report s', Engine.load run snapshot keepOld s = some (report, s')) ∧
      ∀ report s', Engine.load run snapshot keepOld s = some (report, s') → s'.graph.Joined := by
  constructor
  · intro hrun
    exact Engine.answers_load hrun snapshot keepOld s
  · show Ensures (Engine.load run snapshot keepOld) s fun _ s' => s'.graph.Joined
    apply Ensures.modify_bind
    apply Ensures.bind
    intro p t _
    exact Ensures.total (Session.joined_settleLoad t snapshot p.placed p.nodes p.report)

/-- A snapshot in which hardly anything fits: a slot names a link that is not there, another names
one twice, one link returns to its own node, and one leads to a node that was not recorded. -/
def brokenSnapshot : Snapshot :=
  let first : NodeRecord :=
    { NodeRecord.new "ghost" with
      id := some ⟨1⟩, inputs := some [⟨"in", .any, some ⟨5⟩, none⟩]
      outputs := some [⟨"out", .any, [⟨7⟩, ⟨7⟩], none, none⟩] }
  let second : NodeRecord :=
    { NodeRecord.new "ghost" with id := some ⟨2⟩, inputs := some [⟨"in", .any, none, none⟩] }
  { nextNode := 1, nextLink := 1, nodes := [first, second]
    links := [⟨⟨7⟩, ⟨1⟩, 0, ⟨1⟩, 0, .any⟩, ⟨⟨8⟩, ⟨1⟩, 0, ⟨2⟩, 0, .any⟩,
      ⟨⟨9⟩, ⟨1⟩, 0, ⟨3⟩, 0, .any⟩]
    groups := [], config := ∅ }

theorem brokenSnapshot_repaired : ∃ report s',
    Engine.load (Engine.runner 1) brokenSnapshot false
      (⟨Graph.empty ∅ .default, [], ()⟩ : Session Catalog Unit) = some (report, s') ∧
    report.prunedLinks = [⟨9⟩, ⟨7⟩] ∧ s'.graph.Joined := by
  obtain ⟨hends, hjoined⟩ := Engine.joined_load (Engine.runner 1) brokenSnapshot false
    (⟨Graph.empty ∅ .default, [], ()⟩ : Session Catalog Unit)
  obtain ⟨report, s', h⟩ := hends (Catalog.answers_added 0)
  have hp : (Engine.load (Engine.runner 1) brokenSnapshot false
      (⟨Graph.empty ∅ .default, [], ()⟩ : Session Catalog Unit)).map (·.1.prunedLinks) =
        some [⟨9⟩, ⟨7⟩] := rfl
  rw [h] at hp
  exact ⟨report, s', h, Option.some.inj hp, hjoined report s' h⟩

end Dataflow
