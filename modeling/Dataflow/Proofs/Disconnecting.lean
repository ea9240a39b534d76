/-
  What the operations on links do to a session.

  Edits change links and nodes in a few steps only.  A property of graphs that survives these steps
  (`Upkeep`) survives the operations built from them, here those that make and break links; the
  ways in which slots and links can agree are such properties.

  The operations that break links say besides which links are left: never a new one (`Within`), and
  none at the slots that were cleared.  Removing a node or a slot relies on that.
-/

import Dataflow.Proofs.Linking

namespace Dataflow

variable {B σ : Type}

namespace Graph

/-! ## Fewer links -/

/-- Every link of a graph is a link of another one, between the same slots. -/
def Within (g' g : Graph B) : Prop :=
  ∀ k e, g'.wiring.links.get? k = some e → g.wiring.links.get? k = some e

theorem Within.refl (g : Graph B) : g.Within g := fun _ _ he => he

theorem Within.of_wiring {g g' : Graph B} (h : g'.wiring = g.wiring) : g'.Within g :=
  fun _ _ he => h ▸ he

theorem Within.trans {g g' g'' : Graph B} (h : g''.Within g') (h' : g'.Within g) : g''.Within g :=
  fun k e he => h' k e (h k e he)

/-- What is asked of the ends of a link may be asked of the wiring. -/
theorem exists_link_iff_wiring (g : Graph B) (k : LinkId) (P : Ends → Prop) :
    (∃ l, g.links.get? k = some l ∧ P l.ends) ↔ ∃ e, g.wiring.links.get? k = some e ∧ P e := by
  rw [get?_wiring_links]
  constructor
  · rintro ⟨l, hl, hp⟩
    exact ⟨l.ends, by rw [hl]; rfl, hp⟩
  · rintro ⟨e, he, hp⟩
    obtain ⟨l, hl, rfl⟩ := Option.map_eq_some_iff.1 he
    exact ⟨l, hl, hp⟩

theorem arrives_iff_wiring (g : Graph B) (k : LinkId) (id : NodeId) (slot : Nat) :
    g.Arrives k id slot ↔
      ∃ e, g.wiring.links.get? k = some e ∧ e.target = id ∧ e.targetSlot = slot :=
  g.exists_link_iff_wiring k fun e => e.target = id ∧ e.targetSlot = slot

theorem leaves_iff_wiring (g : Graph B) (k : LinkId) (id : NodeId) (slot : Nat) :
    g.Leaves k id slot ↔
      ∃ e, g.wiring.links.get? k = some e ∧ e.origin = id ∧ e.originSlot = slot :=
  g.exists_link_iff_wiring k fun e => e.origin = id ∧ e.originSlot = slot

theorem Within.arrives {g g' : Graph B} (h : g'.Within g) {k : LinkId} {id : NodeId} {slot : Nat}
    (ha : g'.Arrives k id slot) : g.Arrives k id slot := by
  rw [arrives_iff_wiring] at ha ⊢
  obtain ⟨e, he, hp⟩ := ha
  exact ⟨e, h k e he, hp⟩

theorem Within.leaves {g g' : Graph B} (h : g'.Within g) {k : LinkId} {id : NodeId} {slot : Nat}
    (ha : g'.Leaves k id slot) : g.Leaves k id slot := by
  rw [leaves_iff_wiring] at ha ⊢
  obtain ⟨e, he, hp⟩ := ha
  exact ⟨e, h k e he, hp⟩

/-! ## What edits keep -/

/-- Every link has a number below the next one. -/
def LinksBelow (g : Graph B) : Prop := ∀ k l, g.links.get? k = some l → k.number < g.nextLink

theorem LinksBelow.of_wiring {g g' : Graph B} (h : g'.wiring = g.wiring) (hg : g.LinksBelow) :
    g'.LinksBelow := by
  intro k l hl
  obtain ⟨m, hm, -⟩ := link_of_wiring h hl
  have hnext : g'.nextLink = g.nextLink := congrArg Wiring.nextLink h
  rw [hnext]
  exact hg k m hm

end Graph

/-- A property of joined graphs that depends on the wiring only and survives the steps in which
edits change links and nodes. -/
structure Upkeep (I : Graph B → Prop) : Prop where
  joined : ∀ {g}, I g → g.Joined
  wiring : ∀ {g g'}, g'.wiring = g.wiring → I g → I g'
  dropLink : ∀ {g k l}, I g → g.links.get? k = some l → I (g.dropLink k l)
  addLink : ∀ {g l}, I g → g.LinksBelow → g.Fits l → I (g.addLink l)
  newInput : ∀ {g}, I g → ∀ id name type, I (g.modifyNode id (·.addInput name type))
  newOutput : ∀ {g}, I g → ∀ id name type, I (g.modifyNode id (·.addOutput name type))
  eraseInput : ∀ {g id slot}, I g → (∀ k, ¬g.Arrives k id slot) → I (g.eraseInput id slot)
  eraseOutput : ∀ {g id slot}, I g → (∀ k, ¬g.Leaves k id slot) → I (g.eraseOutput id slot)
  eraseNode : ∀ {g id}, I g → (∀ k slot, ¬g.Arrives k id slot) → (∀ k slot, ¬g.Leaves k id slot) →
    I { g with nodes := g.nodes.erase id }
  reset : ∀ {g}, I g → ∀ version batchDepth,
    I { Graph.empty g.registry g.settings with version, batchDepth }

namespace Session

variable [Kind B] {I : Graph B → Prop}

/-! ## Breaking one link -/

theorem wiring_unlink {s : Session B σ} {k : LinkId} {l : Link} (hl : s.graph.links.get? k = some l) :
    (s.unlink k).graph.wiring = (s.graph.dropLink k l).wiring := by
  unfold unlink
  rw [hl]
  exact Graph.wiring_of_skeleton (skeleton_announce _ _ _)

theorem unlink_of_none {s : Session B σ} {k : LinkId} (hl : s.graph.links.get? k = none) :
    s.unlink k = s := by
  unfold unlink
  rw [hl]

theorem get?_links_unlink (s : Session B σ) (k k' : LinkId) :
    (s.unlink k).graph.wiring.links.get? k' =
      if k' = k then none else s.graph.wiring.links.get? k' := by
  cases hl : s.graph.links.get? k with
  | none =>
    rw [unlink_of_none hl]
    split
    · next hk =>
      rw [Graph.get?_wiring_links, hk, hl]
      rfl
    · rfl
  | some l =>
    rw [wiring_unlink hl, Graph.get?_wiring_links, Graph.get?_links_dropLink,
      Graph.get?_wiring_links]
    split <;> rfl

theorem unlink_within (s : Session B σ) (k : LinkId) : (s.unlink k).graph.Within s.graph := by
  intro k' e he
  rw [get?_links_unlink] at he
  split at he
  · cases he
  · exact he

theorem nextLink_unlink (s : Session B σ) (k : LinkId) :
    (s.unlink k).graph.nextLink = s.graph.nextLink := by
  cases hl : s.graph.links.get? k with
  | none => rw [unlink_of_none hl]
  | some l => exact congrArg Wiring.nextLink (wiring_unlink hl)

theorem upkeep_unlink (hI : Upkeep I) {s : Session B σ} (hs : I s.graph) (k : LinkId) :
    I (s.unlink k).graph := by
  cases hl : s.graph.links.get? k with
  | none =>
    rw [unlink_of_none hl]
    exact hs
  | some l =>
    have hd : I (s.graph.dropLink k l) := hI.dropLink hs hl
    exact hI.wiring (wiring_unlink hl) hd

/-! ## Breaking several links -/

theorem upkeep_unlinks (hI : Upkeep I) {s : Session B σ} (hs : I s.graph) (ks : List LinkId) :
    I (ks.foldl unlink s).graph := by
  induction ks generalizing s with
  | nil => exact hs
  | cons k ks ih => exact ih (upkeep_unlink hI hs k)

theorem unlinks_within (ks : List LinkId) (s : Session B σ) :
    (ks.foldl unlink s).graph.Within s.graph := by
  induction ks generalizing s with
  | nil => exact .refl _
  | cons k ks ih => exact (ih (s.unlink k)).trans (unlink_within s k)

/-- Links that were broken are gone. -/
theorem get?_links_unlinks {ks : List LinkId} {k : LinkId} (hk : k ∈ ks) (s : Session B σ) :
    (ks.foldl unlink s).graph.wiring.links.get? k = none := by
  induction ks generalizing s with
  | nil => cases hk
  | cons k' ks ih =>
    rcases List.mem_cons.1 hk with rfl | hk
    · -- breaking the others does not bring it back
      cases he : ((k :: ks).foldl unlink s).graph.wiring.links.get? k with
      | none => rfl
      | some e =>
        have hb := unlinks_within ks (s.unlink k) k e he
        rw [get?_links_unlink, if_pos rfl] at hb
        cases hb
    · exact ih hk (s.unlink k')

/-! ## Clearing a slot -/

theorem disconnectInput_wiring (s : Session B σ) (id : NodeId) (slot : Nat) :
    ((s.graph.input? id slot).bind Input.link = none ∧ (s.disconnectInput id slot).2 = s) ∨
      ∃ k, (s.graph.input? id slot).bind Input.link = some k ∧
        (s.disconnectInput id slot).2.graph.wiring = (s.unlink k).graph.wiring := by
  unfold disconnectInput
  cases (s.graph.input? id slot).bind Input.link with
  | none => exact .inl ⟨rfl, rfl⟩
  | some k => exact .inr ⟨k, rfl, wiring_invalidate (s.unlink k)⟩

theorem upkeep_disconnectInput (hI : Upkeep I) {s : Session B σ} (hs : I s.graph) (id : NodeId)
    (slot : Nat) : I (s.disconnectInput id slot).2.graph := by
  rcases disconnectInput_wiring s id slot with ⟨-, he⟩ | ⟨k, -, hw⟩
  · rw [he]
    exact hs
  · exact hI.wiring hw (upkeep_unlink hI hs k)

theorem disconnectInput_within (s : Session B σ) (id : NodeId) (slot : Nat) :
    (s.disconnectInput id slot).2.graph.Within s.graph := by
  rcases disconnectInput_wiring s id slot with ⟨-, he⟩ | ⟨k, -, hw⟩
  · rw [he]
    exact .refl _
  · exact (Graph.Within.of_wiring hw).trans (unlink_within s k)

/-- After an input was disconnected, no link arrives there. -/
theorem not_arrives_disconnectInput {s : Session B σ} (hs : s.graph.Joined) (id : NodeId)
    (slot : Nat) (k : LinkId) : ¬(s.disconnectInput id slot).2.graph.Arrives k id slot := by
  intro ha
  obtain ⟨i, hi, hk⟩ := (hs.inputs id slot k).2 ((disconnectInput_within s id slot).arrives ha)
  have hb : (s.graph.input? id slot).bind Input.link = some k := by rw [hi, Option.bind_some, hk]
  rcases disconnectInput_wiring s id slot with ⟨hn, -⟩ | ⟨k', hk', hw⟩
  · rw [hb] at hn
    cases hn
  · rw [hb] at hk'
    cases hk'
    rw [Graph.arrives_iff_wiring, hw, get?_links_unlink, if_pos rfl] at ha
    obtain ⟨e, he, -⟩ := ha
    cases he

theorem disconnectOutput_wiring (s : Session B σ) (id : NodeId) (slot : Nat)
    (target : Option NodeId) : (s.disconnectOutput id slot target).2.graph.wiring =
      ((leaving s.graph id slot target).foldl unlink s).graph.wiring := by
  unfold disconnectOutput
  cases leaving s.graph id slot target with
  | nil => rfl
  | cons k ks => exact wiring_invalidate _

theorem upkeep_disconnectOutput (hI : Upkeep I) {s : Session B σ} (hs : I s.graph) (id : NodeId)
    (slot : Nat) (target : Option NodeId) : I (s.disconnectOutput id slot target).2.graph :=
  hI.wiring (disconnectOutput_wiring s id slot target) (upkeep_unlinks hI hs _)

theorem disconnectOutput_within (s : Session B σ) (id : NodeId) (slot : Nat)
    (target : Option NodeId) : (s.disconnectOutput id slot target).2.graph.Within s.graph :=
  (Graph.Within.of_wiring (disconnectOutput_wiring s id slot target)).trans (unlinks_within _ s)

/-- After an output was disconnected, no link leaves there. -/
theorem not_leaves_disconnectOutput {s : Session B σ} (hs : s.graph.Joined) (id : NodeId)
    (slot : Nat) (k : LinkId) : ¬(s.disconnectOutput id slot none).2.graph.Leaves k id slot := by
  intro ha
  obtain ⟨o, ho, hk⟩ := (hs.outputs id slot k).2 ((disconnectOutput_within s id slot none).leaves ha)
  have hm : k ∈ leaving s.graph id slot none := by
    unfold leaving
    rw [ho]
    exact hk
  rw [Graph.leaves_iff_wiring, disconnectOutput_wiring, get?_links_unlinks hm] at ha
  obtain ⟨e, he, -⟩ := ha
  cases he

theorem upkeep_removeLink (hI : Upkeep I) {s : Session B σ} (hs : I s.graph) (k : LinkId) :
    I (s.removeLink k).2.graph := by
  unfold removeLink
  split
  · exact hI.wiring (wiring_invalidate _) (upkeep_unlink hI hs k)
  · exact hs

/-! ## Making a link -/

/-- The session after the link that feeds an input, if any, was broken. -/
def makeRoom (s : Session B σ) (input : Input) : Session B σ :=
  match input.link with
  | some replaced => s.unlink replaced
  | none => s

theorem upkeep_makeRoom (hI : Upkeep I) {s : Session B σ} (hs : I s.graph) (input : Input) :
    I (s.makeRoom input).graph := by
  unfold makeRoom
  split
  · exact upkeep_unlink hI hs _
  · exact hs

theorem linksBelow_makeRoom {s : Session B σ} (hs : s.graph.LinksBelow) (input : Input) :
    (s.makeRoom input).graph.LinksBelow := by
  unfold makeRoom
  split
  · next replaced _ =>
    intro k l hl
    rw [nextLink_unlink]
    have hw : (s.unlink replaced).graph.wiring.links.get? k = some l.ends := by
      rw [Graph.get?_wiring_links, hl, Option.map_some]
    have hold := unlink_within s replaced k l.ends hw
    rw [Graph.get?_wiring_links] at hold
    obtain ⟨m, hm, -⟩ := Option.map_eq_some_iff.1 hold
    exact hs k m hm
  · exact hs

/-- Making room frees an input, and keeps the slots that a link would join. -/
theorem fits_makeRoom {s : Session B σ} (hs : s.graph.Joined) {origin target : NodeId}
    {originSlot targetSlot : Nat} {input : Input} (type : SlotType)
    (ho : (s.graph.output? origin originSlot).isSome)
    (hi : (s.graph.input? target targetSlot).map Input.link = some input.link)
    (hne : origin ≠ target) :
    (s.makeRoom input).graph.Fits
      (.new ⟨(s.makeRoom input).graph.nextLink⟩ type origin originSlot target targetSlot) := by
  unfold makeRoom
  cases hk : input.link with
  | none =>
    -- the input is free already
    rw [hk] at hi
    exact ⟨rfl, hne, ho, hi⟩
  | some k =>
    rw [hk] at hi
    obtain ⟨i, hin, hl⟩ := Option.map_eq_some_iff.1 hi
    obtain ⟨l, hl', ht, hts⟩ := hs.of_input hin hl
    refine ⟨rfl, hne, ?_, ?_⟩
    · -- the output may have listed the broken link, but it is still there
      have hf := Graph.fan_of_wiring (wiring_unlink hl') origin originSlot
      rw [Graph.output?_dropLink, Option.map_map] at hf
      have hs := congrArg Option.isSome hf
      rw [Option.isSome_map, Option.isSome_map] at hs
      exact hs.trans ho
    · have hf := Graph.feed_of_wiring (wiring_unlink hl') target targetSlot
      rw [Graph.input?_dropLink, hin, Option.map_some, if_pos ⟨ht.symm, hts.symm⟩, if_pos hl] at hf
      exact hf

theorem nextLink_link (s : Session B σ) (origin : NodeId) (originSlot : Nat) (target : NodeId)
    (targetSlot : Nat) (input : Input) :
    (s.link origin originSlot target targetSlot input).2.graph.nextLink = s.graph.nextLink + 1 := by
  have hroom : (s.makeRoom input).graph.nextLink = s.graph.nextLink := by
    unfold makeRoom
    split
    · exact nextLink_unlink s _
    · rfl
  refine (congrArg Wiring.nextLink (wiring_invalidate _)).trans ?_
  refine (congrArg Wiring.nextLink
    (Graph.wiring_of_skeleton (skeleton_announce ((s.makeRoom input).edit _) _ _))).trans ?_
  exact congrArg (· + 1) hroom

theorem upkeep_link (hI : Upkeep I) {s : Session B σ} (hs : I s.graph) (hbelow : s.graph.LinksBelow)
    {origin target : NodeId} {originSlot targetSlot : Nat} {input : Input}
    (ho : (s.graph.output? origin originSlot).isSome)
    (hi : (s.graph.input? target targetSlot).map Input.link = some input.link)
    (hne : origin ≠ target) : I (s.link origin originSlot target targetSlot input).2.graph := by
  have hroom := upkeep_makeRoom hI hs input
  have hadded := hI.addLink hroom (linksBelow_makeRoom hbelow input)
    (fits_makeRoom (hI.joined hs) input.type ho hi hne)
  refine hI.wiring ?_ hadded
  refine (wiring_invalidate _).trans ?_
  exact Graph.wiring_of_skeleton (skeleton_announce ((s.makeRoom input).edit _) _ _)

omit [Kind B] in
/-- What is known of slots that a link would join. -/
theorem endpoints_ok {g : Graph B} {origin target : NodeId} {originSlot targetSlot : Nat}
    {output : Output} {input : Input}
    (h : g.endpoints? origin originSlot target targetSlot = .ok (output, input)) :
    g.output? origin originSlot = some output ∧ g.input? target targetSlot = some input ∧
      origin ≠ target := by
  unfold Graph.endpoints? at h
  cases hs : g.nodes.get? origin with
  | none => rw [hs] at h; cases h
  | some source =>
    cases ht : g.nodes.get? target with
    | none => rw [hs, ht] at h; cases h
    | some sink =>
      rw [Graph.output_of_node hs, Graph.input_of_node ht]
      rw [hs, ht] at h
      cases ho : source.outputs[originSlot]? with
      | none => simp only [ho] at h; cases h
      | some o =>
        cases hi : sink.inputs[targetSlot]? with
        | none => simp only [ho, hi] at h; cases h
        | some i =>
          simp only [ho, hi] at h
          by_cases hne : origin = target
          · rw [if_pos hne] at h; cases h
          · rw [if_neg hne] at h
            cases h
            exact ⟨rfl, rfl, hne⟩

/-- Only if a link is made it matters that its number is new. -/
theorem upkeep_tryConnect (hI : Upkeep I) {s : Session B σ} (hs : I s.graph) (origin : NodeId)
    (originSlot : Nat) (target : NodeId) (targetSlot : Nat)
    (hbelow : s.graph.nextLink <
      (s.tryConnect origin originSlot target targetSlot).2.graph.nextLink → s.graph.LinksBelow) :
    I (s.tryConnect origin originSlot target targetSlot).2.graph := by
  unfold tryConnect at hbelow ⊢
  cases he : s.graph.endpoints? origin originSlot target targetSlot with
  | error e => exact hs
  | ok slots =>
    obtain ⟨output, input⟩ := slots
    obtain ⟨ho, hi, hne⟩ := endpoints_ok he
    have hw : (s.tell target (.linkOffered targetSlot output.type)).graph.wiring = s.graph.wiring :=
      Graph.wiring_of_skeleton (skeleton_tell ..)
    have ht := hI.wiring hw hs
    rw [he] at hbelow
    simp only at hbelow ⊢
    split
    · exact ht
    · next hveto =>
      rw [if_neg hveto] at hbelow
      split
      · exact ht
      · next hfits =>
        rw [if_neg hfits] at hbelow
        have hb : s.graph.LinksBelow := by
          apply hbelow
          show s.graph.nextLink < (Session.link _ _ _ _ _ _).2.graph.nextLink
          rw [nextLink_link]
          exact Nat.lt_succ_of_le (Nat.le_of_eq (congrArg Wiring.nextLink hw).symm)
        apply upkeep_link hI ht (hb.of_wiring hw)
        · have hf := congrArg Option.isSome (Graph.fan_of_wiring hw origin originSlot)
          rw [Option.isSome_map, Option.isSome_map, ho] at hf
          exact hf
        · rw [Graph.feed_of_wiring hw, hi]
          rfl
        · exact hne

theorem upkeep_connectByName (hI : Upkeep I) {s : Session B σ} (hs : I s.graph) (origin : NodeId)
    (output : String) (target : NodeId) (input : String)
    (hbelow : s.graph.nextLink < (s.connectByName origin output target input).2.graph.nextLink →
      s.graph.LinksBelow) : I (s.connectByName origin output target input).2.graph := by
  unfold connectByName at hbelow ⊢
  cases he : s.graph.slotsNamed? origin output target input with
  | error e => exact hs
  | ok slots =>
    rw [he] at hbelow
    exact upkeep_tryConnect hI hs _ _ _ _ hbelow

end Session

end Dataflow
