/-
  What is left of a graph when links are broken.

  Breaking a link clears it from the three places that know it.  When slots and links agree, no
  other place names it, so that clearing it there is clearing it everywhere: `severed` takes links
  out of the whole graph, and breaking links one after the other does just that
  (`Session.unlink_severs`, `Session.unlinks_sever`).  Since `severed` says nothing of slots and of
  the sequence, what it takes out twice is taken out once, and the sequence does not matter
  (`severed_severed`).

  Behaviours at both ends are told.  What they remember of that is their own affair: two graphs are
  the same `UpToMemory` when they agree apart from behaviours, and agree altogether when behaviours
  forget what they are told.
-/

import Dataflow.Proofs.Likeness
import Dataflow.Proofs.Refusal

namespace Dataflow

variable {B σ : Type}

/-! ## Finite maps and lists -/

namespace Assoc

variable {κ α β : Type}

theorem filter_filter (m : Assoc κ α) (p q : κ → α → Bool) :
    (m.filter p).filter q = m.filter fun k v => p k v && q k v := by
  apply ext_entries
  show (m.entries.filter _).filter _ = m.entries.filter _
  rw [List.filter_filter]
  exact List.filter_congr fun _ _ => Bool.and_comm ..

/-- What passes one test or another is what passes the first, and what passes the second of the
others. -/
theorem size_filter_or (m : Assoc κ α) (p q : κ → α → Bool) :
    (m.filter fun k v => p k v || q k v).size =
      (m.filter p).size + ((m.filter fun k v => !p k v).filter q).size := by
  show (m.entries.filter _).length = (m.entries.filter _).length + ((m.entries.filter _).filter _).length
  induction m.entries with
  | nil => rfl
  | cons e es ih =>
    cases hp : p e.1 e.2 <;> cases hq : q e.1 e.2 <;> simp [hp, hq, ih] <;> omega

variable [DecidableEq κ]

theorem size_filter_key {m : Assoc κ α} {k : κ} (h : k ∈ m.keys) :
    (m.filter fun i _ => decide (i = k)).size = 1 := by
  have herase : (m.filter fun i _ => !decide (i = k)) = m.erase k :=
    filter_congr fun _ _ _ => (decide_not ..).symm
  have hsize := m.size_filter_or (fun i _ => decide (i = k)) fun _ _ => true
  rw [herase, filter_eq_self (m := m.erase k) fun _ _ _ => rfl,
    filter_eq_self fun _ _ _ => Bool.or_true _] at hsize
  have := m.size_erase_of_mem h
  omega

theorem get?_filter_key (m : Assoc κ α) (p : κ → Bool) (k : κ) :
    (m.filter fun i _ => p i).get? k = if p k then m.get? k else none := by
  rw [get?_filter]
  cases m.get? k <;> cases p k <;> rfl

end Assoc

/-- A change of one member that changes the others not at all is a change of every member. -/
theorem modify_eq_map {α : Type} {l : List α} {i : Nat} {f u : α → α}
    (hi : ∀ a, l[i]? = some a → f a = u a) (ho : ∀ j a, j ≠ i → l[j]? = some a → u a = a) :
    l.modify i f = l.map u := by
  apply List.ext_getElem?
  intro j
  rw [List.getElem?_modify, List.getElem?_map]
  cases ha : l[j]? with
  | none => rfl
  | some a =>
    by_cases hj : i = j
    · subst hj
      simp [hi a ha]
    · simp [hj, ho j a (Ne.symm hj) ha]

theorem map_eq_self {α : Type} {l : List α} {f : α → α}
    (h : ∀ (j : Nat) a, l[j]? = some a → f a = a) : l.map f = l := by
  refine (List.map_congr_left fun a ha => ?_).trans (List.map_id _)
  obtain ⟨j, hj⟩ := List.getElem?_of_mem ha
  exact h j a hj

/-! ## Slots that lose links -/

/-- The input without the link that feeds it, if that is gone. -/
def Input.lacking (gone : LinkId → Bool) (s : Input) : Input :=
  { s with link := s.link.filter fun k => !gone k }

/-- The output without those of its links that are gone. -/
def Output.lacking (gone : LinkId → Bool) (s : Output) : Output :=
  { s with links := s.links.filter fun k => !gone k }

/-- The node without the links that are gone. -/
def Node.lacking (gone : LinkId → Bool) (n : Node B) : Node B :=
  { n with inputs := n.inputs.map (·.lacking gone), outputs := n.outputs.map (·.lacking gone) }

theorem Input.lacking_congr {p q : LinkId → Bool} {s : Input} (h : ∀ k, s.link = some k → p k = q k) :
    s.lacking p = s.lacking q := by
  unfold lacking
  cases hk : s.link with
  | none => rfl
  | some k => rw [Option.filter_some, Option.filter_some, h k hk]

theorem Output.lacking_congr {p q : LinkId → Bool} {s : Output} (h : ∀ k ∈ s.links, p k = q k) :
    s.lacking p = s.lacking q := by
  unfold lacking
  rw [List.filter_congr fun k hk => congrArg (!·) (h k hk)]

theorem Input.lacking_false (s : Input) : s.lacking (fun _ => false) = s := by
  have hl : (s.link.filter fun _ => !false) = s.link := by cases s.link <;> rfl
  unfold lacking
  rw [hl]

/-- An input loses one link at most. -/
theorem Input.lacking_one (s : Input) (k : LinkId) :
    s.lacking (· = k) = if s.link = some k then { s with link := none } else s := by
  have hl : (s.link.filter fun i => !decide (i = k)) = if s.link = some k then none else s.link := by
    cases s.link with
    | none => rfl
    | some i => by_cases hi : i = k <;> simp [hi, Option.filter_some]
  unfold lacking
  rw [hl]
  split <;> rfl

theorem Output.lacking_false (s : Output) : s.lacking (fun _ => false) = s := by
  unfold lacking
  simp

theorem Input.lacking_lacking (p q : LinkId → Bool) (s : Input) :
    (s.lacking p).lacking q = s.lacking fun k => p k || q k := by
  unfold lacking
  cases s.link with
  | none => rfl
  | some k => cases hp : p k <;> simp [hp, Option.filter_some]

theorem Output.lacking_lacking (p q : LinkId → Bool) (s : Output) :
    (s.lacking p).lacking q = s.lacking fun k => p k || q k := by
  have hl : (s.links.filter fun k => !p k).filter (fun k => !q k) =
      s.links.filter fun k => !(p k || q k) := by
    rw [List.filter_filter]
    exact List.filter_congr fun k _ => by rw [Bool.not_or, Bool.and_comm]
  unfold lacking
  rw [hl]

theorem Node.lacking_lacking (p q : LinkId → Bool) (n : Node B) :
    (n.lacking p).lacking q = n.lacking fun k => p k || q k := by
  unfold lacking
  simp only [List.map_map, Function.comp_def, Input.lacking_lacking, Output.lacking_lacking]

theorem Node.lacking_congr {p q : LinkId → Bool} {n : Node B}
    (hi : ∀ s ∈ n.inputs, ∀ k, s.link = some k → p k = q k)
    (ho : ∀ s ∈ n.outputs, ∀ k ∈ s.links, p k = q k) : n.lacking p = n.lacking q := by
  unfold lacking
  rw [List.map_congr_left fun s hs => Input.lacking_congr (hi s hs),
    List.map_congr_left fun s hs => Output.lacking_congr (ho s hs)]

theorem Node.lacking_false (n : Node B) : n.lacking (fun _ => false) = n := by
  unfold lacking
  simp [Input.lacking_false, Output.lacking_false]

/-- What is lost when nothing is replaced, and when one link is. -/
theorem replaced_none : (fun k : LinkId => decide (none = some k)) = fun _ => false :=
  funext fun _ => decide_eq_false nofun

theorem replaced_some (r : LinkId) : (fun k => decide (some r = some k)) = fun k => decide (k = r) := by
  funext k
  simp only [Option.some.injEq, eq_comm]

/-! ## Graphs that lose links -/

namespace Graph

/-- The graph with the order flagged. -/
def flagged (g : Graph B) : Graph B := { g with stale := true }

/-- The graph after some of its links were broken, each of them once. -/
def severed (g : Graph B) (gone : LinkId → Bool) : Graph B :=
  { g with
    nodes := g.nodes.mapValues fun _ n => n.lacking gone
    links := g.links.filter fun k _ => !gone k
    version := g.version + (g.links.filter fun k _ => gone k).size
    stale := true }

variable {g : Graph B} {gone : LinkId → Bool}

theorem get?_severed (g : Graph B) (gone : LinkId → Bool) (id : NodeId) :
    (g.severed gone).nodes.get? id = (g.nodes.get? id).map (Node.lacking gone) :=
  Assoc.get?_mapValues ..

theorem node_severed {id : NodeId} {n : Node B} (hn : g.nodes.get? id = some n) :
    (g.severed gone).nodes.get? id = some (n.lacking gone) := by
  rw [get?_severed, hn]
  rfl

theorem get?_links_severed (g : Graph B) (gone : LinkId → Bool) (k : LinkId) :
    (g.severed gone).links.get? k = if gone k then none else g.links.get? k := by
  refine (Assoc.get?_filter_key g.links (fun k => !gone k) k).trans ?_
  cases gone k <;> rfl

theorem link_of_severed {k : LinkId} {l : Link} (h : (g.severed gone).links.get? k = some l) :
    g.links.get? k = some l ∧ gone k = false := by
  rw [get?_links_severed] at h
  split at h
  · cases h
  · next hk => exact ⟨h, Bool.eq_false_iff.2 hk⟩

theorem input?_severed (g : Graph B) (gone : LinkId → Bool) (id : NodeId) (slot : Nat) :
    (g.severed gone).input? id slot = (g.input? id slot).map (Input.lacking gone) := by
  unfold input?
  rw [get?_severed]
  cases g.nodes.get? id with
  | none => rfl
  | some n => exact List.getElem?_map

theorem output?_severed (g : Graph B) (gone : LinkId → Bool) (id : NodeId) (slot : Nat) :
    (g.severed gone).output? id slot = (g.output? id slot).map (Output.lacking gone) := by
  unfold output?
  rw [get?_severed]
  cases g.nodes.get? id with
  | none => rfl
  | some n => exact List.getElem?_map

theorem holds_severed (id : NodeId) (slot : Nat) (k : LinkId) :
    (g.severed gone).Holds id slot k ↔ gone k = false ∧ g.Holds id slot k := by
  unfold Holds
  simp only [input?_severed, Option.map_eq_some_iff]
  constructor
  · rintro ⟨_, ⟨s, hs, rfl⟩, hk⟩
    obtain ⟨hk, hkeep⟩ := Option.filter_eq_some_iff.1 hk
    exact ⟨by simpa using hkeep, s, hs, hk⟩
  · rintro ⟨hkeep, s, hs, hk⟩
    exact ⟨_, ⟨s, hs, rfl⟩, Option.filter_eq_some_iff.2 ⟨hk, by simpa using hkeep⟩⟩

theorem lists_severed (id : NodeId) (slot : Nat) (k : LinkId) :
    (g.severed gone).Lists id slot k ↔ gone k = false ∧ g.Lists id slot k := by
  unfold Lists
  simp only [output?_severed, Option.map_eq_some_iff]
  constructor
  · rintro ⟨_, ⟨s, hs, rfl⟩, hk⟩
    obtain ⟨hk, hkeep⟩ := List.mem_filter.1 hk
    exact ⟨by simpa using hkeep, s, hs, hk⟩
  · rintro ⟨hkeep, s, hs, hk⟩
    exact ⟨_, ⟨s, hs, rfl⟩, List.mem_filter.2 ⟨hk, by simpa using hkeep⟩⟩

/-- What holds of a link that is left holds of a link that is not gone. -/
theorem exists_severed {p : Link → Prop} {k : LinkId} :
    (∃ l, (g.severed gone).links.get? k = some l ∧ p l) ↔
      gone k = false ∧ ∃ l, g.links.get? k = some l ∧ p l := by
  rw [get?_links_severed]
  cases gone k <;> simp

/-- Graphs that lose links stay consistent. -/
theorem consistent_severed (hg : g.Consistent) (gone : LinkId → Bool) :
    (g.severed gone).Consistent where
  apart k l hl := hg.apart k l (link_of_severed hl).1
  inputs id slot k := by
    rw [holds_severed, hg.inputs]
    exact exists_severed.symm
  outputs id slot k := by
    rw [lists_severed, hg.outputs]
    exact exists_severed.symm
  once id slot s hs := by
    rw [output?_severed] at hs
    obtain ⟨o, ho, rfl⟩ := Option.map_eq_some_iff.1 hs
    exact (hg.once id slot o ho).filter _
  nodeOwn id n hn := by
    rw [get?_severed] at hn
    obtain ⟨m, hm, rfl⟩ := Option.map_eq_some_iff.1 hn
    exact hg.nodeOwn id m hm
  linkOwn k l hl := hg.linkOwn k l (link_of_severed hl).1
  nodeBelow id n hn := by
    rw [get?_severed] at hn
    obtain ⟨m, hm, -⟩ := Option.map_eq_some_iff.1 hn
    exact hg.nodeBelow id m hm
  linkBelow k l hl := hg.linkBelow k l (link_of_severed hl).1

theorem severed_severed (g : Graph B) (p q : LinkId → Bool) :
    (g.severed p).severed q = g.severed fun k => p k || q k := by
  have hn : (g.severed p).nodes.mapValues (fun _ n => n.lacking q) =
      g.nodes.mapValues fun _ n => n.lacking fun k => p k || q k := by
    refine (Assoc.mapValues_mapValues g.nodes (fun _ n => n.lacking p) fun _ n => n.lacking q).trans ?_
    exact Assoc.mapValues_congr fun e _ => e.2.lacking_lacking p q
  have hl : ((g.links.filter fun k _ => !p k).filter fun k _ => !q k) =
      g.links.filter fun k _ => !(p k || q k) := by
    rw [Assoc.filter_filter]
    exact Assoc.filter_congr fun _ _ _ => (Bool.not_or ..).symm
  have hv : (g.severed p).version + ((g.links.filter fun k _ => !p k).filter fun k _ => q k).size =
      g.version + (g.links.filter fun k _ => p k || q k).size := by
    rw [g.links.size_filter_or (fun k _ => p k) fun k _ => q k, ← Nat.add_assoc]
    rfl
  show ({ g with
    nodes := (g.severed p).nodes.mapValues fun _ n => n.lacking q
    links := (g.links.filter fun k _ => !p k).filter fun k _ => !q k
    version := (g.severed p).version + ((g.links.filter fun k _ => !p k).filter fun k _ => q k).size
    stale := true } : Graph B) = _
  rw [hn, hl, hv]
  rfl

/-- Only what becomes of the links that there are matters. -/
theorem severed_congr (hg : g.Joined) {p q : LinkId → Bool}
    (h : ∀ k l, g.links.get? k = some l → p k = q k) : g.severed p = g.severed q := by
  have hn : (g.nodes.mapValues fun _ n => n.lacking p) = g.nodes.mapValues fun _ n => n.lacking q := by
    apply Assoc.mapValues_congr
    intro e he
    have hm : g.nodes.get? e.1 = some e.2 := (Assoc.get?_eq_some_iff ..).2 he
    -- slots name links that there are
    apply Node.lacking_congr
    · intro s hs k hk
      obtain ⟨slot, hslot⟩ := List.getElem?_of_mem hs
      obtain ⟨l, hl, -⟩ := hg.of_input ((input_of_node hm slot).trans hslot) hk
      exact h k l hl
    · intro s hs k hk
      obtain ⟨slot, hslot⟩ := List.getElem?_of_mem hs
      obtain ⟨l, hl, -⟩ := hg.of_output ((output_of_node hm slot).trans hslot) hk
      exact h k l hl
  have hkeep : (g.links.filter fun k _ => !p k) = g.links.filter fun k _ => !q k :=
    Assoc.filter_congr fun k l hl => by rw [h k l hl]
  have hdrop : (g.links.filter fun k _ => p k) = g.links.filter fun k _ => q k :=
    Assoc.filter_congr h
  unfold severed
  rw [hn, hkeep, hdrop]

theorem severed_false (g : Graph B) : g.severed (fun _ => false) = g.flagged := by
  have hn : (g.nodes.mapValues fun _ n => n.lacking fun _ => false) = g.nodes := by
    apply Assoc.ext_entries
    show g.nodes.entries.map (fun e => (e.1, e.2.lacking fun _ => false)) = g.nodes.entries
    simp [Node.lacking_false]
  have hkeep : (g.links.filter fun _ _ => !false) = g.links := Assoc.filter_eq_self fun _ _ _ => rfl
  have hdrop : (g.links.filter fun _ _ => false).size = 0 := by
    show (g.links.entries.filter fun _ => false).length = 0
    simp
  unfold severed flagged
  rw [hn, hkeep, hdrop]
  rfl

/-! ## Breaking one link -/

section Drop

variable {k : LinkId} {l : Link} {id : NodeId} {n : Node B}

/-- An input that is not the target of a link does not lose it. -/
theorem Joined.lacking_input (hg : g.Joined) (hl : g.links.get? k = some l)
    (hn : g.nodes.get? id = some n) {slot : Nat} {s : Input} (hs : n.inputs[slot]? = some s)
    (hne : ¬(id = l.target ∧ slot = l.targetSlot)) : s.lacking (· = k) = s := by
  rw [Input.lacking_one, if_neg]
  intro hk
  obtain ⟨m, hm, ht, hts⟩ := hg.of_input ((input_of_node hn slot).trans hs) hk
  cases Option.some.inj (hl.symm.trans hm)
  exact hne ⟨ht.symm, hts.symm⟩

theorem Joined.lacking_output (hg : g.Joined) (hl : g.links.get? k = some l)
    (hn : g.nodes.get? id = some n) {slot : Nat} {s : Output} (hs : n.outputs[slot]? = some s)
    (hne : ¬(id = l.origin ∧ slot = l.originSlot)) : s.lacking (· = k) = s := by
  refine (Output.lacking_congr fun i hi => decide_eq_false ?_).trans s.lacking_false
  rintro rfl
  obtain ⟨m, hm, ho, hos⟩ := hg.of_output ((output_of_node hn slot).trans hs) hi
  cases Option.some.inj (hl.symm.trans hm)
  exact hne ⟨ho.symm, hos.symm⟩

theorem Joined.lacking_inputs (hg : g.Joined) (hl : g.links.get? k = some l)
    (hn : g.nodes.get? id = some n) : (n.inputs.map fun s => s.lacking (· = k)) =
      if id = l.target then n.inputs.modify l.targetSlot fun s =>
        if s.link = some k then { s with link := none } else s
      else n.inputs := by
  split
  · refine (modify_eq_map (fun s _ => (s.lacking_one k).symm) fun slot s hne hs => ?_).symm
    exact hg.lacking_input hl hn hs fun h => hne h.2
  · next ht => exact map_eq_self fun slot s hs => hg.lacking_input hl hn hs fun h => ht h.1

theorem Joined.lacking_outputs (hg : g.Joined) (hl : g.links.get? k = some l)
    (hn : g.nodes.get? id = some n) : (n.outputs.map fun s => s.lacking (· = k)) =
      if id = l.origin then n.outputs.modify l.originSlot fun s =>
        { s with links := s.links.filter (· ≠ k) }
      else n.outputs := by
  split
  · refine (modify_eq_map (fun s _ => ?_) fun slot s hne hs => ?_).symm
    · unfold Output.lacking
      simp only [decide_not]
    · exact hg.lacking_output hl hn hs fun h => hne h.2
  · next ho => exact map_eq_self fun slot s hs => hg.lacking_output hl hn hs fun h => ho h.1

theorem Joined.lacking_node (hg : g.Joined) (hl : g.links.get? k = some l)
    (hn : g.nodes.get? id = some n) : n.lacking (· = k) =
      { n with
        inputs := if id = l.target then n.inputs.modify l.targetSlot fun s =>
          if s.link = some k then { s with link := none } else s
          else n.inputs
        outputs := if id = l.origin then n.outputs.modify l.originSlot fun s =>
          { s with links := s.links.filter (· ≠ k) }
          else n.outputs } := by
  rw [← hg.lacking_inputs hl hn, ← hg.lacking_outputs hl hn]
  rfl

/-- A link that exists is named at its two ends only, so it is cleared everywhere. -/
theorem bump_dropLink (hg : g.Joined) (hl : g.links.get? k = some l) :
    (g.dropLink k l).bump = g.severed (· = k) := by
  have hnodes : (g.dropLink k l).nodes = g.nodes.mapValues fun _ n => n.lacking (· = k) := by
    apply Assoc.ext_view
    · rw [Assoc.keys_mapValues]
      exact (Assoc.keys_modify ..).trans (Assoc.keys_modify ..)
    · intro id
      show (Graph.modifyNode _ _ _).nodes.get? id = _
      rw [get?_modifyNode, get?_modifyNode, Assoc.get?_mapValues]
      cases hn : g.nodes.get? id with
      | none => split <;> split <;> rfl
      | some n =>
        refine Eq.trans ?_ (congrArg some (hg.lacking_node hl hn).symm)
        split <;> split <;> rfl
  have hlinks : g.links.erase k = g.links.filter fun i _ => !decide (i = k) :=
    Assoc.filter_congr fun _ _ _ => decide_not ..
  have hsize : (g.links.filter fun i _ => decide (i = k)).size = 1 :=
    Assoc.size_filter_key (Assoc.mem_keys_of_get? hl)
  show ({ g with
    nodes := (g.dropLink k l).nodes, links := g.links.erase k, version := g.version + 1
    stale := true } : Graph B) = _
  unfold severed
  rw [hnodes, hlinks, hsize]

end Drop

end Graph

/-! ## What behaviours remember -/

section Memory

variable [Kind B]

/-- The node with a behaviour that remembers nothing, if it has one. -/
def Node.hushed (n : Node B) : Node B := { n with behavior := n.behavior.map fun _ => Kind.inert }

/-- The nodes with behaviours that remember nothing. -/
def Graph.hush (g : Graph B) : Assoc NodeId (Node B) := g.nodes.mapValues fun _ n => n.hushed

/-- The graph with behaviours that remember nothing. -/
def Graph.hushed (g : Graph B) : Graph B := { g with nodes := g.hush }

namespace Graph

variable {g : Graph B}

theorem hushed_modifyNode {id : NodeId} {f : Node B → Node B} (h : ∀ n, (f n).hushed = f n.hushed) :
    (g.modifyNode id f).hushed = g.hushed.modifyNode id f := by
  have hn : (g.modifyNode id f).hush = g.hush.modify id f :=
    g.nodes.mapValues_modify_comm (fun _ n => n.hushed) id fun n _ => h n
  unfold hushed
  rw [hn]
  rfl

theorem hushed_severed (g : Graph B) (gone : LinkId → Bool) :
    (g.severed gone).hushed = g.hushed.severed gone := by
  have hn : (g.severed gone).hush = g.hush.mapValues fun _ n => n.lacking gone := by
    refine (Assoc.mapValues_mapValues g.nodes (fun _ n => n.lacking gone) fun _ n => n.hushed).trans ?_
    exact (Assoc.mapValues_mapValues g.nodes (fun _ n => n.hushed) fun _ n => n.lacking gone).symm
  unfold hushed
  rw [hn]
  rfl

theorem skeleton_hushed (g : Graph B) : g.hushed.skeleton = g.skeleton := by
  have hp : g.hush.mapValues (fun _ n => n.pins) = g.nodes.mapValues fun _ n => n.pins :=
    Assoc.mapValues_mapValues ..
  have hr : g.hush.mapValues (fun _ n => n.rank) = g.nodes.mapValues fun _ n => n.rank :=
    Assoc.mapValues_mapValues ..
  unfold skeleton wiring hushed
  rw [← hp, ← hr]

theorem get?_hushed (g : Graph B) (id : NodeId) :
    g.hushed.nodes.get? id = (g.nodes.get? id).map Node.hushed := Assoc.get?_mapValues ..

theorem input?_hushed (g : Graph B) (id : NodeId) (slot : Nat) :
    g.hushed.input? id slot = g.input? id slot := by
  unfold input?
  rw [get?_hushed]
  cases g.nodes.get? id <;> rfl

theorem output?_hushed (g : Graph B) (id : NodeId) (slot : Nat) :
    g.hushed.output? id slot = g.output? id slot := by
  unfold output?
  rw [get?_hushed]
  cases g.nodes.get? id <;> rfl

/-- A graph is another one, apart from what behaviours remember of notices: the two agree when
behaviours remember nothing, and altogether when behaviours forget what they are told. -/
structure UpToMemory (g g' : Graph B) : Prop where
  hushed : g'.hushed = g.hushed
  exact : (∀ (b : B) notice, Kind.told b notice = b) → g' = g

namespace UpToMemory

variable {g g' g'' : Graph B}

theorem refl (g : Graph B) : g.UpToMemory g := ⟨rfl, fun _ => rfl⟩

theorem of_eq (h : g' = g) : g.UpToMemory g' := h ▸ refl g

theorem version (h : g.UpToMemory g') : g'.version = g.version := by
  show g'.hushed.version = g.hushed.version
  rw [h.hushed]

theorem rest (h : g.UpToMemory g') : g' = { g with nodes := g'.nodes } := by
  show ({ g'.hushed with nodes := g'.nodes } : Graph B) = { g.hushed with nodes := g'.nodes }
  rw [h.hushed]

theorem symm (h : g.UpToMemory g') : g'.UpToMemory g := ⟨h.hushed.symm, fun hf => (h.exact hf).symm⟩

theorem trans (h : g.UpToMemory g') (h' : g'.UpToMemory g'') : g.UpToMemory g'' :=
  ⟨h'.hushed.trans h.hushed, fun hf => (h'.exact hf).trans (h.exact hf)⟩

/-- What does not look at behaviours does the same to both graphs. -/
theorem map {f : Graph B → Graph B} (hf : ∀ g, (f g).hushed = f g.hushed) (h : g.UpToMemory g') :
    (f g).UpToMemory (f g') :=
  ⟨by rw [hf, hf, h.hushed], fun hforget => congrArg f (h.exact hforget)⟩

theorem skeleton (h : g.UpToMemory g') : g'.skeleton = g.skeleton := by
  rw [← skeleton_hushed, h.hushed, skeleton_hushed]

theorem wiring (h : g.UpToMemory g') : g'.wiring = g.wiring := wiring_of_skeleton h.skeleton

theorem links (h : g.UpToMemory g') : g'.links = g.links :=
  (congrArg Graph.links h.hushed : g'.hushed.links = g.hushed.links)

theorem input? (h : g.UpToMemory g') (id : NodeId) (slot : Nat) :
    g'.input? id slot = g.input? id slot := by
  rw [← input?_hushed, h.hushed, input?_hushed]

theorem output? (h : g.UpToMemory g') (id : NodeId) (slot : Nat) :
    g'.output? id slot = g.output? id slot := by
  rw [← output?_hushed, h.hushed, output?_hushed]

theorem keys (h : g.UpToMemory g') : g'.nodes.keys = g.nodes.keys := keys_nodes_of_wiring h.wiring

theorem node (h : g.UpToMemory g') (id : NodeId) :
    (g'.nodes.get? id).map Node.hushed = (g.nodes.get? id).map Node.hushed := by
  rw [← get?_hushed, h.hushed, get?_hushed]

theorem severed (h : g.UpToMemory g') (gone : LinkId → Bool) :
    (g.severed gone).UpToMemory (g'.severed gone) := h.map fun g => g.hushed_severed gone

theorem flagged (h : g.UpToMemory g') : g.flagged.UpToMemory g'.flagged := h.map fun _ => rfl

end UpToMemory

end Graph

end Memory

/-! ## Breaking links -/

namespace Session

variable [Kind B]

theorem hushed_tell (s : Session B σ) (id : NodeId) (notice : Notice) :
    (s.tell id notice).graph.hushed = s.graph.hushed := by
  unfold tell
  cases hn : s.graph.nodes.get? id with
  | none => rfl
  | some n =>
    have hone : (n.tell notice).1.hushed = n.hushed := by
      unfold Node.tell Node.hushed
      cases hb : n.behavior with
      | none => simp only [hb]
      | some b => rfl
    have hall : (s.graph.nodes.modify id fun _ => (n.tell notice).1).mapValues (fun _ n => n.hushed) =
        s.graph.hush :=
      Assoc.mapValues_modify fun m hm => by rw [hone, Option.some.inj (hn.symm.trans hm)]
    exact congrArg (fun nodes => ({ s.graph with nodes } : Graph B)) hall

theorem upToMemory_tell (s : Session B σ) (id : NodeId) (notice : Notice) :
    s.graph.UpToMemory (s.tell id notice).graph :=
  ⟨s.hushed_tell id notice, fun h => s.graph_tell id notice fun b => h b notice⟩

theorem upToMemory_tellEnd (s : Session B σ) (d : Direction) (id : NodeId) (slot : Nat)
    (connected : Bool) (link : Link) : s.graph.UpToMemory (s.tellEnd d id slot connected link).graph := by
  unfold tellEnd
  split
  · exact s.upToMemory_tell id _
  · exact .refl _

theorem upToMemory_announce (s : Session B σ) (link : Link) (connected : Bool) :
    s.graph.UpToMemory (s.announce link connected).graph :=
  (s.upToMemory_tellEnd ..).trans (upToMemory_tellEnd _ ..)

variable {s : Session B σ}

/-- Breaking a link takes it out of the graph, if it is there. -/
theorem unlink_severs (hs : s.graph.Joined) (k : LinkId) :
    (s.graph.severed (· = k)).UpToMemory (s.unlink k).graph.flagged := by
  unfold unlink
  cases hl : s.graph.links.get? k with
  | none =>
    have hnone : s.graph.severed (· = k) = s.graph.severed fun _ => false := by
      apply Graph.severed_congr hs
      intro i l hi
      refine decide_eq_false fun h => ?_
      rw [h, hl] at hi
      cases hi
    rw [hnone, Graph.severed_false]
    exact .refl _
  | some l =>
    have htold := upToMemory_announce (s.edit fun g => (g.dropLink k l).bump) l false
    have hdrop : (s.graph.dropLink k l).bump = s.graph.severed (· = k) := Graph.bump_dropLink hs hl
    exact (Graph.UpToMemory.of_eq hdrop).trans htold.flagged

theorem joined_unlink (hs : s.graph.Joined) (k : LinkId) : (s.unlink k).graph.Joined := by
  cases hl : s.graph.links.get? k with
  | none =>
    rw [unlink_of_none hl]
    exact hs
  | some l => exact (Graph.joined_dropLink hs hl).of_wiring (wiring_unlink hl)

/-- Breaking several links takes out those of them that are there. -/
theorem unlinks_sever (ks : List LinkId) (hs : s.graph.Joined) :
    (s.graph.severed (· ∈ ks)).UpToMemory (ks.foldl unlink s).graph.flagged := by
  induction ks generalizing s with
  | nil =>
    refine .of_eq ?_
    rw [show (fun k => decide (k ∈ ([] : List LinkId))) = fun _ => false from
      funext fun k => decide_eq_false List.not_mem_nil, Graph.severed_false]
    rfl
  | cons k ks ih =>
    have hrest := ih (joined_unlink hs k)
    have hfirst := (unlink_severs hs k).severed (· ∈ ks)
    rw [Graph.severed_severed] at hfirst
    have hboth : (fun i => decide (i = k) || decide (i ∈ ks)) = fun i => decide (i ∈ k :: ks) := by
      funext i
      rw [← Bool.decide_or]
      simp only [List.mem_cons]
    rw [hboth] at hfirst
    exact hfirst.trans hrest

theorem batchDepth_unlink (s : Session B σ) (k : LinkId) :
    (s.unlink k).graph.batchDepth = s.graph.batchDepth := by
  unfold unlink
  split
  · exact congrArg Skeleton.batchDepth (skeleton_announce ..)
  · rfl

theorem batchDepth_unlinks (ks : List LinkId) (s : Session B σ) :
    (ks.foldl unlink s).graph.batchDepth = s.graph.batchDepth := by
  induction ks generalizing s with
  | nil => rfl
  | cons k ks ih => exact (ih (s.unlink k)).trans (s.batchDepth_unlink k)

omit [Kind B] in
theorem invalidate_of_batch (h : s.graph.batchDepth ≠ 0) : s.invalidate = s.markStale := by
  unfold invalidate refresh
  rw [if_neg]
  intro hc
  exact h (of_decide_eq_true (Bool.and_eq_true_iff.1 hc).1)

omit [Kind B] in
theorem mem_leaving {g : Graph B} {id : NodeId} {slot : Nat} {k : LinkId} :
    k ∈ leaving g id slot none ↔ g.Lists id slot k := by
  unfold leaving Graph.Lists
  cases g.output? id slot <;> simp

/-! ## Breaking links in a batch -/

section Batch

variable (hb : s.graph.batchDepth ≠ 0)
include hb

theorem disconnectInput_severs (hs : s.graph.Joined) (id : NodeId) (slot : Nat) :
    (s.graph.severed fun k => (s.graph.input? id slot).bind Input.link = some k).UpToMemory
      (s.disconnectInput id slot).2.graph.flagged := by
  unfold disconnectInput
  cases hk : (s.graph.input? id slot).bind Input.link with
  | none =>
    refine .of_eq ?_
    rw [replaced_none, Graph.severed_false]
  | some k =>
    have hbatch : (s.unlink k).graph.batchDepth ≠ 0 := by rwa [batchDepth_unlink]
    have hend : (s.unlink k).invalidate.changed.graph.flagged = (s.unlink k).graph.flagged := by
      rw [invalidate_of_batch hbatch]
      rfl
    rw [replaced_some]
    show Graph.UpToMemory _ (s.unlink k).invalidate.changed.graph.flagged
    rw [hend]
    exact unlink_severs hs k

theorem disconnectOutput_severs (hs : s.graph.Joined) (id : NodeId) (slot : Nat) :
    (s.graph.severed (· ∈ leaving s.graph id slot none)).UpToMemory
      (s.disconnectOutput id slot none).2.graph.flagged := by
  unfold disconnectOutput
  have hall := unlinks_sever (leaving s.graph id slot none) hs
  revert hall
  generalize leaving s.graph id slot none = ks
  intro hall
  cases ks with
  | nil => exact hall
  | cons k ks =>
    have hbatch : ((k :: ks).foldl unlink s).graph.batchDepth ≠ 0 := by rwa [batchDepth_unlinks]
    show Graph.UpToMemory _ ((k :: ks).foldl unlink s).invalidate.changed.graph.flagged
    rw [invalidate_of_batch hbatch]
    exact hall

end Batch

end Session

end Dataflow
