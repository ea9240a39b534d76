/-
  What edits do to numbered behaviours.

  The `books` of a session say which number each node holds, which numbers were told that their
  node is gone, and who signed in.  Only two edits change them.  Removing a node strikes its
  number off and tells it; clearing does so with all nodes.  A node whose body is running holds no
  number, so nobody is told for it.  Every other edit leaves the books alone, and so does all that
  a load does once its nodes are in place.
-/

import Dataflow.Proofs.Lasting
import Dataflow.Proofs.Numbering

namespace Dataflow

variable {B σ : Type}

theorem Assoc.erase_of_notMem {κ α : Type} [DecidableEq κ] {m : Assoc κ α} {k : κ}
    (h : k ∉ m.keys) : m.erase k = m := by
  refine ext_entries (List.filter_eq_self.2 fun e he => decide_eq_true fun hk => h ?_)
  exact hk ▸ List.mem_map_of_mem he

/-! ## The books -/

/-- The number of a behaviour that learns that its node is gone. -/
def Event.farewell? : Event (Numbered B) → Option (Option Nat)
  | told b .removed => some b.number
  | _ => none

/-- The number that each node holds; none while its body runs. -/
def Graph.held (g : Graph (Numbered B)) : Assoc NodeId (Option (Option Nat)) :=
  g.nodes.mapValues fun _ n => n.behavior.map Numbered.number

/-- What a session says of the numbers. -/
structure Books where
  held : Assoc NodeId (Option (Option Nat))
  /-- The numbers that were told that their nodes are gone, the last of them first. -/
  farewells : List (Option Nat)
  signed : List NodeId

namespace Books

/-- The farewells after a node was told that it is gone; one whose body runs hears nothing. -/
def bid (k : Books) (id : NodeId) : List (Option Nat) :=
  match k.held.get? id with
  | some (some x) => x :: k.farewells
  | _ => k.farewells

/-- The books without a node. -/
def strike (k : Books) (id : NodeId) : Books :=
  { k with held := k.held.erase id, farewells := k.bid id }

theorem signed_strikes (ids : List NodeId) (k : Books) : (ids.foldl strike k).signed = k.signed := by
  induction ids generalizing k with
  | nil => rfl
  | cons id ids ih => exact ih _

theorem keys_strikes (ids : List NodeId) (k : Books) :
    (ids.foldl strike k).held.keys = k.held.keys.filter (· ∉ ids) := by
  induction ids generalizing k with
  | nil => simp
  | cons id ids ih =>
    rw [List.foldl_cons, ih]
    show (k.held.erase id).keys.filter _ = _
    rw [Assoc.keys_erase, List.filter_filter]
    refine List.filter_congr fun i _ => ?_
    simp [Bool.and_comm]

end Books

def Session.books (s : Session (Numbered B) (Roster σ)) : Books :=
  ⟨s.graph.held, s.events.filterMap Event.farewell?, s.host.signed⟩

/-! ## Graphs -/

namespace Graph

variable {g : Graph (Numbered B)}

theorem held_of_nodes {g' : Graph (Numbered B)} (h : g'.nodes = g.nodes) : g'.held = g.held := by
  unfold held
  rw [h]

theorem held_modifyNode {id : NodeId} {f : Node (Numbered B) → Node (Numbered B)}
    (h : ∀ n, g.nodes.get? id = some n →
      (f n).behavior.map Numbered.number = n.behavior.map Numbered.number) :
    (g.modifyNode id f).held = g.held := Assoc.mapValues_modify h

/-- A change of a node that leaves the behaviour alone. -/
theorem held_modifyNode_apart {id : NodeId} {f : Node (Numbered B) → Node (Numbered B)}
    (h : ∀ n, (f n).behavior = n.behavior) : (g.modifyNode id f).held = g.held :=
  held_modifyNode fun n _ => congrArg (Option.map Numbered.number) (h n)

variable (g)

theorem held_dropLink (k : LinkId) (l : Link) : (g.dropLink k l).held = g.held := by
  have hout : ∀ g : Graph (Numbered B), (g.modifyNode l.origin fun n =>
      n.modifyOutput l.originSlot fun s => { s with links := s.links.filter (· ≠ k) }).held = g.held :=
    fun g => held_modifyNode_apart fun _ => rfl
  have hin : ∀ g : Graph (Numbered B), (g.modifyNode l.target fun n =>
      n.modifyInput l.targetSlot fun s => if s.link = some k then { s with link := none } else s).held =
        g.held := fun g => held_modifyNode_apart fun _ => rfl
  exact (hout _).trans (hin _)

theorem held_addLink (l : Link) : (g.addLink l).held = g.held := by
  have hin : ∀ g : Graph (Numbered B), (g.modifyNode l.target fun n =>
      n.modifyInput l.targetSlot fun s => { s with link := some l.id }).held = g.held :=
    fun g => held_modifyNode_apart fun _ => rfl
  have hout : ∀ g : Graph (Numbered B), (g.modifyNode l.origin fun n =>
      n.modifyOutput l.originSlot fun s => { s with links := s.links ++ [l.id] }).held = g.held :=
    fun g => held_modifyNode_apart fun _ => rfl
  exact (hin _).trans (hout _)

theorem held_modifyLinks (ids : List LinkId) (f : Link → Link) : (g.modifyLinks ids f).held = g.held :=
  held_of_nodes (nodes_modifyLinks f ids g)

theorem held_updateOrder : g.updateOrder.held = g.held := by
  refine updateOrder_keeps (P := fun g' => g'.held = g.held) (fun _ _ _ h => ?_)
    (fun _ _ _ h => h) rfl
  refine Eq.trans ?_ h
  exact held_modifyNode_apart fun _ => rfl

theorem held_eraseInput (id : NodeId) (slot : Nat) : (g.eraseInput id slot).held = g.held := by
  unfold eraseInput
  split
  · exact Eq.trans (held_modifyNode_apart fun _ => rfl) (g.held_modifyLinks _ _)
  · rfl

theorem held_eraseOutput (id : NodeId) (slot : Nat) : (g.eraseOutput id slot).held = g.held := by
  unfold eraseOutput
  split
  · exact Eq.trans (held_modifyNode_apart fun _ => rfl) (g.held_modifyLinks _ _)
  · rfl

theorem held_setOutputData (id : NodeId) (slot : Nat) (value : Value) :
    (g.setOutputData id slot value).held = g.held := by
  unfold setOutputData
  split
  · exact Eq.trans (held_modifyNode_apart fun _ => rfl) (g.held_modifyLinks _ _)
  · rfl

theorem held_arrange (margin : Float32) : (g.arrange margin).held = g.held := by
  refine arrange_keeps (P := fun g' => g'.held = g.held) (fun g' id p h => ?_) rfl margin
  refine Eq.trans ?_ h
  exact held_modifyNode_apart fun _ => rfl

theorem held_mergeLinks (nodes : Renaming NodeId) (records : List LinkRecord) :
    (g.mergeLinks nodes records).graph.held = g.held :=
  mergeLinks_keeps (P := fun g' => g'.held = g.held) (fun _ _ _ _ _ _ h => h) rfl nodes records

theorem held_enter (k : LinkId) (l : Link) : (g.enter k l).held = g.held :=
  Eq.trans (held_modifyNode_apart fun _ => rfl) (held_modifyNode_apart fun _ => rfl)

theorem held_relinkAll (k : NodeId → Direction → Nat → LinkId → Option LinkId) :
    (g.relinkAll k).held = g.held :=
  g.nodes.mapValues_mapValues (fun id n => n.relink (k id)) fun _ n => n.behavior.map Numbered.number

theorem held_repair (pruned : List LinkId) : (g.repair pruned).graph.held = g.held :=
  repaired_keeps (P := fun g' => g'.held = g.held) (fun g' k l h => (g'.held_enter k l).trans h)
    (fun _ _ h => h) (fun g' f h => (g'.held_relinkAll f).trans h) rfl pruned

end Graph

/-! ## Sessions -/

namespace Session

variable {s : Session (Numbered B) (Roster σ)}

theorem books_edit {f : Graph (Numbered B) → Graph (Numbered B)}
    (h : (f s.graph).held = s.graph.held) : (s.edit f).books = s.books := by
  unfold books
  show (⟨(f s.graph).held, _, _⟩ : Books) = _
  rw [h]
  rfl

theorem books_log {e : Event (Numbered B)} (h : e.farewell? = none) : (s.log e).books = s.books := by
  unfold books
  show (⟨_, (e :: s.events).filterMap _, _⟩ : Books) = _
  rw [List.filterMap_cons_none h]
  rfl

theorem books_logAll {es : List (Event (Numbered B))} (h : ∀ e ∈ es, e.farewell? = none) :
    (s.logAll es).books = s.books := by
  have hnone : es.reverse.filterMap Event.farewell? = [] :=
    List.filterMap_eq_nil_iff.2 fun e he => h e (List.mem_reverse.1 he)
  unfold books
  show (⟨_, (es.reverse ++ s.events).filterMap _, _⟩ : Books) = _
  rw [List.filterMap_append, hnone]
  rfl

theorem books_restructure {f : Graph (Numbered B) → Graph (Numbered B)}
    (h : (f s.graph).held = s.graph.held) : (s.restructure f).books = s.books :=
  (books_log rfl).trans (books_edit h)

theorem books_foldl {α : Type}
    {f : Session (Numbered B) (Roster σ) → α → Session (Numbered B) (Roster σ)}
    (h : ∀ s a, (f s a).books = s.books) (as : List α) (s : Session (Numbered B) (Roster σ)) :
    (as.foldl f s).books = s.books := by
  induction as generalizing s with
  | nil => rfl
  | cons a as ih => exact (ih _).trans (h s a)

variable (s)

@[simp] theorem books_markStale : s.markStale.books = s.books := books_edit rfl

@[simp] theorem books_beginBatch : s.beginBatch.books = s.books := books_edit rfl

@[simp] theorem books_changed : s.changed.books = s.books := books_log rfl

@[simp] theorem books_refresh : s.refresh.books = s.books := by
  unfold refresh
  split
  · exact books_edit s.graph.held_updateOrder
  · rfl

@[simp] theorem books_invalidate : s.invalidate.books = s.books := by
  unfold invalidate
  rw [books_refresh, books_markStale]

@[simp] theorem books_endBatch : s.endBatch.books = s.books := by
  unfold endBatch
  rw [books_refresh]
  exact books_edit rfl

/-! ### Slots, properties, terminals -/

theorem books_change (id : NodeId) (c : NodeChange) : (s.change id c).2.books = s.books := by
  have hr : (s.restructure fun g => g.modifyNode id c.apply).books = s.books :=
    books_restructure (Graph.held_modifyNode_apart fun n => by cases c <;> rfl)
  unfold change
  split
  · show (ite _ _ _ : Session _ _).books = _
    split
    · exact (books_invalidate _).trans hr
    · exact hr
  · rfl

theorem books_addInput (id : NodeId) (name : String) (type : SlotType) :
    (s.addInput id name type).2.books = s.books := by
  unfold addInput
  split
  · exact books_restructure (Graph.held_modifyNode_apart fun _ => rfl)
  · rfl

theorem books_addOutput (id : NodeId) (name : String) (type : SlotType) :
    (s.addOutput id name type).2.books = s.books := by
  unfold addOutput
  split
  · exact books_restructure (Graph.held_modifyNode_apart fun _ => rfl)
  · rfl

theorem books_renameSlot (d : Direction) (id : NodeId) (slot : Nat) (name : String) :
    (s.renameSlot d id slot name).books = s.books :=
  books_edit (Graph.held_modifyNode_apart fun _ => by cases d <;> rfl)

@[simp] theorem books_storeProperty (id : NodeId) (name : String) (value : Value) :
    (s.storeProperty id name value).books = s.books := by
  unfold storeProperty
  split
  · exact books_restructure (Graph.held_modifyNode_apart fun _ => rfl)
  · rfl

theorem books_declareProperty (id : NodeId) (info : PropertyInfo) :
    (s.declareProperty id info).2.books = s.books :=
  books_edit (Graph.held_modifyNode_apart fun _ => rfl)

theorem books_clearTriggered (id : NodeId) (slot : Nat) (only : Option LinkId) :
    (s.edit fun g => g.clearTriggered id slot only).books = s.books :=
  books_edit (Graph.held_of_nodes (s.graph.nodes_clearTriggered id slot only))

@[simp] theorem books_setTerminals (d : Direction) (ts : Assoc String Terminal)
    {es : List (Event (Numbered B))} (h : ∀ e ∈ es, e.farewell? = none) :
    (s.setTerminals d ts es).books = s.books := by
  unfold setTerminals
  rw [books_changed, books_logAll h]
  exact books_edit (Graph.held_of_nodes (Graph.nodes_withTerminals ..))

theorem books_renameTerminal (d : Direction) (old new : String) :
    (s.renameTerminal d old new).2.books = s.books := by
  unfold renameTerminal
  simp only
  split
  · exact s.books_setTerminals d _ (by simp [Event.farewell?])
  · rfl

theorem books_retypeTerminal (d : Direction) (name : String) (type : SlotType) :
    (s.retypeTerminal d name type).2.books = s.books := by
  unfold retypeTerminal
  simp only
  split
  · split
    · rfl
    · exact s.books_setTerminals d _ (by simp [Event.farewell?])
  · rfl

theorem books_removeTerminal (d : Direction) (name : String) :
    (s.removeTerminal d name).2.books = s.books := by
  unfold removeTerminal
  simp only
  split
  · exact s.books_setTerminals d _ (by simp [Event.farewell?])
  · rfl

section Kind

variable [Kind B]

/-! ### Telling -/

/-- A notice that does not say that the node is gone. -/
theorem farewell?_tell {n : Node (Numbered B)} {notice : Notice} (h : notice ≠ .removed) :
    ∀ e ∈ (n.tell notice).2, e.farewell? = none := by
  unfold Node.tell
  split
  · intro e he
    rw [List.mem_singleton.1 he]
    unfold Event.farewell?
    split
    · next heq =>
      cases heq
      exact absurd rfl h
    · rfl
  · exact fun e he => nomatch he

omit [Kind B] in
theorem number_tell [Kind B] (n : Node (Numbered B)) (notice : Notice) :
    (n.tell notice).1.behavior.map Numbered.number = n.behavior.map Numbered.number := by
  unfold Node.tell
  split
  · next b hb => rw [hb]; rfl
  · rfl

theorem books_tell {notice : Notice} (h : notice ≠ .removed) (id : NodeId) :
    (s.tell id notice).books = s.books := by
  unfold tell
  split
  · next n hn =>
    refine (books_logAll (farewell?_tell h)).trans (books_edit ?_)
    refine Graph.held_modifyNode fun m hm => ?_
    rw [Option.some.inj (hm.symm.trans hn)]
    exact number_tell n notice
  · rfl

theorem books_tellAll {notice : Notice} (h : notice ≠ .removed) (ids : List NodeId) :
    (s.tellAll ids notice).books = s.books := books_foldl (fun s id => s.books_tell h id) ids s

@[simp] theorem books_tellEnd (d : Direction) (id : NodeId) (slot : Nat) (connected : Bool)
    (link : Link) : (s.tellEnd d id slot connected link).books = s.books := by
  unfold tellEnd
  split
  · exact s.books_tell (by simp) id
  · rfl

@[simp] theorem books_announce (link : Link) (connected : Bool) :
    (s.announce link connected).books = s.books := by
  unfold announce
  refine (books_log rfl).trans ?_
  rw [books_tellEnd, books_tellEnd]

theorem books_start : s.start.books = s.books := by
  unfold start
  split
  · rfl
  · have hn : Notice.started ≠ .removed := nofun
    exact (books_tellAll _ hn _).trans ((books_log rfl).trans (books_edit rfl))

@[simp] theorem books_stop : s.stop.books = s.books := by
  unfold stop
  split
  · have hn : Notice.stopped ≠ .removed := nofun
    exact (books_tellAll _ hn _).trans ((books_log rfl).trans (books_edit rfl))
  · rfl

theorem books_setProperty (id : NodeId) (name : String) (value : Value) :
    (s.setProperty id name value).2.books = s.books := by
  have ht : (s.tell id (.propertyOffered name value)).books = s.books :=
    s.books_tell (by simp) id
  unfold setProperty
  split
  · show (ite _ _ _ : Session _ _).books = _
    split
    · exact ht
    · exact (books_storeProperty ..).trans ht
  · rfl

/-! ### Farewells -/

omit [Kind B] in
theorem held_get? (id : NodeId) : s.books.held.get? id =
    (s.graph.nodes.get? id).map fun n => n.behavior.map Numbered.number := Assoc.get?_mapValues ..

theorem books_bid (id : NodeId) :
    (s.tell id .removed).books = { s.books with farewells := s.books.bid id } := by
  unfold Books.bid
  rw [held_get?]
  unfold tell
  cases hn : s.graph.nodes.get? id with
  | none => rfl
  | some n =>
    have hg : (s.graph.modifyNode id fun _ => (n.tell .removed).1).held = s.graph.held := by
      refine Graph.held_modifyNode fun m hm => ?_
      rw [Option.some.inj (hm.symm.trans hn)]
      exact number_tell n _
    show (⟨(s.graph.modifyNode id fun _ => (n.tell .removed).1).held,
      ((n.tell .removed).2.reverse ++ s.events).filterMap _, _⟩ : Books) = _
    rw [hg]
    cases hb : n.behavior with
    | none =>
      simp only [Node.tell, hb, Option.map_some, Option.map_none]
      rfl
    | some b =>
      simp only [Node.tell, hb, Option.map_some]
      rfl

theorem books_extract (id : NodeId) : (s.extract id).2.books = s.books.strike id := by
  have hb := s.books_bid id
  have hheld : (s.tell id .removed).graph.held = s.graph.held := congrArg Books.held hb
  have hstruck : { s.books with held := (s.tell id .removed).graph.held.erase id
                                farewells := s.books.bid id } = s.books.strike id := by
    rw [hheld]
    rfl
  unfold extract
  simp only
  split
  · refine Eq.trans ?_ hstruck
    show (⟨Assoc.mapValues (Assoc.erase _ id) _, (s.tell id .removed).books.farewells,
      (s.tell id .removed).books.signed⟩ : Books) = _
    rw [Assoc.mapValues_erase, hb]
    rfl
  · next hn =>
    have hk : id ∉ (s.tell id .removed).graph.held.keys := by
      show id ∉ (Assoc.mapValues _ _).keys
      rw [Assoc.keys_mapValues, ← Assoc.get?_eq_none_iff]
      exact hn
    rw [← hstruck, Assoc.erase_of_notMem hk, hheld]
    exact hb

/-- Telling several nodes that they are gone says farewell as striking them off does. -/
theorem books_bids {ids : List NodeId} (hn : ids.Nodup) {k : Books}
    (hheld : ∀ id ∈ ids, k.held.get? id = s.books.held.get? id)
    (hfarewells : k.farewells = s.books.farewells) :
    (s.tellAll ids .removed).books =
      { s.books with farewells := (ids.foldl Books.strike k).farewells } := by
  induction ids generalizing s k with
  | nil =>
    rw [List.foldl_nil, hfarewells]
    rfl
  | cons id ids ih =>
    rw [List.nodup_cons] at hn
    have hb := s.books_bid id
    have hbid : (k.strike id).farewells = (s.tell id .removed).books.farewells := by
      rw [hb]
      show k.bid id = s.books.bid id
      unfold Books.bid
      rw [hheld id (List.mem_cons_self ..), hfarewells]
    have hrest : ∀ i ∈ ids, (k.strike id).held.get? i = (s.tell id .removed).books.held.get? i := by
      intro i hi
      show (k.held.erase id).get? i = _
      rw [hb, Assoc.get?_erase, if_neg fun h : i = id => hn.1 (h ▸ hi)]
      exact hheld i (List.mem_cons_of_mem id hi)
    refine (ih (s.tell id .removed) hn.2 hrest hbid).trans ?_
    rw [hb]
    rfl

/-! ### Links -/

@[simp] theorem books_unlink (k : LinkId) : (s.unlink k).books = s.books := by
  unfold unlink
  split
  · exact (books_announce ..).trans (books_edit (s.graph.held_dropLink k _))
  · rfl

@[simp] theorem books_disconnectInput (id : NodeId) (slot : Nat) :
    (s.disconnectInput id slot).2.books = s.books := by
  unfold disconnectInput
  split
  · simp
  · rfl

@[simp] theorem books_disconnectOutput (id : NodeId) (slot : Nat) (target : Option NodeId) :
    (s.disconnectOutput id slot target).2.books = s.books := by
  unfold disconnectOutput
  split
  · rfl
  · simp [books_foldl fun s k => books_unlink s k]

theorem books_removeLink (k : LinkId) : (s.removeLink k).2.books = s.books := by
  unfold removeLink
  split
  · simp
  · rfl

theorem books_link (origin : NodeId) (originSlot : Nat) (target : NodeId) (targetSlot : Nat)
    (input : Input) : (s.link origin originSlot target targetSlot input).2.books = s.books := by
  unfold link
  simp only [books_changed, books_invalidate, books_announce]
  refine (books_edit (Graph.held_addLink _ _)).trans ?_
  -- the link that fed the input goes
  split
  · exact s.books_unlink _
  · rfl

theorem books_tryConnect (origin : NodeId) (originSlot : Nat) (target : NodeId) (targetSlot : Nat) :
    (s.tryConnect origin originSlot target targetSlot).2.books = s.books := by
  unfold tryConnect
  split
  · rfl
  · next output input _ =>
    have ht : (s.tell target (.linkOffered targetSlot output.type)).books = s.books :=
      s.books_tell (by simp) target
    simp only
    split
    · exact ht
    · split
      · exact ht
      · exact (books_link ..).trans ht

theorem books_connectByName (origin : NodeId) (output : String) (target : NodeId) (input : String) :
    (s.connectByName origin output target input).2.books = s.books := by
  unfold connectByName
  split
  · rfl
  · exact s.books_tryConnect ..

theorem books_removeInput (id : NodeId) (slot : Nat) : (s.removeInput id slot).2.books = s.books := by
  unfold removeInput
  split
  · simp only [books_changed, books_endBatch, books_markStale]
    refine (books_edit (Graph.held_eraseInput _ id slot)).trans ?_
    simp
  · rfl

theorem books_removeOutput (id : NodeId) (slot : Nat) :
    (s.removeOutput id slot).2.books = s.books := by
  unfold removeOutput
  split
  · simp only [books_changed, books_endBatch, books_markStale]
    refine (books_edit (Graph.held_eraseOutput _ id slot)).trans ?_
    simp
  · rfl

@[simp] theorem books_isolate (id : NodeId) (n : Node (Numbered B)) :
    (s.isolate id n).books = s.books := by
  unfold isolate
  rw [books_foldl fun s slot => s.books_disconnectOutput id slot none,
    books_foldl fun s slot => s.books_disconnectInput id slot]

/-! ### Taking nodes away -/

theorem books_remove (id : NodeId) : (s.remove id).2.books = s.books.strike id := by
  unfold remove
  split
  · next n hn =>
    have he : ((s.beginBatch.isolate id n).extract id).2.books = s.books.strike id := by
      rw [books_extract, books_isolate, books_beginBatch]
    have hlog : ∀ t : Session (Numbered B) (Roster σ), (t.log (.nodeRemoved id)).books = t.books :=
      fun _ => books_log rfl
    simp only [books_changed, hlog, books_endBatch, books_markStale, he]
  · next hn =>
    have hget : s.books.held.get? id = none := by rw [held_get?, hn]; rfl
    have hk : id ∉ s.books.held.keys := (Assoc.get?_eq_none_iff ..).1 hget
    unfold Books.strike Books.bid
    rw [hget, Assoc.erase_of_notMem hk]

/-- Clearing a graph strikes its nodes off, oldest first. -/
theorem books_clear : s.clear.books = s.graph.nodes.keys.foldl Books.strike s.books := by
  have hkeys : s.stop.graph.nodes.keys = s.graph.nodes.keys := by
    have h := congrArg (fun k : Books => k.held.keys) s.books_stop
    exact (Assoc.keys_mapValues ..).symm.trans (h.trans (Assoc.keys_mapValues ..))
  have hb := books_bids s.stop s.stop.graph.nodes.nodup_keys (k := s.books)
    (fun id _ => by rw [books_stop]) (by rw [books_stop])
  rw [hkeys] at hb
  -- nothing is held once all are struck off
  have hempty : (s.graph.nodes.keys.foldl Books.strike s.books).held = ∅ := by
    have hk : (s.graph.nodes.keys.foldl Books.strike s.books).held.keys = [] := by
      rw [Books.keys_strikes, List.filter_eq_nil_iff]
      intro i hi
      have hm : i ∈ s.graph.nodes.keys := (Assoc.keys_mapValues ..) ▸ hi
      simp [hm]
    exact Assoc.ext_entries (List.map_eq_nil_iff.1 hk)
  have hsigned := Books.signed_strikes s.graph.nodes.keys s.books
  refine (books_changed _).trans ?_
  show (⟨∅, (s.stop.tellAll s.stop.graph.nodes.keys .removed).books.farewells,
    (s.stop.tellAll s.stop.graph.nodes.keys .removed).books.signed⟩ : Books) = _
  rw [hkeys, hb, books_stop]
  generalize s.graph.nodes.keys.foldl Books.strike s.books = k at hempty hsigned
  cases k
  cases hempty
  cases hsigned
  rfl

/-! ### Copies and loaded nodes -/

theorem farewell?_offerProperties (ps : List (String × Value)) (n : Node (Numbered B)) :
    ∀ e ∈ (n.offerProperties ps).2, e.farewell? = none := by
  induction ps generalizing n with
  | nil => exact fun e he => nomatch he
  | cons p ps ih =>
    intro e he
    rcases List.mem_append.1 he with he | he
    · exact farewell?_tell (by simp) e he
    · exact ih _ e he

theorem books_cloneNode (id : NodeId) : (s.cloneNode id).2.books = s.books := by
  unfold cloneNode
  split
  · refine books_logAll fun e he => ?_
    rcases List.mem_append.1 he with he | he
    · exact farewell?_offerProperties _ _ e he
    · exact farewell?_tell (by simp) e he
  · rfl

theorem number_offerProperties (ps : List (String × Value)) (n : Node (Numbered B)) :
    (n.offerProperties ps).1.behavior.map Numbered.number = n.behavior.map Numbered.number := by
  have hoffer : ∀ (n : Node (Numbered B)) name value,
      (n.offerProperty name value).1.behavior.map Numbered.number =
        n.behavior.map Numbered.number := by
    intro n name value
    refine Eq.trans ?_ (number_tell n (.propertyOffered name value))
    show (ite _ _ _ : Node _).behavior.map _ = _
    split <;> rfl
  induction ps generalizing n with
  | nil => rfl
  | cons p ps ih => exact (ih _).trans (hoffer n p.1 p.2)

@[simp] theorem books_adopt (table : Renaming LinkId) (id : NodeId) (r : NodeRecord) :
    (s.adopt table id r).2.books = s.books := by
  unfold adopt
  split
  · next n hn =>
    refine (books_logAll (farewell?_offerProperties _ n)).trans (books_edit ?_)
    refine Graph.held_modifyNode fun m hm => ?_
    rw [Option.some.inj (hm.symm.trans hn)]
    exact number_offerProperties _ n
  · rfl

@[simp] theorem books_introduce (id : NodeId) (r : NodeRecord) :
    (s.introduce id r).books = s.books :=
  (books_tell _ (by simp) id).trans (books_foldl (fun s _ => s.books_tellEnd ..) _ s)

theorem books_adoptAll (table : Renaming LinkId) (placed : List (NodeId × NodeRecord)) :
    (s.adoptAll table placed).2.books = s.books := by
  have hfold : ∀ r : Bool × Session (Numbered B) (Roster σ),
      (placed.foldl (adoptNext table) r).2.books = r.2.books := by
    induction placed with
    | nil => exact fun _ => rfl
    | cons e placed ih => exact fun r => (ih _).trans (r.2.books_adopt ..)
  exact hfold (false, s)

theorem books_introduceAll (placed : List (NodeId × NodeRecord)) :
    (placed.foldl (fun s e => s.introduce e.1 e.2) s).books = s.books := by
  induction placed generalizing s with
  | nil => rfl
  | cons e placed ih => exact (ih _).trans (s.books_introduce e.1 e.2)

omit [Kind B] in
theorem books_finishLoad (snapshot : Snapshot) : (s.finishLoad snapshot).books = s.books := by
  refine (books_restructure rfl).trans ?_
  simp only [books_endBatch, books_markStale]
  exact books_edit rfl

theorem books_settleLoad (snapshot : Snapshot) (placed : List (NodeId × NodeRecord))
    (nodes : Renaming NodeId) (report : LoadReport) :
    (s.settleLoad snapshot placed nodes report).2.books = s.books := by
  obtain ⟨load, hload⟩ : ∃ load, s.graph.mergeLinks nodes snapshot.links = load := ⟨_, rfl⟩
  obtain ⟨merged, hmerged⟩ : ∃ merged, (s.edit fun _ => { load.graph with
    nextLink := max load.graph.nextLink snapshot.nextLink }) = merged := ⟨_, rfl⟩
  obtain ⟨adopted, hadopted⟩ : ∃ adopted, merged.adoptAll load.table placed = adopted := ⟨_, rfl⟩
  obtain ⟨repair, hrepair⟩ : ∃ repair,
    adopted.2.graph.repair (report.prunedLinks ++ load.pruned) = repair := ⟨_, rfl⟩
  have hm : merged.books = s.books := by
    subst hmerged hload
    exact books_edit (s.graph.held_mergeLinks nodes snapshot.links)
  have ha : adopted.2.books = merged.books := by
    subst hadopted
    exact merged.books_adoptAll load.table placed
  have hr : (adopted.2.edit fun _ => repair.graph).books = adopted.2.books := by
    subst hrepair
    exact books_edit (Graph.held_repair _ _)
  subst hmerged
  rw [settleLoad_of s hload hadopted hrepair]
  exact (books_finishLoad _ snapshot).trans <| (books_introduceAll _ placed).trans <|
    hr.trans (ha.trans hm)

end Kind

end Session

/-! ## Edits -/

namespace Edit

/-- The nodes that an edit takes away. -/
def taken (g : Graph B) : Edit → List NodeId
  | remove id => [id]
  | clear => g.nodes.keys
  | _ => []

variable [Kind B]

theorem books_removeGroup (s : Session (Numbered B) (Roster σ)) (i : Nat) :
    (apply s (removeGroup i)).2.books = s.books := by
  unfold apply
  cases h : takeGroup s.graph.groups i with
  | none => simp only [h]
  | some taken => simp only [h]; exact Session.books_restructure rfl

/-- An edit strikes off the nodes that it takes away, and that is all. -/
theorem books_apply (s : Session (Numbered B) (Roster σ)) (e : Edit) :
    (e.apply s).2.books = (e.taken s.graph).foldl Books.strike s.books := by
  cases e with
  | remove id => exact s.books_remove id
  | clear => exact s.books_clear
  | tryConnect origin originSlot target targetSlot => exact s.books_tryConnect ..
  | connectByName origin output target input => exact s.books_connectByName ..
  | disconnectInput id slot => exact s.books_disconnectInput id slot
  | disconnectOutput id slot target => exact s.books_disconnectOutput id slot target
  | removeLink id => exact s.books_removeLink id
  | addInput id name type => exact s.books_addInput id name type
  | addOutput id name type => exact s.books_addOutput id name type
  | removeInput id slot => exact s.books_removeInput id slot
  | removeOutput id slot => exact s.books_removeOutput id slot
  | renameSlot d id slot name => exact s.books_renameSlot d id slot name
  | setProperty id name value => exact s.books_setProperty id name value
  | storeProperty id name value => exact s.books_storeProperty id name value
  | declareProperty id info => exact s.books_declareProperty id info
  | change id c => exact s.books_change id c
  | align id grid =>
    refine Session.books_edit (Graph.held_modifyNode_apart fun n => ?_)
    obtain ⟨pos, h⟩ := n.alignToGrid_eq grid
    rw [h]
  | setOutputData id slot value =>
    exact Session.books_edit (s.graph.held_setOutputData id slot value)
  | clearTriggered id slot only => exact s.books_clearTriggered id slot only
  | removeGroup i => exact books_removeGroup s i
  | arrange margin =>
    exact Session.books_restructure (s.graph.held_arrange margin)
  | beginBatch => exact s.books_beginBatch
  | endBatch => exact s.books_endBatch
  | updateOrder => exact Session.books_edit s.graph.held_updateOrder
  | start => exact s.books_start
  | stop => exact s.books_stop
  | addTerminal d name type value => exact s.books_setTerminals d _ (by simp [Event.farewell?])
  | setTerminalValue d name value =>
    exact Session.books_edit (Graph.held_of_nodes (s.graph.nodes_withTerminals d _))
  | renameTerminal d old new => exact s.books_renameTerminal d old new
  | retypeTerminal d name type => exact s.books_retypeTerminal d name type
  | removeTerminal d name => exact s.books_removeTerminal d name
  | cloneNode id => exact s.books_cloneNode id
  | addGroup group => exact Session.books_restructure rfl
  | clearAllTriggered => exact Session.books_edit rfl
  | setConfig key value => exact Session.books_edit rfl
  | removeConfig key => exact Session.books_edit rfl
  | setSettings settings => exact Session.books_edit rfl

end Edit

end Dataflow
