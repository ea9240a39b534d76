/-
  Which links an event crosses.

  Firing an output copies the list of its links, and each of them is asked for when its turn comes:
  a link that is gone by then is passed over, the others deliver (`Delivers`).  Bodies may have done
  anything to the graph meanwhile.  As an identity is all that was copied, a link that delivers is
  the one that was fired over unless something gave its identity away once more, and that takes a
  clearing or a snapshot (`Graph.Path.not_issued`).

  Firing the outputs of a node copies their places, and asks for the links at a place when its turn
  comes (`Volleys`).  By then another output may be there, or another link (`Shifter.astray`).  Where
  bodies make no links and remove no outputs, all links that deliver were there when the call began,
  for the lists of links only get shorter (`Graph.Narrowed`).
-/

import Dataflow.Proofs.Unspent

namespace Dataflow

variable {B σ α : Type}

/-! ## Deliveries -/

/-- A link over which a call delivers, and the session just before. -/
structure Crossing (B σ : Type) where
  link : LinkId
  before : Session B σ

/-- The deliveries over links, first to last, up to the first failure. -/
inductive Delivers [Behavior B σ] (run : Runner B σ) (payload : Value) :
    List LinkId → Session B σ → List (Crossing B σ) → Session B σ → Prop where
  | done (s : Session B σ) : Delivers run payload [] s [] s
  /-- A link that is gone is passed over. -/
  | gone {k : LinkId} {ks : List LinkId} {s s' : Session B σ} {xs : List (Crossing B σ)}
    (hk : k ∉ s.graph.links.keys) (h : Delivers run payload ks s xs s') :
    Delivers run payload (k :: ks) s xs s'
  | crossed {k : LinkId} {ks : List LinkId} {s t s' : Session B σ} {xs : List (Crossing B σ)}
    {ran : Bool} (hk : k ∈ s.graph.links.keys)
    (hr : Engine.deliver run payload k s = some (.ok ran, t)) (h : Delivers run payload ks t xs s') :
    Delivers run payload (k :: ks) s (⟨k, s⟩ :: xs) s'
  | failed {k : LinkId} {ks : List LinkId} {s t : Session B σ} {e : GraphError}
    (hk : k ∈ s.graph.links.keys) (hr : Engine.deliver run payload k s = some (.error e, t)) :
    Delivers run payload (k :: ks) s [⟨k, s⟩] t

/-- The links that leave an output. -/
def Graph.fan (g : Graph B) (id : NodeId) (slot : Nat) : List LinkId :=
  ((g.output? id slot).map Output.links).getD []

theorem Graph.lists_iff_mem_fan {g : Graph B} {id : NodeId} {slot : Nat} {k : LinkId} :
    g.Lists id slot k ↔ k ∈ g.fan id slot := by
  unfold Graph.Lists Graph.fan
  cases g.output? id slot with
  | none => simp
  | some o => simp

/-- An output that is fired, what crosses its links, and how it ends. -/
structure Volley (B σ : Type) where
  slot : Nat
  before : Session B σ
  crossings : List (Crossing B σ)
  answer : Except GraphError Nat
  after : Session B σ

/-- The payload goes over the links that the output has when it is fired, or over one of them. -/
structure Volley.Fired [Behavior B σ] (run : Runner B σ) (id : NodeId) (payload : Value)
    (only : Option LinkId) (v : Volley B σ) : Prop where
  fired : Engine.triggerSlot run id v.slot payload only v.before = some (v.answer, v.after)
  delivers : Delivers run payload
    ((v.before.graph.fan id v.slot).filter fun k => only.all (· = k)) v.before v.crossings v.after

/-- Outputs of a node are fired one after the other, up to the first failure. -/
inductive Volleys [Behavior B σ] (run : Runner B σ) (id : NodeId) (payload : Value) :
    List Nat → Session B σ → List (Volley B σ) → Session B σ → Prop where
  | done (s : Session B σ) : Volleys run id payload [] s [] s
  | fired {v : Volley B σ} {slots : List Nat} {vs : List (Volley B σ)} {s' : Session B σ} {n : Nat}
    (hv : v.Fired run id payload none) (hn : v.answer = .ok n)
    (h : Volleys run id payload slots v.after vs s') :
    Volleys run id payload (v.slot :: slots) v.before (v :: vs) s'
  | failed {v : Volley B σ} {slots : List Nat} {e : GraphError}
    (hv : v.Fired run id payload none) (he : v.answer = .error e) :
    Volleys run id payload (v.slot :: slots) v.before [v] v.after

/-! ## From runs to deliveries -/

section Runs

variable [Behavior B σ] {run : Runner B σ} {payload : Value}

namespace Engine

theorem exists_delivers (ks : List LinkId) {count : Nat} {s s' : Session B σ}
    {answer : Except GraphError Nat} (hr : deliverAll run payload ks count s = some (answer, s')) :
    ∃ xs, Delivers run payload ks s xs s' := by
  induction ks generalizing s count with
  | nil =>
    cases hr
    exact ⟨[], .done _⟩
  | cons k ks ih =>
    obtain ⟨⟨ran, t⟩, hd, hrest⟩ := Option.bind_eq_some_iff.1
      (show (deliver run payload k s).bind _ = _ from hr)
    by_cases hk : k ∈ s.graph.links.keys
    · cases ran with
      | error e =>
        cases hrest
        exact ⟨_, .failed hk hd⟩
      | ok ran =>
        obtain ⟨xs, h⟩ := ih hrest
        exact ⟨_, .crossed hk hd h⟩
    · have hnone : deliver run payload k s = some (.ok false, s) := by
        unfold deliver
        rw [get_bind_apply, (Assoc.get?_eq_none_iff _ k).2 hk]
        rfl
      rw [hnone] at hd
      cases hd
      obtain ⟨xs, h⟩ := ih hrest
      exact ⟨xs, .gone hk h⟩

theorem exists_volley {id : NodeId} {slot : Nat} {only : Option LinkId} {s s' : Session B σ}
    {answer : Except GraphError Nat}
    (hr : triggerSlot run id slot payload only s = some (answer, s')) :
    ∃ xs, (⟨slot, s, xs, answer, s'⟩ : Volley B σ).Fired run id payload only := by
  suffices hd : ∃ xs, Delivers run payload
      ((s.graph.fan id slot).filter fun k => only.all (· = k)) s xs s' by
    obtain ⟨xs, h⟩ := hd
    exact ⟨xs, hr, h⟩
  have hfan : s.graph.fan id slot =
      (((s.graph.nodes.get? id).bind fun n => n.outputs[slot]?).map Output.links).getD [] := rfl
  unfold triggerSlot at hr
  rw [get_bind_apply] at hr
  cases hn : s.graph.nodes.get? id with
  | none =>
    rw [hn] at hr hfan
    cases hr
    rw [hfan]
    exact ⟨[], .done s⟩
  | some n =>
    simp only [hn, Option.bind_some] at hr hfan
    cases ho : n.outputs[slot]? with
    | none =>
      rw [ho] at hr hfan
      cases hr
      rw [hfan]
      exact ⟨[], .done s⟩
    | some o =>
      simp only [ho, Option.map_some, Option.getD_some] at hr hfan
      rw [hfan]
      exact exists_delivers _ hr

theorem exists_volleys (id : NodeId) (slots : List Nat) {count : Nat} {s s' : Session B σ}
    {answer : Except GraphError Nat}
    (hr : triggerSlots run id payload slots count s = some (answer, s')) :
    ∃ vs, Volleys run id payload slots s vs s' := by
  induction slots generalizing s count with
  | nil =>
    cases hr
    exact ⟨[], .done _⟩
  | cons slot slots ih =>
    obtain ⟨⟨shot, t⟩, hs, hrest⟩ := Option.bind_eq_some_iff.1
      (show (triggerSlot run id slot payload none s).bind _ = _ from hr)
    obtain ⟨xs, hv⟩ := exists_volley hs
    cases shot with
    | error e =>
      cases hrest
      exact ⟨_, .failed hv rfl⟩
    | ok n =>
      obtain ⟨vs, h⟩ := ih hrest
      exact ⟨_, .fired hv rfl h⟩

end Engine

/-! ## What holds whenever an event is about to cross -/

theorem Delivers.mem {ks : List LinkId} {s s' : Session B σ} {xs : List (Crossing B σ)}
    (h : Delivers run payload ks s xs s') :
    ∀ x ∈ xs, x.link ∈ ks ∧ x.link ∈ x.before.graph.links.keys := by
  induction h with
  | done s =>
    intro x hx
    cases hx
  | gone _ _ ih =>
    intro x hx
    exact (ih x hx).imp_left (List.mem_cons_of_mem _)
  | crossed hk _ _ ih =>
    intro x hx
    rcases List.mem_cons.1 hx with rfl | hx
    · exact ⟨List.mem_cons_self .., hk⟩
    · exact (ih x hx).imp_left (List.mem_cons_of_mem _)
  | failed hk _ =>
    intro x hx
    rw [List.mem_singleton.1 hx]
    exact ⟨List.mem_cons_self .., hk⟩

section Kept

variable {I : Graph B → Prop} (hd : ∀ k, Keeps I (Engine.deliver run payload k))
include hd

theorem Delivers.keeps {ks : List LinkId} {s s' : Session B σ} {xs : List (Crossing B σ)}
    (h : Delivers run payload ks s xs s') (hs : I s.graph) : ∀ x ∈ xs, I x.before.graph := by
  induction h with
  | done s =>
    intro x hx
    cases hx
  | gone _ _ ih => exact ih hs
  | crossed _ hr _ ih =>
    intro x hx
    rcases List.mem_cons.1 hx with rfl | hx
    · exact hs
    · exact ih (hd _ _ hs _ _ hr) x hx
  | failed _ _ =>
    intro x hx
    rw [List.mem_singleton.1 hx]
    exact hs

theorem Volleys.keeps {id : NodeId} {slots : List Nat} {s s' : Session B σ}
    {vs : List (Volley B σ)} (h : Volleys run id payload slots s vs s') (hs : I s.graph) :
    ∀ v ∈ vs, I v.before.graph ∧ ∀ x ∈ v.crossings, I x.before.graph := by
  induction h with
  | done s =>
    intro v hv
    cases hv
  | fired hv _ _ ih =>
    intro w hw
    rcases List.mem_cons.1 hw with rfl | hw
    · exact ⟨hs, hv.delivers.keeps hd hs⟩
    · have hafter := Engine.keeps_triggerSlot hd id _ none _ hs _ _ hv.fired
      exact ih hafter w hw
  | failed hv _ =>
    intro w hw
    rw [List.mem_singleton.1 hw]
    exact ⟨hs, hv.delivers.keeps hd hs⟩

end Kept

theorem Volleys.fires {id : NodeId} {slots : List Nat} {s s' : Session B σ} {vs : List (Volley B σ)}
    (h : Volleys run id payload slots s vs s') :
    ∀ v ∈ vs, v.slot ∈ slots ∧ v.Fired run id payload none := by
  induction h with
  | done s =>
    intro v hv
    cases hv
  | fired hv _ _ ih =>
    intro w hw
    rcases List.mem_cons.1 hw with rfl | hw
    · exact ⟨List.mem_cons_self .., hv⟩
    · exact (ih w hw).imp_left (List.mem_cons_of_mem _)
  | failed hv _ =>
    intro w hw
    rw [List.mem_singleton.1 hw]
    exact ⟨List.mem_cons_self .., hv⟩

end Runs

/-! ## Since a link was fired over -/

namespace Graph

variable [Kind B] {g g' : Graph B} {c : List (Moment B)} {k : LinkId}

/-- A link that lives in the end has lived all along, unless something gave its identity away. -/
theorem Path.lived (h : Path g c g') (hk : k ∈ g'.links.keys)
    (hc : ∀ m ∈ c, m.stroke.link? ≠ some k) :
    k ∈ g.links.keys ∧ ∀ m ∈ c, k ∈ m.graph.links.keys := by
  induction c generalizing g with
  | nil =>
    cases h
    exact ⟨hk, List.forall_mem_nil _⟩
  | cons m c ih =>
    obtain ⟨hm, hrest⟩ := ih h.2 fun x hx => hc x (List.mem_cons_of_mem m hx)
    refine ⟨?_, List.forall_mem_cons.2 ⟨hm, hrest⟩⟩
    exact (h.1.tally.links k hm).resolve_right (hc m (List.mem_cons_self ..))

/-- The counter for links is past those that live, and goes back only when everything is removed. -/
theorem Path.not_issued (h : Path g c g') (hk : k.number < g.nextLink)
    (hc : ∀ m ∈ c, m.stroke ≠ .cleared) : ∀ m ∈ c, m.stroke ≠ .linkIssued k := by
  induction c generalizing g with
  | nil => exact List.forall_mem_nil _
  | cons m c ih =>
    have hclear := hc m (List.mem_cons_self ..)
    have hnext : k.number < m.graph.nextLink := Nat.lt_of_lt_of_le hk (h.1.tally.floor hclear).2
    refine List.forall_mem_cons.2 ⟨fun hissued => ?_, ih h.2 hnext fun x hx => hc x (List.mem_cons_of_mem m hx)⟩
    have hfloor := h.1.tally.linkIssued k hissued
    exact Nat.lt_irrefl _ (Nat.lt_of_lt_of_le hk hfloor)

/-- A link of the graph that delivers later is the same link still: it lived all along.  Only when
everything was removed in between, or a link of a snapshot came under its identity, may it be
another one. -/
structure Outlives (g : Graph B) (k : LinkId) (g' : Graph B) : Prop where
  path : g.Reaches g'
  live : k ∈ g'.links.keys
  lasting : ∀ c, g.Path c g' →
    (∀ m ∈ c, m.stroke ≠ .cleared ∧ m.stroke ≠ .linkGranted k ∧
      ∀ before, m.stroke ≠ .linkRenewed k before) →
    ∀ m ∈ c, k ∈ m.graph.links.keys

theorem Reaches.outlives (h : g.Reaches g') (hk : k.number < g.nextLink) (hlive : k ∈ g'.links.keys) :
    g.Outlives k g' where
  path := h
  live := hlive
  lasting c hc hnone := by
    have hissued := hc.not_issued hk fun m hm => (hnone m hm).1
    refine (hc.lived hlive fun m hm hgiven => ?_).2
    obtain ⟨-, hgranted, hrenewed⟩ := hnone m hm
    cases hs : m.stroke with
    | linkIssued i =>
      rw [hs] at hgiven
      cases hgiven
      exact hissued m hm hs
    | linkGranted i =>
      rw [hs] at hgiven
      cases hgiven
      exact hgranted hs
    | linkRenewed i before =>
      rw [hs] at hgiven
      cases hgiven
      exact hrenewed before hs
    | _ =>
      rw [hs] at hgiven
      cases hgiven

end Graph

namespace Engine

/-- However deeply bodies are nested, they keep what the contract that they obey keeps. -/
theorem keeps_runner [Behavior B σ] {K : Contract B} (hK : Lawful (σ := σ) K)
    (hb : ∀ b id task, (Behavior.body b id task : Body B σ (Outcome B)).Obeys K) (depth : Nat)
    (b : B) (id : NodeId) (task : Task) :
    Keeps K.keeps (runner (B := B) depth (Behavior.body b id task)) := by
  cases depth with
  | zero =>
    intro s _ out s' hr
    cases hr
  | succ depth => exact Body.keeps_run (honoured_runner hK hb depth) (hb b id task)

theorem reaches_deliver [Behavior B σ] (g : Graph B) (depth : Nat) (payload : Value) (k : LinkId) :
    Keeps g.Reaches (deliver (σ := σ) (runner depth) payload k) := by
  refine even_deliver g.even_reaches (fun id task s hs => ?_) payload k
  refine keeps_entered g.aloof_reaches hs fun b _ => ?_
  exact keeps_runner (lawful_charted g) (fun _ _ _ => Body.obeys_charted g _) depth b id task

end Engine

/-! ## Lists that only get shorter -/

namespace Graph

/-- Outputs list nothing that they did not list before. -/
def Narrowed (g g' : Graph B) : Prop := ∀ id slot k, g'.Lists id slot k → g.Lists id slot k

variable {g g' g'' : Graph B}

theorem Narrowed.refl (g : Graph B) : g.Narrowed g := fun _ _ _ h => h

theorem Narrowed.trans (h : g.Narrowed g') (h' : g'.Narrowed g'') : g.Narrowed g'' :=
  fun id slot k hk => h id slot k (h' id slot k hk)

theorem Narrowed.of_wiring (h : g'.wiring = g.wiring) : g.Narrowed g' := by
  intro id slot k hk
  rw [lists_iff, fan_of_wiring h, ← lists_iff] at hk
  exact hk

theorem Narrowed.of_output? (h : ∀ id slot, g'.output? id slot = g.output? id slot) :
    g.Narrowed g' := by
  intro id slot k hk
  unfold Lists at hk ⊢
  rwa [h] at hk

theorem narrowed_dropLink (g : Graph B) (k : LinkId) (l : Link) : g.Narrowed (g.dropLink k l) := by
  rintro id slot i ⟨o', ho', hi⟩
  rw [output?_dropLink] at ho'
  obtain ⟨o, ho, rfl⟩ := Option.map_eq_some_iff.1 ho'
  refine ⟨o, ho, ?_⟩
  split at hi
  · exact List.mem_of_mem_filter hi
  · exact hi

theorem narrowed_addOutput (g : Graph B) (id : NodeId) (name : String) (type : SlotType) :
    g.Narrowed (g.modifyNode id (·.addOutput name type)) := by
  rintro i slot k ⟨o, ho, hk⟩
  rcases g.output?_addOutput id name type i slot with h | ⟨h, -⟩
  · exact ⟨o, h ▸ ho, hk⟩
  · rw [h] at ho
    cases ho
    cases hk

/-- A new node brings no links. -/
theorem narrowed_place (g : Graph B) {n : Node B} (hn : ∀ o ∈ n.outputs, o.links = []) (id : NodeId)
    (next : Nat) : g.Narrowed (g.place n id next) := by
  rintro i slot k ⟨o, ho, hk⟩
  obtain ⟨m, hm, hslot⟩ := node_of_output ho
  rcases node_of_place hm with ⟨-, pos, rfl⟩ | ⟨-, hold⟩
  · rw [hn o (List.mem_of_getElem? hslot)] at hk
    cases hk
  · exact ⟨o, (output_of_node hold slot).trans hslot, hk⟩

theorem narrowed_erase (g : Graph B) (id : NodeId) :
    g.Narrowed { g with nodes := g.nodes.erase id } := by
  rintro i slot k ⟨o, ho, hk⟩
  obtain ⟨m, hm, hslot⟩ := node_of_output ho
  have hold : g.nodes.get? i = some m := Assoc.get?_of_get?_erase hm
  exact ⟨o, (output_of_node hold slot).trans hslot, hk⟩

end Graph

namespace Session

open Graph (Narrowed)

variable [Kind B] (s : Session B σ)

theorem narrowed_unlink (k : LinkId) : s.graph.Narrowed (s.unlink k).graph := by
  cases hl : s.graph.links.get? k with
  | none =>
    rw [unlink_of_none hl]
    exact .refl _
  | some l => exact (s.graph.narrowed_dropLink k l).trans (.of_wiring (wiring_unlink hl))

theorem narrowed_unlinks (ks : List LinkId) : s.graph.Narrowed (ks.foldl unlink s).graph := by
  induction ks generalizing s with
  | nil => exact .refl _
  | cons k ks ih => exact (s.narrowed_unlink k).trans (ih _)

theorem narrowed_disconnectInput (id : NodeId) (slot : Nat) :
    s.graph.Narrowed (s.disconnectInput id slot).2.graph := by
  rcases s.disconnectInput_wiring id slot with ⟨-, he⟩ | ⟨k, -, hw⟩
  · rw [he]
    exact .refl _
  · exact (s.narrowed_unlink k).trans (.of_wiring hw)

theorem narrowed_disconnectOutput (id : NodeId) (slot : Nat) (target : Option NodeId) :
    s.graph.Narrowed (s.disconnectOutput id slot target).2.graph :=
  (s.narrowed_unlinks _).trans (.of_wiring (s.disconnectOutput_wiring id slot target))

theorem narrowed_removeInput (id : NodeId) (slot : Nat) :
    s.graph.Narrowed (s.removeInput id slot).2.graph := by
  have hcut := s.beginBatch.narrowed_disconnectInput id slot
  unfold removeInput
  split
  · revert hcut
    simp only
    generalize (s.beginBatch.disconnectInput id slot).2 = cut
    intro hcut
    have hgone : cut.graph.Narrowed (cut.graph.eraseInput id slot) := by
      cases hn : cut.graph.nodes.get? id with
      | none =>
        unfold Graph.eraseInput
        rw [hn]
        exact .refl _
      | some n => exact .of_output? fun i j => Graph.output?_eraseInput hn slot i j
    exact (hcut.trans hgone).trans (.of_wiring (wiring_endBatch (markStale _)))
  · exact .refl _

theorem narrowed_remove (id : NodeId) : s.graph.Narrowed (s.remove id).2.graph := by
  have hin : ∀ (slots : List Nat) (s : Session B σ), s.graph.Narrowed
      (slots.foldl (fun s slot => (s.disconnectInput id slot).2) s).graph := by
    intro slots
    induction slots with
    | nil => exact fun s => .refl _
    | cons slot slots ih => exact fun s => (s.narrowed_disconnectInput id slot).trans (ih _)
  have hout : ∀ (slots : List Nat) (s : Session B σ), s.graph.Narrowed
      (slots.foldl (fun s slot => (s.disconnectOutput id slot none).2) s).graph := by
    intro slots
    induction slots with
    | nil => exact fun s => .refl _
    | cons slot slots ih => exact fun s => (s.narrowed_disconnectOutput id slot none).trans (ih _)
  have hextract : ∀ s : Session B σ, s.graph.Narrowed (s.extract id).2.graph := by
    intro s
    have ht : s.graph.Narrowed (s.tell id .removed).graph :=
      .of_wiring (Graph.wiring_of_skeleton (skeleton_tell s id .removed))
    unfold extract
    simp only
    split
    · exact ht.trans (Graph.narrowed_erase _ id)
    · exact ht
  unfold remove
  split
  · next n _ =>
    have hgone : s.graph.Narrowed ((s.beginBatch.isolate id n).extract id).2.graph :=
      ((hin _ s.beginBatch).trans (hout _ _)).trans (hextract _)
    revert hgone
    simp only
    generalize (s.beginBatch.isolate id n).extract id = taken
    intro hgone
    exact Narrowed.trans hgone (.of_wiring (wiring_endBatch taken.2.markStale))
  · exact .refl _

end Session

/-! ## Bodies that make no links -/

/-- A call that makes no links and removes no outputs. -/
def Call.Abstains : Call B → Prop
  | .edit (.tryConnect ..) | .edit (.connectByName ..) | .edit (.removeOutput ..) | .load .. => False
  | .add n => ∀ o ∈ n.outputs, o.links = []
  | _ => True

theorem Edit.narrowed_apply [Kind B] (s : Session B σ) {e : Edit}
    (h : (Call.edit e : Call B).Abstains) : s.graph.Narrowed (e.apply s).2.graph := by
  cases e with
  | remove id => exact s.narrowed_remove id
  | clear =>
    rintro id slot k ⟨o, ho, -⟩
    obtain ⟨n, hn, -⟩ := Graph.node_of_output ho
    cases hn
  | tryConnect | connectByName | removeOutput => exact h.elim
  | disconnectInput id slot => exact s.narrowed_disconnectInput id slot
  | disconnectOutput id slot target => exact s.narrowed_disconnectOutput id slot target
  | removeLink id =>
    show s.graph.Narrowed (s.removeLink id).2.graph
    unfold Session.removeLink
    split
    · exact (s.narrowed_unlink id).trans (.of_wiring (Session.wiring_invalidate _))
    · exact .refl _
  | addInput id name type =>
    show s.graph.Narrowed (s.addInput id name type).2.graph
    unfold Session.addInput
    split
    · have hout : ∀ i slot, (s.graph.modifyNode id (·.addInput name type)).output? i slot =
          s.graph.output? i slot := Graph.output?_modifyNode fun _ => rfl
      exact .of_output? hout
    · exact .refl _
  | addOutput id name type =>
    show s.graph.Narrowed (s.addOutput id name type).2.graph
    unfold Session.addOutput
    split
    · exact s.graph.narrowed_addOutput id name type
    · exact .refl _
  | removeInput id slot => exact s.narrowed_removeInput id slot
  | change id c => exact .of_wiring (Session.wiring_change s id c)
  | beginBatch => exact .of_wiring (Session.wiring_beginBatch s)
  | endBatch => exact .of_wiring (Session.wiring_endBatch s)
  | updateOrder => exact .of_wiring (Graph.wiring_updateOrder s.graph)
  | _ => exact .of_wiring (Graph.wiring_of_skeleton (skeleton_apply rfl s))

/-- Bodies make no links, and outputs list nothing that they did not list in a graph. -/
def abstaining (g : Graph B) : Contract B := ⟨g.Narrowed, Call.Abstains, fun _ _ => True⟩

theorem steady_narrowed (g : Graph B) : Steady g.Narrowed where
  frame _ _ h _ hg := hg.trans (.of_wiring (Graph.wiring_of_skeleton h))
  update g' hg := hg.trans (.of_wiring g'.wiring_updateOrder)

namespace Engine

theorem lawful_abstaining [Behavior B σ] (g : Graph B) : Lawful (σ := σ) (abstaining g) := by
  intro run hrun c hc s hs
  have hI := steady_narrowed g
  cases c with
  | edit e =>
    apply Ensures.total
    exact ⟨trivial, hs.trans (Edit.narrowed_apply s hc)⟩
  | add n =>
    have hplaced := hs.trans (s.graph.narrowed_place hc (s.graph.claimNode n.id).1 (s.graph.claimNode n.id).2)
    refine (insertNode_spec (aloof_of_steady hI) true hplaced fun b _ => hrun b _ .added).mono ?_
    rintro answer s' (⟨-, -, rfl⟩ | ⟨-, -, t, ht, hs'⟩)
    · exact ⟨trivial, hs⟩
    · refine ⟨trivial, ?_⟩
      rw [hs']
      exact ht.trans (.of_wiring (Session.wiring_invalidate t))
  | load snapshot keepOld => exact hc.elim
  | _ => exact (keeps_perform hI hrun (by trivial) s hs).mono fun _ _ h => ⟨trivial, h⟩

theorem narrowed_deliver [Behavior B σ] {g : Graph B}
    (hb : ∀ b id task, (Behavior.body b id task : Body B σ (Outcome B)).Obeys (abstaining g))
    (depth : Nat) (payload : Value) (k : LinkId) :
    Keeps g.Narrowed (deliver (σ := σ) (runner depth) payload k) :=
  even_deliver (steady_narrowed g).even
    (keeps_enter (steady_narrowed g) (keeps_runner (lawful_abstaining g) hb depth)) payload k

theorem mem_eventOutputs {n : Node B} {action : Option String} {slot : Nat}
    (h : slot ∈ eventOutputs n action) : ∃ o, n.outputs[slot]? = some o ∧ o.type.isEvent = true ∧
      ∀ name ∈ action, o.name = name := by
  obtain ⟨o, ho, hfits⟩ := (Option.any_eq_true _ _).1 (List.mem_filter.1 h).2
  rw [Bool.and_eq_true] at hfits
  refine ⟨o, ho, hfits.1, ?_⟩
  rintro name rfl
  exact (of_decide_eq_true hfits.2).symm

/-- Whatever bodies do meanwhile, an event that is sent through an output crosses links only that
left the output when the call began, and that lived all along: another link can have come under the
same identity only if the graph was cleared, or a snapshot brought it.

An event that is sent through the event outputs of a node crosses the links that the output at each
of their places has when its turn comes.  If bodies make no links and remove no outputs, these left
the event output there when the call began, too. -/
theorem events_cross [Behavior B σ] {s : Session B σ} (hs : s.graph.Consistent) (depth : Nat)
    (id : NodeId) (payload : Value) :
    (∀ slot only answer s',
      triggerSlot (runner depth) id slot payload only s = some (answer, s') →
        ∃ xs, (⟨slot, s, xs, answer, s'⟩ : Volley B σ).Fired (runner depth) id payload only ∧
          ∀ x ∈ xs, s.graph.Leaves x.link id slot ∧ (∀ k ∈ only, x.link = k) ∧
            s.graph.Outlives x.link x.before.graph) ∧
      ∀ n action answer s', s.graph.nodes.get? id = some n →
        trigger (runner depth) id action payload s = some (answer, s') →
          ∃ vs, Volleys (runner depth) id payload (eventOutputs n action) s vs s' ∧
            ∀ v ∈ vs, v.Fired (runner depth) id payload none ∧
              (∃ o, s.graph.output? id v.slot = some o ∧ o.type.isEvent = true ∧
                ∀ name ∈ action, o.name = name) ∧
              ∀ x ∈ v.crossings, v.before.graph.Lists id v.slot x.link ∧
                x.link ∈ x.before.graph.links.keys ∧
                ((∀ b i task, (Behavior.body b i task : Body B σ (Outcome B)).Obeys
                    (abstaining s.graph)) →
                  s.graph.Leaves x.link id v.slot ∧ s.graph.Outlives x.link x.before.graph) := by
  -- a link of the call's beginning has a number below the counter
  have hout : ∀ {slot : Nat} {x : Crossing B σ}, s.graph.Lists id slot x.link →
      s.graph.Reaches x.before.graph → x.link ∈ x.before.graph.links.keys →
      s.graph.Leaves x.link id slot ∧ s.graph.Outlives x.link x.before.graph := by
    intro slot x hx hreach hlive
    obtain ⟨l, hl, hends⟩ := (hs.outputs id slot x.link).1 hx
    exact ⟨⟨l, hl, hends⟩, hreach.outlives (hs.linkBelow _ l hl) hlive⟩
  refine ⟨fun slot only answer s' hr => ?_, fun n action answer s' hn hr => ?_⟩
  · obtain ⟨xs, hv⟩ := exists_volley hr
    have hreach := hv.delivers.keeps (reaches_deliver s.graph depth payload) (.refl s.graph)
    refine ⟨xs, hv, fun x hx => ?_⟩
    obtain ⟨hmem, hlive⟩ := hv.delivers.mem x hx
    obtain ⟨hfan, honly⟩ := List.mem_filter.1 hmem
    obtain ⟨hleaves, houtlives⟩ := hout (Graph.lists_iff_mem_fan.2 hfan) (hreach x hx) hlive
    refine ⟨hleaves, ?_, houtlives⟩
    rintro k rfl
    exact (of_decide_eq_true honly).symm
  · unfold trigger at hr
    rw [get_bind_apply, hn] at hr
    obtain ⟨vs, hvs⟩ := exists_volleys id (eventOutputs n action) hr
    have hreach := hvs.keeps (reaches_deliver s.graph depth payload) (.refl s.graph)
    refine ⟨vs, hvs, fun v hv => ?_⟩
    obtain ⟨hslot, hfired⟩ := hvs.fires v hv
    refine ⟨hfired, ?_, fun x hx => ?_⟩
    · obtain ⟨o, ho, hfits⟩ := mem_eventOutputs hslot
      exact ⟨o, (Graph.output_of_node hn v.slot).trans ho, hfits⟩
    · obtain ⟨hmem, hlive⟩ := hfired.delivers.mem x hx
      have hlists := Graph.lists_iff_mem_fan.2 (List.mem_of_mem_filter hmem)
      refine ⟨hlists, hlive, fun hb => ?_⟩
      have hnarrow := hvs.keeps (narrowed_deliver hb depth payload) (.refl s.graph)
      exact hout ((hnarrow v hv).1 id v.slot x.link hlists) ((hreach v hv).2 x hx) hlive

end Engine

/-! ## Two recorders -/

/-- Links one output to two recorders, in a batch that stays open. -/
def twoRecorders : Body Catalog Unit (Except ConnectionError LinkId) := do
  let sender : Node Catalog := { Node.new "sender" with outputs := [.new "out" .event] }
  let recorder : Node Catalog :=
    ({ Node.new "recorder" with inputs := [.new "in" .event] }).withBehavior .recorder
  Body.edit .beginBatch
  let _ ← Body.perform (.add sender)
  let _ ← Body.perform (.add { recorder with mode := .onTrigger })
  let _ ← Body.perform (.add { recorder with mode := .onTrigger })
  let _ ← Body.edit (.tryConnect ⟨1⟩ 0 ⟨2⟩ 0)
  Body.edit (.tryConnect ⟨1⟩ 0 ⟨3⟩ 0)

theorem twoRecorders_obeys (r : Registry Catalog) : twoRecorders.Obeys (linking r) := by
  have hsender : ({ Node.new "sender" with outputs := [.new "out" .event] } : Node Catalog).Loose :=
    ⟨by simp [Node.new], by simp [Output.new], by simp [Node.new]⟩
  have hrecorder : ({ ({ Node.new "recorder" with inputs := [.new "in" .event] } :
      Node Catalog).withBehavior .recorder with mode := .onTrigger }).Loose :=
    ⟨by simp [Input.new, Node.withBehavior], by simp [Node.new, Node.withBehavior],
      by simp [Node.new, Node.withBehavior]⟩
  exact ⟨trivial, fun _ _ => ⟨hsender, fun _ _ => ⟨hrecorder, fun _ _ => ⟨hrecorder, fun _ _ =>
    ⟨trivial, fun _ _ => ⟨trivial, fun _ _ => trivial⟩⟩⟩⟩⟩⟩

theorem twoRecorders_evaluates : ((Engine.exec 1 twoRecorders
      (⟨Graph.empty ∅ .default, [], ()⟩ : Session Catalog Unit)).any fun e =>
    e.2.graph.nodes.contains ⟨1⟩ &&
      (Engine.trigger (Engine.runner 1) ⟨1⟩ none .null e.2).any fun a =>
        decide (a.1.toOption = some 2)) = true := by
  decide +kernel

/-- Both recorders are reached over the links that were there, and standard bodies make no links. -/
theorem twoRecorders_cross : ∃ (s s' : Session Catalog Unit) (n : Node Catalog)
    (vs : List (Volley Catalog Unit)), s.graph.Consistent ∧ s.graph.nodes.get? ⟨1⟩ = some n ∧
    Engine.trigger (Engine.runner 1) ⟨1⟩ none .null s = some (.ok 2, s') ∧
    Volleys (Engine.runner 1) ⟨1⟩ .null (Engine.eventOutputs n none) s vs s' ∧
    ∀ v ∈ vs, ∀ x ∈ v.crossings,
      s.graph.Leaves x.link ⟨1⟩ v.slot ∧ s.graph.Outlives x.link x.before.graph := by
  obtain ⟨⟨made, s⟩, hrun, hfacts⟩ := (Option.any_eq_true _ _).1 twoRecorders_evaluates
  rw [Bool.and_eq_true] at hfacts
  obtain ⟨n, hn⟩ := Option.isSome_iff_exists.1 hfacts.1
  obtain ⟨⟨answer, s'⟩, hr, hcount⟩ := (Option.any_eq_true _ _).1 hfacts.2
  have hs : s.graph.Consistent :=
    (Engine.keeps_exec (Engine.lawful_linking ∅) (Catalog.obeys_linking ∅) (twoRecorders_obeys ∅) 1
      ⟨Graph.empty ∅ .default, [], ()⟩ (Graph.tidy_empty ∅ .default) _ s hrun).1
  have hb : ∀ b i task, (Behavior.body b i task : Body Catalog Unit (Outcome Catalog)).Obeys
      (abstaining s.graph) := by
    refine Catalog.obeys_behavior (fun e he => ?_) fun _ _ _ _ => trivial
    cases e <;> trivial
  obtain ⟨vs, hvs, hall⟩ := (Engine.events_cross hs 1 ⟨1⟩ .null).2 n none answer s' hn hr
  have hanswer : answer = .ok 2 := by
    cases answer with
    | error e => cases of_decide_eq_true hcount
    | ok count => rw [Option.some.inj (of_decide_eq_true hcount)]
  rw [hanswer] at hr
  exact ⟨s, s', n, vs, hs, hn, hr, hvs, fun v hv x hx => ((hall v hv).2.2 x hx).2.2 hb⟩

/-! ## An output that is gone -/

/-- Nodes that handle an event by removing the first output of the first node, and nodes that handle
it by doing nothing. -/
inductive Shifter where
  | cutter
  | sink

namespace Shifter

instance : Kind Shifter where
  inert := sink
  canExecute _ := false
  acceptsActions _ := true
  told b _ := b
  acceptsLink _ _ _ := true
  keepsOld _ _ _ := false
  annotate _ r := r

instance : Behavior Shifter Unit where
  body b _ task :=
    match b, task with
    | cutter, .act .. => do
      let _ ← Body.edit (.removeOutput ⟨1⟩ 0)
      return ⟨b, .ok ()⟩
    | _, _ => return ⟨b, .ok ()⟩

/-- The first node has two event outputs and a third one for numbers.  The first of them leads to a
cutter, the third to a sink. -/
def shifting : Body Shifter Unit (Except ConnectionError LinkId) := do
  let hub : Node Shifter := { Node.new "hub" with
    outputs := [.new "first" .event, .new "second" .event, .new "third" (.named "number")] }
  Body.edit .beginBatch
  let _ ← Body.perform (.add hub)
  let _ ← Body.perform (.add
    (({ Node.new "cutter" with inputs := [.new "cut" .event] }).withBehavior cutter))
  let _ ← Body.perform (.add
    (({ Node.new "sink" with inputs := [.new "in" (.named "number")] }).withBehavior sink))
  let _ ← Body.edit (.tryConnect ⟨1⟩ 0 ⟨2⟩ 0)
  Body.edit (.tryConnect ⟨1⟩ 2 ⟨3⟩ 0)

/-- The numbers of the nodes that have handled a text so far, first to last. -/
def handled (events : List (Event Shifter)) (text : String) : List Nat :=
  events.reverse.filterMap fun
    | .began id _ (.act _ (.str payload)) => if payload = text then some id.number else none
    | _ => none

theorem shifting_evaluates : ((Engine.exec 2 shifting
      (⟨Graph.empty ∅ .default, [], ()⟩ : Session Shifter Unit)).any fun e =>
    decide (((e.2.graph.nodes.get? ⟨1⟩).map fun n => Engine.eventOutputs n none) = some [0, 1]) &&
      decide (((e.2.graph.links.get? ⟨2⟩).map fun l =>
        (l.origin, l.originSlot, l.target, l.triggered)) = some (⟨1⟩, 2, ⟨3⟩, false)) &&
      (Engine.trigger (Engine.runner 2) ⟨1⟩ none (.str "go") e.2).any fun a =>
        decide ((a.2.graph.links.get? ⟨2⟩).map Link.triggered = some true) &&
          decide (handled a.2.events "go" = [2, 3])) = true := by
  decide +kernel

/-- The third output was never meant: it is no event output.  But when the cutter has removed the
first one, it is found in the place of the second, the event crosses its link, and the sink handles
it. -/
theorem astray : ∃ (s s' : Session Shifter Unit) (n : Node Shifter) (l : Link)
    (answer : Except GraphError Nat), Reachable s ∧
    s.graph.nodes.get? ⟨1⟩ = some n ∧ Engine.eventOutputs n none = [0, 1] ∧
    s.graph.links.get? ⟨2⟩ = some l ∧
    (l.origin, l.originSlot, l.target, l.triggered) = (⟨1⟩, 2, ⟨3⟩, false) ∧
    Engine.trigger (Engine.runner 2) ⟨1⟩ none (.str "go") s = some (answer, s') ∧
    (s'.graph.links.get? ⟨2⟩).map Link.triggered = some true ∧ handled s'.events "go" = [2, 3] := by
  obtain ⟨⟨made, s⟩, hrun, hfacts⟩ := (Option.any_eq_true _ _).1 shifting_evaluates
  simp only [Bool.and_eq_true, decide_eq_true_eq] at hfacts
  obtain ⟨⟨houtputs, hends⟩, htrigger⟩ := hfacts
  obtain ⟨n, hn, hslots⟩ := Option.map_eq_some_iff.1 houtputs
  obtain ⟨l, hl, hl'⟩ := Option.map_eq_some_iff.1 hends
  obtain ⟨⟨answer, s'⟩, hr, hafter⟩ := (Option.any_eq_true _ _).1 htrigger
  simp only [Bool.and_eq_true, decide_eq_true_eq] at hafter
  exact ⟨s, s', n, l, answer, (Reachable.start _ _ _ _).exec shifting hrun, hn, hslots, hl, hl', hr,
    hafter.1, hafter.2⟩

end Shifter

end Dataflow
