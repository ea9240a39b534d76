/-
  Bodies that do not ask for the cached order.

  What the engine does besides running bodies is the same under every schedule, so two sessions
  abreast stay abreast as long as bodies leave them so (`Together`).  `Twins` follows two programs
  through all that they may see and be answered in sessions abreast: the same graph but for the
  schedule, and the same answers but for the place noted in a removed node.  A program that is its
  own twin is `Blind`.  It may open and close batches of its own, provided that it closes what it
  opens.  If all bodies are blind, then twins go together, however deeply bodies are nested
  (`Engine.together_exec`).
-/

import Dataflow.Proofs.Abreast
import Dataflow.Proofs.Run

namespace Dataflow

open Session (Abreast Matched)

variable {B σ α β γ δ : Type}

/-! ## Steps taken together -/

/-- Two steps both fail, or both answer what belongs together and leave their sessions abreast. -/
def Together (R : α → β → Prop) (j k : Nat) (m : Act B σ α) (m' : Act B σ β) (s t : Session B σ) :
    Prop := Option.Rel (Matched R j k) (m s) (m' t)

namespace Together

variable {R : α → β → Prop} {Q : γ → δ → Prop} {i j k l : Nat} {s t : Session B σ}

theorem pure {a : α} {b : β} (hR : R a b) (h : s.Abreast j k t) :
    Together R j k (Pure.pure a) (Pure.pure b) s t := .some ⟨hR, h⟩

theorem bind {m : Act B σ α} {m' : Act B σ β} {f : α → Act B σ γ} {f' : β → Act B σ δ}
    (hm : Together R i l m m' s t)
    (hf : ∀ a b s t, R a b → s.Abreast i l t → Together Q j k (f a) (f' b) s t) :
    Together Q j k (m >>= f) (m' >>= f') s t := by
  show Option.Rel _ ((m s).bind _) ((m' t).bind _)
  unfold Together at hm
  cases hr : m s with
  | none =>
    rw [hr] at hm
    cases hr' : m' t with
    | none => exact .none
    | some r' =>
      rw [hr'] at hm
      cases hm
  | some r =>
    rw [hr] at hm
    cases hr' : m' t with
    | none =>
      rw [hr'] at hm
      cases hm
    | some r' =>
      rw [hr'] at hm
      cases hm with
      | some hm => exact hf r.1 r'.1 r.2 r'.2 hm.answer hm.after

theorem get_bind {f : Session B σ → Act B σ γ} {f' : Session B σ → Act B σ δ}
    (h : Together Q j k (f s) (f' t) s t) : Together Q j k (get >>= f) (get >>= f') s t := h

theorem set_bind {u v : Session B σ} {f : PUnit → Act B σ γ} {f' : PUnit → Act B σ δ}
    (h : Together Q j k (f ⟨⟩) (f' ⟨⟩) u v) : Together Q j k (set u >>= f) (set v >>= f') s t := h

theorem modify_bind {c d : Session B σ → Session B σ} {f : PUnit → Act B σ γ}
    {f' : PUnit → Act B σ δ} (h : Together Q j k (f ⟨⟩) (f' ⟨⟩) (c s) (d t)) :
    Together Q j k (modify c >>= f) (modify d >>= f') s t := h

/-- Steps that cannot fail. -/
theorem total {c : Session B σ → α × Session B σ} {d : Session B σ → β × Session B σ}
    (h : Matched R j k (c s) (d t)) :
    Together R j k (fun s => some (c s)) (fun s => some (d s)) s t := .some h

end Together

/-! ## The engine -/

namespace Session.Abreast

variable {j k : Nat} {s t : Session B σ}

theorem restore (h : s.Abreast j k t) (id : NodeId) (b : B) :
    Abreast j k (Engine.restore s id b) (Engine.restore t id b) := by
  refine h.step (f := fun s => Engine.restore s id b) fun s c => ?_
  unfold Engine.restore
  rw [show (s.under c).graph.awaitsBehavior id = _ from s.graph.awaitsBehavior_under c id]
  split
  · exact edit_under (Graph.modifyNode_under rfl fun _ _ => rfl)
  · rfl

/-- One of two sessions closes a batch. -/
theorem close_right (h : s.Abreast j (k + 1) t) : s.Abreast j k t.endBatch := by
  -- the other session is not touched, which is a change of its schedule to what it is
  have hs : s.Rescheduled j s := ⟨s.graph.schedule, h.left, s.under_schedule.symm⟩
  have ht := t.rescheduled_batches (· - 1)
  rw [h.right] at ht
  have hc := h.reschedule hs ht
  have hr := (t.edit fun g => { g with batchDepth := g.batchDepth - 1 }).rescheduled_refresh
  rw [hc.right] at hr
  exact hc.reschedule hs hr

theorem links (h : s.Abreast j k t) : t.graph.links = s.graph.links := by
  obtain ⟨-, -, c, rfl⟩ := h
  rfl

end Session.Abreast

namespace Engine

variable [Behavior B σ] {run : Runner B σ}
  (hrun : ∀ j k b id task (s t : Session B σ), s.Abreast j k t →
    Together Eq j k (run (Behavior.body b id task)) (run (Behavior.body b id task)) s t)
  {j k : Nat} {s t : Session B σ} (h : s.Abreast j k t)
include hrun h

theorem together_enter (id : NodeId) (task : Task) :
    Together Eq j k (enter run id task) (enter run id task) s t := by
  have hb : t.graph.behavior? id = s.graph.behavior? id := by
    obtain ⟨-, -, c, rfl⟩ := h
    exact s.graph.behavior?_under c id
  apply Together.get_bind
  rw [hb]
  cases s.graph.behavior? id with
  | none => exact .pure rfl h
  | some b =>
    have hd := (h.step (f := (·.edit (·.detach id))) fun s c =>
      Session.edit_under (Graph.modifyNode_under rfl fun _ _ => rfl)).log (.began id b task)
    refine .set_bind (.bind (hrun j k b id task _ _ hd) fun out out' s t hout h => ?_)
    subst hout
    exact .modify_bind (.pure rfl ((h.log (.ended id)).restore id out.state))

theorem together_runBody (id : NodeId) (payload : Option Value) :
    Together Eq j k (runBody run id payload) (runBody run id payload) s t := by
  obtain ⟨p, hp⟩ := h.node id
  apply Together.get_bind
  rw [hp]
  cases s.graph.nodes.get? id with
  | none => exact .pure rfl h
  | some n =>
    show Together _ _ _ (if n.canExecute then _ else _) (if n.canExecute then _ else _) s t
    split
    · refine .bind (together_enter hrun h id _) fun ending ending' s t he h => ?_
      exact .pure (congrArg (verdict id) he) h
    · exact .pure rfl h

theorem together_runAction (id : NodeId) (action : String) (payload : Value) :
    Together Eq j k (runAction run id action payload) (runAction run id action payload) s t := by
  obtain ⟨p, hp⟩ := h.node id
  apply Together.get_bind
  rw [hp]
  cases s.graph.nodes.get? id with
  | none => exact .pure rfl h
  | some n =>
    refine .bind (together_enter hrun h id _) fun ending ending' s t he h => ?_
    exact .pure (congrArg (verdict id) he) h

/-! ### Adding -/

theorem together_insertNode {n n' : Node B} (hn : n.Renumbered n') (refresh : Bool) :
    Together Eq j k (insertNode run n refresh) (insertNode run n' refresh) s t := by
  obtain ⟨p, rfl⟩ : ∃ p, n' = n.noting p := ⟨n'.order, hn⟩
  have hset : t.graph.settings = s.graph.settings := by
    obtain ⟨-, -, c, rfl⟩ := h
    rfl
  have hsize : t.graph.nodes.size = s.graph.nodes.size := by
    obtain ⟨-, -, c, rfl⟩ := h
    exact Assoc.size_mapValues ..
  have hclaim : t.graph.claimNode (n.noting p).id = s.graph.claimNode n.id := by
    obtain ⟨-, -, c, rfl⟩ := h
    exact s.graph.claimNode_under c n.id
  apply Together.get_bind
  rw [hset, hsize]
  show Together _ _ _ (ite _ _ _) (ite _ _ _) s t
  split
  · exact .pure rfl h
  · simp only [hclaim]
    obtain ⟨id, next⟩ := s.graph.claimNode n.id
    -- the new node keeps the place it came with, and the schedules differ there from now on
    have hp : Abreast j k (s.edit fun g => g.place n id next)
        (t.edit fun g => g.place (n.noting p) id next) :=
      h.edit rfl fun c _ => ⟨{ c with place := fun i => if i = id then p else c.place i }, rfl,
        s.graph.place_under c n p id next⟩
    refine .set_bind (.bind (together_enter hrun hp _ .added) fun _ _ s t _ h => ?_)
    refine .modify_bind (.pure rfl ?_)
    cases refresh with
    | true => exact (h.invalidate.log _).changed
    | false => exact (h.markStale.log _).changed

theorem together_placeAll (rs : List NodeRecord) (p : Placing) :
    Together Eq j k (placeAll run rs p) (placeAll run rs p) s t := by
  induction rs generalizing p s t with
  | nil => exact .pure rfl h
  | cons r rs ih =>
    have hreg : t.graph.registry = s.graph.registry := by
      obtain ⟨-, -, c, rfl⟩ := h
      rfl
    apply Together.get_bind
    rw [hreg]
    refine .bind (together_insertNode hrun h (Node.renumbered_refl _) false) fun answer answer' s t ha h => ?_
    subst ha
    cases answer with
    | error e => exact ih h _
    | ok id => exact ih h _

theorem together_load (snapshot : Snapshot) (keepOld : Bool) :
    Together Eq j k (load run snapshot keepOld) (load run snapshot keepOld) s t := by
  have hcleared : Abreast j k (if keepOld then s else s.clear) (if keepOld then t else t.clear) := by
    split
    · exact h
    · exact h.clear
  have hopened := (hcleared.step (f := (·.edit fun g => { g with
    config := g.config.insertAll snapshot.config.entries })) fun _ _ => rfl).beginBatch
  -- a load is a batch of its own, so both sides are one batch deeper while nodes are added
  refine .modify_bind (.bind (together_placeAll hrun hopened _ _) fun p p' s t hp h => ?_)
  subst hp
  exact .total (h.settleLoad snapshot p.placed p.nodes p.report)

/-! ### Events -/

theorem together_deliver (payload : Value) (l : LinkId) :
    Together Eq j k (deliver run payload l) (deliver run payload l) s t := by
  apply Together.get_bind
  rw [h.links]
  cases s.graph.links.get? l with
  | none => exact .pure rfl h
  | some link =>
    have hm := h.step (f := (·.edit fun g => g.modifyLink l fun l => { l with triggered := true }))
      fun _ _ => rfl
    obtain ⟨p, hp⟩ := h.node link.target
    refine .set_bind ?_
    rw [hp]
    cases s.graph.nodes.get? link.target with
    | none => exact .pure rfl hm
    | some n =>
      show Together _ _ _ (if n.acceptsActions then _ else if n.mode = .onTrigger then _ else _)
        (if n.acceptsActions then _ else if n.mode = .onTrigger then _ else _) _ _
      split
      · exact together_runAction hrun hm _ _ payload
      · split
        · exact together_runBody hrun hm _ _
        · exact .pure rfl hm

theorem together_deliverAll (payload : Value) (ls : List LinkId) (count : Nat) :
    Together Eq j k (deliverAll run payload ls count) (deliverAll run payload ls count) s t := by
  induction ls generalizing count s t with
  | nil => exact .pure rfl h
  | cons l ls ih =>
    refine .bind (together_deliver hrun h payload l) fun answer answer' s t ha h => ?_
    subst ha
    cases answer with
    | error e => exact .pure rfl h
    | ok ran => exact ih h _

theorem together_triggerSlot (id : NodeId) (slot : Nat) (payload : Value) (only : Option LinkId) :
    Together Eq j k (triggerSlot run id slot payload only) (triggerSlot run id slot payload only)
      s t := by
  obtain ⟨p, hp⟩ := h.node id
  apply Together.get_bind
  rw [hp]
  cases s.graph.nodes.get? id with
  | none => exact .pure rfl h
  | some n =>
    dsimp only [Option.map_some, Node.noting]
    cases n.outputs[slot]? with
    | none => exact .pure rfl h
    | some o => exact together_deliverAll hrun h payload _ 0

theorem together_triggerSlots (id : NodeId) (payload : Value) (slots : List Nat) (count : Nat) :
    Together Eq j k (triggerSlots run id payload slots count) (triggerSlots run id payload slots count)
      s t := by
  induction slots generalizing count s t with
  | nil => exact .pure rfl h
  | cons slot slots ih =>
    refine .bind (together_triggerSlot hrun h id slot payload none) fun answer answer' s t ha h => ?_
    subst ha
    cases answer with
    | error e => exact .pure rfl h
    | ok n => exact ih h _

theorem together_trigger (id : NodeId) (action : Option String) (payload : Value) :
    Together Eq j k (trigger run id action payload) (trigger run id action payload) s t := by
  obtain ⟨p, hp⟩ := h.node id
  apply Together.get_bind
  rw [hp]
  cases s.graph.nodes.get? id with
  | none => exact .pure rfl h
  | some n => exact together_triggerSlots hrun h id payload (eventOutputs n action) 0

theorem together_pull (id : NodeId) (slot : Nat) :
    Together Eq j k (pull run id slot) (pull run id slot) s t := by
  have hl : t.graph.inputLink? id slot = s.graph.inputLink? id slot := by
    obtain ⟨-, -, c, rfl⟩ := h
    exact s.graph.inputLink?_under c id slot
  apply Together.get_bind
  rw [hl]
  cases s.graph.inputLink? id slot with
  | none => exact .pure rfl h
  | some l =>
    refine .bind (together_runBody hrun h l.origin none) fun answer answer' s t ha h => ?_
    subst ha
    cases answer with
    | error e => exact .pure rfl h
    | ok ran =>
      refine .get_bind (.pure ?_ h)
      obtain ⟨-, -, c, rfl⟩ := h
      exact congrArg Except.ok (s.graph.inputData?_under c id slot).symm

end Engine

/-! ## Calls -/

namespace Call

/-- Calls that neither open nor close a batch, and do not run over the cached order. -/
def Plain : Call B → Prop
  | edit .beginBatch | edit .endBatch | runStep .. => False
  | _ => True

/-- Answers of a call that belong together. -/
def Agree : (c : Call B) → c.Answer → c.Answer → Prop
  | edit e => e.Agree
  | _ => Eq

end Call

namespace Engine

theorem together_perform [Behavior B σ] {run : Runner B σ}
    (hrun : ∀ j k b id task (s t : Session B σ), s.Abreast j k t →
      Together Eq j k (run (Behavior.body b id task)) (run (Behavior.body b id task)) s t)
    {j k : Nat} {s t : Session B σ} (h : s.Abreast j k t) {c : Call B} (hc : c.Plain) :
    Together c.Agree j k (perform run c) (perform run c) s t := by
  cases c with
  | edit e =>
    refine .total (Edit.matched h ?_ ?_)
    · rintro rfl
      exact hc
    · rintro rfl
      exact hc
  | add n => exact together_insertNode hrun h (Node.renumbered_refl n) true
  | load snapshot keepOld => exact together_load hrun h snapshot keepOld
  | execute id => exact together_runBody hrun h id none
  | triggerSlot id slot payload only => exact together_triggerSlot hrun h id slot payload only
  | trigger id action payload => exact together_trigger hrun h id action payload
  | pull id slot => exact together_pull hrun h id slot
  | runStep passes propagate => cases hc

end Engine

/-! ## Programs -/

/-- Two programs do the same in sessions abreast, whatever the schedules: they may see the same but
for the schedule, be answered what belongs together, and end with results that belong together.
They close the batches they open, and `n` that were open before. -/
inductive Body.Twins (R : α → β → Prop) : Nat → Body B σ α → Body B σ β → Prop
  | done {a : α} {b : β} (h : R a b) : Twins R 0 (.done a) (.done b)
  | look {n : Nat} {p : Graph B → σ → Body B σ α} {q : Graph B → σ → Body B σ β}
    (h : ∀ g c host, Twins R n (p g host) (q (g.under c) host)) : Twins R n (.look p) (.look q)
  | keep {n : Nat} {f : σ → σ} {p : Body B σ α} {q : Body B σ β} (h : Twins R n p q) :
    Twins R n (.keep f p) (.keep f q)
  | note {n : Nat} {remark : Value} {p : Body B σ α} {q : Body B σ β} (h : Twins R n p q) :
    Twins R n (.note remark p) (.note remark q)
  | beginBatch {n : Nat} {p : Unit → Body B σ α} {q : Unit → Body B σ β}
    (h : Twins R (n + 1) (p ()) (q ())) :
    Twins R n (.call (.edit .beginBatch) p) (.call (.edit .beginBatch) q)
  | endBatch {n : Nat} {p : Unit → Body B σ α} {q : Unit → Body B σ β} (h : Twins R n (p ()) (q ())) :
    Twins R (n + 1) (.call (.edit .endBatch) p) (.call (.edit .endBatch) q)
  | add {n : Nat} {m m' : Node B} {p : Except GraphError NodeId → Body B σ α}
    {q : Except GraphError NodeId → Body B σ β} (hm : m.Renumbered m')
    (h : ∀ a, Twins R n (p a) (q a)) : Twins R n (.call (.add m) p) (.call (.add m') q)
  | call {n : Nat} {c : Call B} {p : c.Answer → Body B σ α} {q : c.Answer → Body B σ β}
    (hc : c.Plain) (h : ∀ a b, c.Agree a b → Twins R n (p a) (q b)) :
    Twins R n (.call c p) (.call c q)

/-- A program neither reads the cached order nor leaves a batch open: it is its own twin. -/
def Body.Blind (p : Body B σ α) : Prop := Twins Eq 0 p p

namespace Body.Twins

variable {R : α → β → Prop} {Q : γ → δ → Prop}

theorem bind {n : Nat} {p : Body B σ α} {q : Body B σ β} (h : Twins R n p q)
    {f : α → Body B σ γ} {f' : β → Body B σ δ} (hf : ∀ a b, R a b → Twins Q 0 (f a) (f' b)) :
    Twins Q n (p.bind f) (q.bind f') := by
  induction h with
  | done h => exact hf _ _ h
  | look _ ih => exact .look ih
  | keep _ ih => exact .keep ih
  | note _ ih => exact .note ih
  | beginBatch _ ih => exact .beginBatch ih
  | endBatch _ ih => exact .endBatch ih
  | add hm _ ih => exact .add hm ih
  | call hc _ ih => exact .call hc ih

/-- Twins go together from call to call. -/
theorem run [Behavior B σ] {run : Runner B σ}
    (hrun : ∀ j k b id task (s t : Session B σ), s.Abreast j k t →
      Together Eq j k (run (Behavior.body b id task)) (run (Behavior.body b id task)) s t)
    {n : Nat} {p : Body B σ α} {q : Body B σ β} (h : Twins R n p q) {j k : Nat} {s t : Session B σ}
    (hs : s.Abreast (j + n) (k + n) t) :
    Together R j k (p.run (Engine.perform run)) (q.run (Engine.perform run)) s t := by
  induction h generalizing s t with
  | done h => exact .pure h hs
  | look _ ih =>
    -- what the two see is one graph under two schedules
    apply Together.get_bind
    obtain ⟨c, rfl⟩ := hs.under
    exact ih s.graph c s.host hs
  | @keep n f p q _ ih =>
    exact .modify_bind (ih (hs.step (f := fun s => { s with host := f s.host }) fun _ _ => rfl))
  | note _ ih => exact .modify_bind (ih (hs.log _))
  | beginBatch _ ih => exact ih hs.beginBatch
  | endBatch _ ih => exact ih (Session.Abreast.endBatch hs)
  | add hm _ ih =>
    refine .bind (Engine.together_insertNode hrun hs hm true) fun a b s t hab hs => ?_
    subst hab
    exact ih a hs
  | call hc _ ih =>
    exact .bind (Engine.together_perform hrun hs hc) fun a b s t hab hs => ih a b hab hs

end Body.Twins

namespace Engine

variable [Behavior B σ]
  (hb : ∀ b id task, (Behavior.body b id task : Body B σ (Outcome B)).Blind)
include hb

/-- Bodies that do not read the cached order go together, however deeply they are nested. -/
theorem together_runner (depth : Nat) : ∀ j k b id task (s t : Session B σ), s.Abreast j k t →
    Together Eq j k (runner depth (Behavior.body b id task)) (runner depth (Behavior.body b id task))
      s t := by
  induction depth with
  | zero => exact fun _ _ _ _ _ _ _ _ => .none
  | succ depth ih => exact fun j k b id task s t h => (hb b id task).run ih h

theorem together_exec {R : α → β → Prop} {p : Body B σ α} {q : Body B σ β} (h : p.Twins R 0 q)
    (depth : Nat) {j k : Nat} {s t : Session B σ} (hs : s.Abreast j k t) :
    Together R j k (exec depth p) (exec depth q) s t := h.run (together_runner hb depth) hs

end Engine

end Dataflow
