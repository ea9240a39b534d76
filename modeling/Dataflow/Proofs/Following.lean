/-
  What follows a run of the engine, whatever bodies do in it.

  A relation between sessions may hold between the beginning and the end of every body.  If what the
  engine does between two bodies does not disturb it, then events, pulls and passes keep to it too,
  and so do steps, if it does not mind what these count.  What adding a node does to the relation is
  left open; a load adds only nodes that have a behaviour.
-/

import Dataflow.Proofs.Landing
import Dataflow.Proofs.Lasting

namespace Dataflow

variable {B σ : Type}

/-! ## Nodes that have a behaviour -/

theorem Registry.isSome_create [Kind B] {r : Registry B} {type : String} {title : Option String}
    {n : Node B} (h : r.create type title = .ok n) : n.behavior.isSome = true := by
  unfold Registry.create at h
  split at h
  · next t _ =>
    obtain ⟨size, pos, he⟩ := (t.instantiate title).attachDefaults_eq t
    cases h
    rw [he]
    rfl
  · cases h

theorem Registry.isSome_createOrStandIn [Kind B] (r : Registry B) (type : String)
    (title : Option String) : (r.createOrStandIn type title).behavior.isSome = true := by
  unfold Registry.createOrStandIn
  split
  · next h => exact isSome_create h
  · rfl

/-- A node that takes over a record keeps its behaviour, though not what the behaviour remembers. -/
theorem Node.isSome_applyRecord [Kind B] (n : Node B) (r : NodeRecord) :
    (n.applyRecord r).1.behavior.isSome = n.behavior.isSome := by
  have ho : n.Lasts False (n.offerProperties r.properties.entries).1 := n.lasts_offerProperties _
  exact congrArg Make.idle ho.make

/-- A copy has a behaviour, whether or not the original has one. -/
theorem Node.isSome_copy [Kind B] (n : Node B) (r : Registry B) :
    (n.copy r).1.behavior.isSome = true := by
  let record := n.record.detached
  let fresh := r.createOrStandIn record.type none
  let made : Node B := if fresh.hasErrors then .placeholder record else fresh
  have hmade : made.behavior.isSome = true := by
    show (ite _ _ _ : Node _).behavior.isSome = true
    split
    · rfl
    · exact r.isSome_createOrStandIn _ _
  have htold : (made.applyRecord record).1.Lasts False
      ((made.applyRecord record).1.tell (.configured record)).1 := Node.lasts_tell _ _
  have hidle := congrArg Make.idle htold.make
  exact hidle.trans ((made.isSome_applyRecord record).trans hmade)

/-! ## Relations -/

/-- A relation between sessions that is not disturbed by marking a link. -/
structure Undisturbed (R : Session B σ → Session B σ → Prop) : Prop where
  refl : ∀ s, R s s
  trans : ∀ {s s' s''}, R s s' → R s' s'' → R s s''
  marked : ∀ s l, R s (s.edit fun g => g.modifyLink l fun l => { l with triggered := true })

/-- A relation that is not disturbed by what a step does besides running bodies, either. -/
structure Unhurried [Kind B] (R : Session B σ → Session B σ → Prop) : Prop extends Undisturbed R where
  updated : ∀ s, R s (s.edit Graph.updateOrder)
  counted : ∀ s fixedTime iteration failed,
    R s (s.edit fun g => { g with fixedTime, iteration, failed })
  noted : ∀ s, R s (s.log .passed) ∧ R s (s.log .stepped)
  stopped : ∀ s, R s s.stop

namespace Engine

variable [Behavior B σ] {run : Runner B σ} {R : Session B σ → Session B σ → Prop}

section Undisturbed

variable (hR : Undisturbed R)
include hR

/-- A load adds nodes one after the other. -/
theorem follows_placeAll (hadd : ∀ n : Node B, n.behavior.isSome = true → ∀ s,
      Ensures (insertNode run n false) s fun _ s' => R s s')
    (rs : List NodeRecord) (p : Placing) (s : Session B σ) :
    Ensures (placeAll run rs p) s fun _ s' => R s s' := by
  induction rs generalizing p s with
  | nil => exact Ensures.pure (hR.refl s)
  | cons r rs ih =>
    apply Ensures.get_bind
    cases hc : s.graph.registry.create r.type r.title with
    | ok n =>
      have hn : n.behavior.isSome = true := Registry.isSome_create hc
      apply Ensures.bind
      refine (hadd { n with id := r.id } hn s).mono fun answer t hst => ?_
      cases answer with
      | error e => exact (ih _ t).mono fun _ _ h => hR.trans hst h
      | ok id => exact (ih _ t).mono fun _ _ h => hR.trans hst h
    | error e =>
      apply Ensures.bind
      refine (hadd { Node.placeholder r with id := r.id } rfl s).mono fun answer t hst => ?_
      cases answer with
      | error e => exact (ih _ t).mono fun _ _ h => hR.trans hst h
      | ok id => exact (ih _ t).mono fun _ _ h => hR.trans hst h

section Entered

variable
  (henter : ∀ id task, task ≠ .added → ∀ s, Ensures (enter run id task) s fun _ s' => R s s')
include henter

theorem follows_runBody (id : NodeId) (payload : Option Value) (s : Session B σ) :
    Ensures (runBody run id payload) s fun _ s' => R s s' := by
  apply Ensures.get_bind
  split
  · exact Ensures.pure (hR.refl s)
  · split
    · apply Ensures.bind
      exact (henter id _ (by simp) s).mono fun _ _ h => Ensures.pure h
    · exact Ensures.pure (hR.refl s)

theorem follows_runAction (id : NodeId) (action : String) (payload : Value) (s : Session B σ) :
    Ensures (runAction run id action payload) s fun _ s' => R s s' := by
  apply Ensures.get_bind
  split
  · exact Ensures.pure (hR.refl s)
  · apply Ensures.bind
    exact (henter id _ (by simp) s).mono fun _ _ h => Ensures.pure h

/-! ### Events -/

theorem follows_deliver (payload : Value) (l : LinkId) (s : Session B σ) :
    Ensures (deliver run payload l) s fun _ s' => R s s' := by
  apply Ensures.get_bind
  split
  · exact Ensures.pure (hR.refl s)
  · apply Ensures.set_bind
    have hmark := hR.marked s l
    split
    · exact Ensures.pure hmark
    · split
      · exact (follows_runAction hR henter _ _ payload _).mono fun _ _ h => hR.trans hmark h
      · split
        · exact (follows_runBody hR henter _ _ _).mono fun _ _ h => hR.trans hmark h
        · exact Ensures.pure hmark

theorem follows_deliverAll (payload : Value) (ls : List LinkId) (count : Nat) (s : Session B σ) :
    Ensures (deliverAll run payload ls count) s fun _ s' => R s s' := by
  induction ls generalizing count s with
  | nil => exact Ensures.pure (hR.refl s)
  | cons l ls ih =>
    apply Ensures.bind
    refine (follows_deliver hR henter payload l s).mono fun answer t hst => ?_
    cases answer with
    | error e => exact Ensures.pure hst
    | ok ran => exact (ih _ t).mono fun _ _ h => hR.trans hst h

theorem follows_triggerSlot (id : NodeId) (slot : Nat) (payload : Value) (only : Option LinkId)
    (s : Session B σ) : Ensures (triggerSlot run id slot payload only) s fun _ s' => R s s' := by
  apply Ensures.get_bind
  split
  · exact Ensures.pure (hR.refl s)
  · split
    · exact Ensures.pure (hR.refl s)
    · exact follows_deliverAll hR henter payload _ 0 s

theorem follows_triggerSlots (id : NodeId) (payload : Value) (slots : List Nat) (count : Nat)
    (s : Session B σ) :
    Ensures (triggerSlots run id payload slots count) s fun _ s' => R s s' := by
  induction slots generalizing count s with
  | nil => exact Ensures.pure (hR.refl s)
  | cons slot slots ih =>
    apply Ensures.bind
    refine (follows_triggerSlot hR henter id slot payload none s).mono fun answer t hst => ?_
    cases answer with
    | error e => exact Ensures.pure hst
    | ok n => exact (ih _ t).mono fun _ _ h => hR.trans hst h

theorem follows_trigger (id : NodeId) (action : Option String) (payload : Value)
    (s : Session B σ) : Ensures (trigger run id action payload) s fun _ s' => R s s' := by
  apply Ensures.get_bind
  split
  · exact Ensures.pure (hR.refl s)
  · exact follows_triggerSlots hR henter id payload _ 0 s

theorem follows_pull (id : NodeId) (slot : Nat) (s : Session B σ) :
    Ensures (pull run id slot) s fun _ s' => R s s' := by
  apply Ensures.get_bind
  split
  · exact Ensures.pure (hR.refl s)
  · apply Ensures.bind
    refine (follows_runBody hR henter _ none s).mono fun answer t hst => ?_
    cases answer with
    | error e => exact Ensures.pure hst
    | ok ran => exact Ensures.get_bind (Ensures.pure hst)

/-! ### Steps -/

theorem follows_runNodes (ids : List NodeId) (s : Session B σ) :
    Ensures (runNodes run ids) s fun _ s' => R s s' := by
  induction ids generalizing s with
  | nil => exact Ensures.pure (hR.refl s)
  | cons id ids ih =>
    apply Ensures.get_bind
    split
    · apply Ensures.bind
      refine (follows_runBody hR henter id none s).mono fun answer t hst => ?_
      cases answer with
      | error e => exact Ensures.pure hst
      | ok ran => exact (ih t).mono fun _ _ h => hR.trans hst h
    · exact ih s

end Entered

end Undisturbed

section Unhurried

variable (hR : Unhurried R)
include hR

theorem follows_conclude (propagate : Bool) (result : Except GraphError Unit) (s : Session B σ) :
    R s (conclude propagate result s).2 := by
  unfold conclude
  split
  · exact hR.refl s
  · exact hR.counted s s.graph.fixedTime s.graph.iteration false
  · exact hR.refl s
  · exact hR.trans (hR.counted s s.graph.fixedTime s.graph.iteration true) (hR.stopped _)

variable
  (henter : ∀ id task, task ≠ .added → ∀ s, Ensures (enter run id task) s fun _ s' => R s s')
include henter

theorem follows_runPasses (passes : Nat) (s : Session B σ) :
    Ensures (runPasses run passes) s fun _ s' => R s s' := by
  induction passes generalizing s with
  | zero => exact Ensures.pure (hR.refl s)
  | succ passes ih =>
    apply Ensures.get_bind
    apply Ensures.bind
    refine (follows_runNodes hR.toUndisturbed henter _ s).mono fun answer t hst => ?_
    cases answer with
    | error e => exact Ensures.pure hst
    | ok done =>
      apply Ensures.modify_bind
      have hcounted := hR.counted t (t.graph.fixedTime + t.graph.settings.fixedTimeLapse.toFloat)
        t.graph.iteration t.graph.failed
      have htick := hR.trans hcounted (hR.noted _).1
      exact (ih _).mono fun _ _ h => hR.trans hst (hR.trans htick h)

theorem follows_runStep (passes : Nat) (propagate : Bool) (s : Session B σ) :
    Ensures (runStep run passes propagate) s fun _ s' => R s s' := by
  apply Ensures.modify_bind
  have hu : R s (if s.graph.stale then s.edit Graph.updateOrder else s) := by
    split
    · exact hR.updated s
    · exact hR.refl s
  apply Ensures.bind
  refine (follows_runPasses hR henter passes _).mono fun result t hst => ?_
  apply Ensures.modify_bind
  apply Ensures.modifyGet_bind
  apply Ensures.modify_bind
  apply Ensures.pure
  have hc := hR.trans (hR.noted t).2 (follows_conclude hR propagate result (t.log .stepped))
  exact hR.trans (hR.trans hu hst) (hR.trans hc (hR.counted _ _ _ _))

end Unhurried

end Engine

end Dataflow
