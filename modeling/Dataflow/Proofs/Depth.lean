/-
  How deeply bodies may be nested does not matter, as long as it is deep enough.

  A step `extends` another when it gives every answer that the other gives.  What the engine does
  with a runner that extends another extends what it does with the other; so by induction on the
  depth, more room for nesting never changes an answer (`extends_runner`).
-/

import Dataflow.Engine

namespace Dataflow

variable {B σ α β : Type}

/-- Where one step answers, the other gives the same answer. -/
def Extends (m m' : Act B σ α) : Prop := ∀ s r, m s = some r → m' s = some r

namespace Extends

theorem refl (m : Act B σ α) : Extends m m := fun _ _ h => h

theorem trans {m m' m'' : Act B σ α} (h : Extends m m') (h' : Extends m' m'') : Extends m m'' :=
  fun s r hr => h' s r (h s r hr)

theorem bind {m m' : Act B σ α} {f f' : α → Act B σ β} (hm : Extends m m')
    (hf : ∀ a, Extends (f a) (f' a)) : Extends (m >>= f) (m' >>= f') := by
  intro s r hr
  obtain ⟨⟨a, t⟩, ha, hb⟩ := Option.bind_eq_some_iff.1 (show (m s).bind _ = _ from hr)
  show (m' s).bind _ = _
  rw [hm s _ ha]
  exact hf a t r hb

/-- The first step is the same. -/
theorem after {m : Act B σ α} {f f' : α → Act B σ β} (hf : ∀ a, Extends (f a) (f' a)) :
    Extends (m >>= f) (m >>= f') := (refl m).bind hf

end Extends

theorem Body.extends_run {perform perform' : (c : Call B) → Act B σ c.Answer}
    (h : ∀ c, Extends (perform c) (perform' c)) (p : Body B σ α) :
    Extends (p.run perform) (p.run perform') := by
  induction p with
  | done a => exact .refl _
  | look next ih => exact .after fun s => ih s.graph s.host
  | keep change next ih => exact .after fun _ => ih
  | note remark next ih => exact .after fun _ => ih
  | call c next ih => exact (h c).bind ih

namespace Engine

variable [Behavior B σ] {run run' : Runner B σ} (h : ∀ body, Extends (run body) (run' body))
include h

theorem extends_enter (id : NodeId) (task : Task) :
    Extends (enter run id task) (enter run' id task) := by
  refine .after fun s => ?_
  cases s.graph.behavior? id with
  | none => exact .refl _
  | some b => exact .after fun _ => (h _).bind fun _ => .refl _

theorem extends_runBody (id : NodeId) (payload : Option Value) :
    Extends (runBody run id payload) (runBody run' id payload) := by
  refine .after fun s => ?_
  cases s.graph.nodes.get? id with
  | none => exact .refl _
  | some n =>
    show Extends (ite _ _ _) (ite _ _ _)
    split
    · exact (extends_enter h id _).bind fun _ => .refl _
    · exact .refl _

theorem extends_runAction (id : NodeId) (action : String) (payload : Value) :
    Extends (runAction run id action payload) (runAction run' id action payload) := by
  refine .after fun s => ?_
  cases s.graph.nodes.get? id with
  | none => exact .refl _
  | some n => exact (extends_enter h id _).bind fun _ => .refl _

/-! ## Adding nodes -/

theorem extends_insertNode (n : Node B) (refresh : Bool) :
    Extends (insertNode run n refresh) (insertNode run' n refresh) := by
  refine .after fun s => ?_
  show Extends (ite _ _ _) (ite _ _ _)
  split
  · exact .refl _
  · exact .after fun _ => (extends_enter h _ _).bind fun _ => .refl _

theorem extends_placeAll (rs : List NodeRecord) (p : Placing) :
    Extends (placeAll run rs p) (placeAll run' rs p) := by
  induction rs generalizing p with
  | nil => exact .refl _
  | cons r rs ih =>
    refine .after fun s => (extends_insertNode h _ false).bind fun answer => ?_
    cases answer with
    | error e => exact ih _
    | ok id => exact ih _

theorem extends_load (snapshot : Snapshot) (keepOld : Bool) :
    Extends (load run snapshot keepOld) (load run' snapshot keepOld) :=
  .after fun _ => (extends_placeAll h _ _).bind fun _ => .refl _

/-! ## Events -/

theorem extends_deliver (payload : Value) (l : LinkId) :
    Extends (deliver run payload l) (deliver run' payload l) := by
  refine .after fun s => ?_
  cases s.graph.links.get? l with
  | none => exact .refl _
  | some link =>
    refine .after fun _ => ?_
    cases s.graph.nodes.get? link.target with
    | none => exact .refl _
    | some n =>
      show Extends (ite _ _ _) (ite _ _ _)
      split
      · exact extends_runAction h _ _ payload
      · split
        · exact extends_runBody h _ _
        · exact .refl _

theorem extends_deliverAll (payload : Value) (ls : List LinkId) (count : Nat) :
    Extends (deliverAll run payload ls count) (deliverAll run' payload ls count) := by
  induction ls generalizing count with
  | nil => exact .refl _
  | cons l ls ih =>
    refine (extends_deliver h payload l).bind fun answer => ?_
    cases answer with
    | error e => exact .refl _
    | ok ran => exact ih _

theorem extends_triggerSlot (id : NodeId) (slot : Nat) (payload : Value) (only : Option LinkId) :
    Extends (triggerSlot run id slot payload only) (triggerSlot run' id slot payload only) := by
  refine .after fun s => ?_
  cases s.graph.nodes.get? id with
  | none => exact .refl _
  | some n =>
    dsimp only
    cases n.outputs[slot]? with
    | none => exact .refl _
    | some o => exact extends_deliverAll h payload _ 0

theorem extends_triggerSlots (id : NodeId) (payload : Value) (slots : List Nat) (count : Nat) :
    Extends (triggerSlots run id payload slots count) (triggerSlots run' id payload slots count) := by
  induction slots generalizing count with
  | nil => exact .refl _
  | cons slot slots ih =>
    refine (extends_triggerSlot h id slot payload none).bind fun answer => ?_
    cases answer with
    | error e => exact .refl _
    | ok n => exact ih _

theorem extends_trigger (id : NodeId) (action : Option String) (payload : Value) :
    Extends (trigger run id action payload) (trigger run' id action payload) := by
  refine .after fun s => ?_
  cases s.graph.nodes.get? id with
  | none => exact .refl _
  | some n => exact extends_triggerSlots h id payload _ 0

theorem extends_pull (id : NodeId) (slot : Nat) : Extends (pull run id slot) (pull run' id slot) := by
  refine .after fun s => ?_
  cases s.graph.inputLink? id slot with
  | none => exact .refl _
  | some l => exact (extends_runBody h _ none).bind fun _ => .refl _

/-! ## Steps -/

theorem extends_runNodes (ids : List NodeId) : Extends (runNodes run ids) (runNodes run' ids) := by
  induction ids with
  | nil => exact .refl _
  | cons id ids ih =>
    refine .after fun s => ?_
    split
    · refine (extends_runBody h id none).bind fun answer => ?_
      cases answer with
      | error e => exact .refl _
      | ok ran => exact ih
    · exact ih

theorem extends_runPasses (passes : Nat) : Extends (runPasses run passes) (runPasses run' passes) := by
  induction passes with
  | zero => exact .refl _
  | succ passes ih =>
    refine .after fun s => (extends_runNodes h _).bind fun answer => ?_
    cases answer with
    | error e => exact .refl _
    | ok done => exact .after fun _ => ih

theorem extends_runStep (passes : Nat) (propagate : Bool) :
    Extends (runStep run passes propagate) (runStep run' passes propagate) :=
  .after fun _ => (extends_runPasses h passes).bind fun _ => .refl _

/-! ## Calls -/

theorem extends_perform (c : Call B) : Extends (perform run c) (perform run' c) := by
  cases c with
  | edit e => exact .refl _
  | add n => exact extends_insertNode h n true
  | load snapshot keepOld => exact extends_load h snapshot keepOld
  | execute id => exact extends_runBody h id none
  | triggerSlot id slot payload only => exact extends_triggerSlot h id slot payload only
  | trigger id action payload => exact extends_trigger h id action payload
  | pull id slot => exact extends_pull h id slot
  | runStep passes propagate => exact extends_runStep h passes propagate

omit h in
theorem extends_runner_succ (depth : Nat) (body : Body B σ (Outcome B)) :
    Extends (runner depth body) (runner (depth + 1) body) := by
  induction depth generalizing body with
  | zero =>
    intro s r hr
    cases hr
  | succ depth ih => exact Body.extends_run (extends_perform ih) body

omit h in
/-- More room for nesting never changes an answer. -/
theorem extends_runner {depth depth' : Nat} (hd : depth ≤ depth') (body : Body B σ (Outcome B)) :
    Extends (runner depth body) (runner depth' body) := by
  induction hd with
  | refl => exact .refl _
  | step _ ih => exact ih.trans (extends_runner_succ _ body)

end Engine

end Dataflow
