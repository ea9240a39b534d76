/-
  What a run of the engine keeps.

  A run may fail to end, so most of this is about the runs that do: `Ensures m s Q` says that
  whatever `m` answers when it starts in `s`, `Q` holds of the answer and of the session after
  it.  `Keeps I m` is the case where `Q` is the property `I` that the graph had before.  That `m`
  ends, wherever it starts, is said apart (`Answers`).

  A property is `Steady` when behaviours, what links carry and what steps count do not matter and
  bringing the order up to date does it no harm.  Events, pulls and steps keep every steady property
  that the bodies they run keep.  They ask for less: what they do besides entering nodes must do no
  harm (`Even`).  What adding and loading do to a property is left open: that is where properties
  differ.

  A body keeps a property because the calls it makes do.  A `Contract` says which calls those
  are and what the body may rely on in their answers; `Body.Obeys` follows the body through all
  answers within the contract, and `keeps_exec` is the induction on how deeply bodies are nested.
-/

import Dataflow.Engine
import Dataflow.Proofs.Frame

namespace Dataflow

variable {B σ α β : Type}

/-! ## Steps of the engine -/

/-- Whatever a step answers, `Q` holds of the answer and the session after it. -/
def Ensures (m : Act B σ α) (s : Session B σ) (Q : α → Session B σ → Prop) : Prop :=
  ∀ a s', m s = some (a, s') → Q a s'

/-- A step that begins with a property of the graph ends with it. -/
def Keeps (I : Graph B → Prop) (m : Act B σ α) : Prop :=
  ∀ s, I s.graph → Ensures m s fun _ s' => I s'.graph

namespace Ensures

variable {m : Act B σ α} {f : α → Act B σ β} {s : Session B σ} {Q : β → Session B σ → Prop}

theorem pure {b : β} (h : Q b s) : Ensures (Pure.pure b) s Q := by
  intro b' s' hr
  cases hr
  exact h

theorem bind (h : Ensures m s fun a s' => Ensures (f a) s' Q) : Ensures (m >>= f) s Q := by
  intro b s' hr
  obtain ⟨⟨a, t⟩, hm, hf⟩ := Option.bind_eq_some_iff.1 (show (m s).bind _ = _ from hr)
  exact h a t hm b s' hf

theorem get_bind {f : Session B σ → Act B σ β} (h : Ensures (f s) s Q) :
    Ensures (get >>= f) s Q := by
  apply bind
  intro a s' hr
  cases hr
  exact h

theorem set_bind {t : Session B σ} {f : PUnit → Act B σ β} (h : Ensures (f ⟨⟩) t Q) :
    Ensures (set t >>= f) s Q := by
  apply bind
  intro a s' hr
  cases hr
  exact h

theorem modify_bind {u : Session B σ → Session B σ} {f : PUnit → Act B σ β}
    (h : Ensures (f ⟨⟩) (u s) Q) : Ensures (modify u >>= f) s Q := by
  apply bind
  intro a s' hr
  cases hr
  exact h

theorem modifyGet_bind {u : Session B σ → α × Session B σ}
    (h : Ensures (f (u s).1) (u s).2 Q) : Ensures (modifyGet u >>= f) s Q := by
  apply bind
  intro a s' hr
  obtain ⟨rfl, rfl⟩ := Prod.mk.inj (Option.some.inj hr)
  exact h

/-- A step whose answer is known. -/
theorem of_eq {m : Act B σ β} {b : β} {s' : Session B σ} (hr : m s = some (b, s')) (h : Q b s') :
    Ensures m s Q := by
  intro b' s'' hr'
  obtain ⟨rfl, rfl⟩ := Prod.mk.inj (Option.some.inj (hr'.symm.trans hr))
  exact h

/-- A step that always answers. -/
theorem total {u : Session B σ → β × Session B σ} (h : Q (u s).1 (u s).2) :
    Ensures (fun s => some (u s)) s Q := by
  intro b s' hr
  rw [Option.some.inj hr] at h
  exact h

theorem mono {Q' : β → Session B σ → Prop} {m : Act B σ β} (h : Ensures m s Q')
    (hq : ∀ b s', Q' b s' → Q b s') : Ensures m s Q := fun b s' hr => hq b s' (h b s' hr)

end Ensures

/-! ## Steps that answer -/

/-- A step that answers in every session. -/
def Answers (m : Act B σ α) : Prop := ∀ s, ∃ a s', m s = some (a, s')

namespace Answers

theorem pure (a : α) : Answers (Pure.pure a : Act B σ α) := fun s => ⟨a, s, rfl⟩

/-- A step that cannot fail. -/
theorem total (u : Session B σ → α × Session B σ) : Answers fun s => some (u s) :=
  fun s => ⟨(u s).1, (u s).2, rfl⟩

theorem bind {m : Act B σ α} {f : α → Act B σ β} (hm : Answers m) (hf : ∀ a, Answers (f a)) :
    Answers (m >>= f) := by
  intro s
  obtain ⟨a, s', h⟩ := hm s
  obtain ⟨b, s'', h'⟩ := hf a s'
  refine ⟨b, s'', ?_⟩
  show (m s).bind _ = _
  rw [h]
  exact h'

end Answers

/-! ## Steady properties -/

/-- The node without its behaviour. -/
def Node.still (n : Node B) : Node B := { n with behavior := none }

/-- The nodes without their behaviours. -/
def Graph.still (g : Graph B) : Assoc NodeId (Node B) := g.nodes.mapValues fun _ n => n.still

/-- A property of graphs that depends on the skeleton and the nodes without their behaviours only,
and survives bringing the order up to date. -/
structure Steady (I : Graph B → Prop) : Prop where
  frame : ∀ g g', g'.skeleton = g.skeleton → g'.still = g.still → I g → I g'
  update : ∀ g, I g → I g.updateOrder

theorem Graph.still_modifyNode {g : Graph B} {id : NodeId} {f : Node B → Node B}
    (h : ∀ n, g.nodes.get? id = some n → (f n).still = n.still) :
    (g.modifyNode id f).still = g.still := Assoc.mapValues_modify h

theorem Graph.node_of_still {g g' : Graph B} (h : g'.still = g.still) {id : NodeId} {n : Node B}
    (hn : g'.nodes.get? id = some n) : ∃ m, g.nodes.get? id = some m ∧ m.still = n.still := by
  have hs : (g'.nodes.get? id).map Node.still = (g.nodes.get? id).map Node.still := by
    rw [← Assoc.get?_mapValues g'.nodes fun _ n => n.still]
    exact (congrArg (·.get? id) h).trans (Assoc.get?_mapValues ..)
  rw [hn] at hs
  exact Option.map_eq_some_iff.1 hs.symm

namespace Session

variable [Kind B]

theorem still_tell (s : Session B σ) (id : NodeId) (notice : Notice) :
    (s.tell id notice).graph.still = s.graph.still := by
  unfold tell
  split
  · next n hn =>
    obtain ⟨b, hb⟩ := n.tell_eq notice
    show (s.graph.modifyNode id fun _ => (n.tell notice).1).still = _
    rw [hb]
    apply Graph.still_modifyNode
    intro m hm
    rw [Option.some.inj (hn.symm.trans hm)]
    rfl
  · rfl

theorem still_stop (s : Session B σ) : s.stop.graph.still = s.graph.still := by
  have hall : ∀ (ids : List NodeId) (s : Session B σ),
      (s.tellAll ids .stopped).graph.still = s.graph.still := by
    intro ids
    induction ids with
    | nil => exact fun s => rfl
    | cons id ids ih => exact fun s => (ih _).trans (still_tell s id .stopped)
  unfold stop
  split
  · exact hall _ _
  · rfl

end Session

/-! ## Even properties -/

/-- A property of graphs that survives what the engine does between two bodies: it marks links,
counts, stops the graph and brings the order up to date. -/
structure Even [Kind B] (I : Graph B → Prop) : Prop where
  marked : ∀ g l, I g → I (g.modifyLink l fun l => { l with triggered := true })
  counted : ∀ g fixedTime iteration failed, I g → I { g with fixedTime, iteration, failed }
  stopped : ∀ {σ : Type} (s : Session B σ), I s.graph → I s.stop.graph
  update : ∀ g, I g → I g.updateOrder

theorem Steady.even [Kind B] {I : Graph B → Prop} (hI : Steady I) : Even I where
  marked _ _ := hI.frame _ _ (Graph.skeleton_modifyLink fun _ => rfl) rfl
  counted g _ _ _ := hI.frame g _ rfl rfl
  stopped s := hI.frame _ _ (Session.skeleton_stop s) (Session.still_stop s)
  update := hI.update

/-- The calls that only run bodies. -/
def Call.OnlyRuns : Call B → Prop
  | .edit _ | .add _ | .load .. => False
  | _ => True

namespace Engine

variable [Behavior B σ] {I : Graph B → Prop}

variable {run : Runner B σ}

/-! ### What entering a node comes to -/

omit [Behavior B σ] in
theorem get_bind_apply (k : Session B σ → Act B σ α) (s : Session B σ) : (get >>= k) s = k s s := rfl

theorem enter_busy {s : Session B σ} {id : NodeId} (hb : s.graph.behavior? id = none)
    (task : Task) : enter run id task s = some (none, s) := by
  unfold enter
  rw [get_bind_apply, hb]
  rfl

theorem enter_idle {s t : Session B σ} {id : NodeId} {b : B} {task : Task} {out : Outcome B}
    (hb : s.graph.behavior? id = some b)
    (hr : run (Behavior.body b id task) ((s.edit fun g => g.detach id).log (.began id b task)) =
      some (out, t)) :
    enter run id task s = some (some out.result, restore (t.log (.ended id)) id out.state) := by
  unfold enter
  rw [get_bind_apply, hb]
  show (run _ _).bind _ = _
  rw [hr]
  rfl

theorem runBody_enter {s t : Session B σ} {id : NodeId} {n : Node B} {payload : Option Value}
    {ending : Option Ending} (hn : s.graph.nodes.get? id = some n) (hx : n.canExecute = true)
    (he : enter run id (.execute payload) s = some (ending, t)) :
    runBody run id payload s = some (verdict id ending, t) := by
  unfold runBody
  rw [get_bind_apply, hn]
  show (if n.canExecute = true then _ else _ : Act B σ _) s = _
  rw [if_pos hx]
  show (enter run id _ s).bind _ = _
  rw [he]
  rfl

/-- A node whose turn it is runs, and then the others, unless it failed. -/
theorem runNodes_cons {s t : Session B σ} {id : NodeId} {answer : Except GraphError Bool}
    (h : isAlways s.graph id = true) (rest : List NodeId) :
    runBody run id none s = some (answer, t) → runNodes run (id :: rest) s =
      match answer with
      | .error e => some (.error e, t)
      | .ok _ => runNodes run rest t := by
  intro hr
  show (if isAlways s.graph id = true then _ else _ : Act B σ _) s = _
  rw [if_pos h]
  show (runBody run id none s).bind _ = _
  rw [hr]
  cases answer <;> rfl

/-- A step of one pass that answers with its failure ends as the pass does; besides that it only
counts. -/
theorem runStep_once {s t : Session B σ} {r : Except GraphError Unit}
    (hr : runNodes run (if s.graph.stale then s.edit Graph.updateOrder else s).graph.executable
      (if s.graph.stale then s.edit Graph.updateOrder else s) = some (r, t)) :
    ∃ s', runStep run 1 true s = some (r, s') ∧ ∃ time i,
      s'.graph = { t.graph with fixedTime := time, iteration := i } := by
  show ∃ s', ((runPasses run 1 _).bind _) = _ ∧ _
  show ∃ s', (((runNodes run _ _).bind _).bind _) = _ ∧ _
  rw [hr]
  cases r with
  | error e => exact ⟨_, rfl, t.graph.fixedTime, t.graph.iteration + 1, rfl⟩
  | ok done =>
    exact ⟨_, rfl, t.graph.fixedTime + t.graph.settings.fixedTimeLapse.toFloat,
      t.graph.iteration + 1, rfl⟩

/-! ### What entering a node keeps -/

/-- Behaviours may come and go without harm to a property. -/
def Aloof (I : Graph B → Prop) : Prop :=
  ∀ g id b, I g → I (g.modifyNode id fun n => { n with behavior := b })

omit [Behavior B σ] in
theorem aloof_of_steady (hI : Steady I) : Aloof I := by
  intro g id b hg
  exact hI.frame _ _ (Graph.skeleton_modifyNode (fun _ _ => rfl) fun _ _ => rfl)
    (Graph.still_modifyNode fun _ _ => rfl) hg

omit [Behavior B σ] in
theorem keeps_restore (hI : Aloof I) {s : Session B σ} (hs : I s.graph) (id : NodeId) (b : B) :
    I (restore s id b).graph := by
  unfold restore
  split
  · exact hI s.graph id (some b) hs
  · exact hs

/-- A body that is run by entering a node may be asked what it answers and what it leaves. -/
theorem ensures_enter {s : Session B σ} {id : NodeId} {b : B} {task : Task}
    {Q : Option Ending → Session B σ → Prop} (hb : s.graph.behavior? id = some b)
    (h : Ensures (run (Behavior.body b id task)) ((s.edit fun g => g.detach id).log (.began id b task))
      fun out t => Q (some out.result) (restore (t.log (.ended id)) id out.state)) :
    Ensures (enter run id task) s Q := by
  apply Ensures.get_bind
  rw [hb]
  apply Ensures.set_bind
  apply Ensures.bind
  refine h.mono fun out t ht => ?_
  apply Ensures.modify_bind
  exact Ensures.pure ht

/-- The same if bodies are nested: the body is run at some level, because at the last one none is. -/
theorem ensures_entered {depth : Nat} {s : Session B σ} {id : NodeId} {b : B} {task : Task}
    {Q : Option Ending → Session B σ → Prop} (hb : s.graph.behavior? id = some b)
    (h : ∀ depth, Ensures (runner (depth + 1) (Behavior.body b id task))
      ((s.edit fun g => g.detach id).log (.began id b task))
      fun out t => Q (some out.result) (restore (t.log (.ended id)) id out.state)) :
    Ensures (enter (runner depth) id task) s Q := by
  refine ensures_enter hb ?_
  cases depth with
  | zero =>
    intro out t hr
    cases hr
  | succ depth => exact h depth

/-- Entering a node keeps what the body of that node keeps. -/
theorem keeps_entered (hI : Aloof I) {s : Session B σ} (hs : I s.graph) {id : NodeId} {task : Task}
    (hrun : ∀ b, s.graph.behavior? id = some b → Keeps I (run (Behavior.body b id task))) :
    Ensures (enter run id task) s fun _ s' => I s'.graph := by
  cases hb : s.graph.behavior? id with
  | none =>
    intro answer s' hr
    rw [enter_busy hb] at hr
    cases hr
    exact hs
  | some b =>
    -- while the body runs, the node is without its behaviour
    have hd : I (s.graph.detach id) := hI s.graph id none hs
    refine ensures_enter hb ((hrun b hb _ hd).mono fun out t ht => ?_)
    exact keeps_restore hI (s := t.log (.ended id)) ht id out.state

/-- A node is added, unless there is no room, and then its body runs. -/
theorem ensures_insertNode {n : Node B} {refresh : Bool} {s : Session B σ}
    {Q : Except GraphError NodeId → Session B σ → Prop}
    (hfull : s.graph.settings.maxNodes ≤ s.graph.nodes.size → ∀ e, Q (.error e) s)
    (hroom : s.graph.nodes.size < s.graph.settings.maxNodes →
      Ensures (enter run (s.graph.claimNode n.id).1 .added)
        (s.edit fun g => g.place n (s.graph.claimNode n.id).1 (s.graph.claimNode n.id).2)
        fun _ t => ∀ u : Session B σ,
          u.graph = (if refresh then t.markStale.refresh else t.markStale).graph →
            Q (.ok (s.graph.claimNode n.id).1) u) :
    Ensures (insertNode run n refresh) s Q := by
  apply Ensures.get_bind
  show Ensures (ite _ _ _) s _
  split
  · next h => exact Ensures.pure (hfull h _)
  · next h =>
    apply Ensures.set_bind
    apply Ensures.bind
    refine (hroom (Nat.lt_of_not_le h)).mono fun _ t ht => ?_
    apply Ensures.modify_bind
    exact Ensures.pure (ht _ (by cases refresh <;> rfl))

section Entered

variable {id : NodeId} (henter : ∀ task, Keeps I (enter run id task))
include henter

theorem keeps_runBody (payload : Option Value) : Keeps I (runBody run id payload) := by
  intro s hs
  apply Ensures.get_bind
  split
  · exact Ensures.pure hs
  · split
    · apply Ensures.bind
      exact (henter _ s hs).mono fun _ _ hs' => Ensures.pure hs'
    · exact Ensures.pure hs

theorem keeps_runAction (action : String) (payload : Value) :
    Keeps I (runAction run id action payload) := by
  intro s hs
  apply Ensures.get_bind
  split
  · exact Ensures.pure hs
  · apply Ensures.bind
    exact (henter _ s hs).mono fun _ _ hs' => Ensures.pure hs'

end Entered

/-! ### Events that are delivered

Whatever the delivery through one link keeps, sending events keeps. -/

section Delivery

variable {payload : Value} (hdeliver : ∀ l, Keeps I (deliver run payload l))
include hdeliver

theorem keeps_deliverAll (ls : List LinkId) (count : Nat) :
    Keeps I (deliverAll run payload ls count) := by
  induction ls generalizing count with
  | nil => exact fun s hs => Ensures.pure hs
  | cons l ls ih =>
    intro s hs
    apply Ensures.bind
    refine (hdeliver l s hs).mono fun answer s' hs' => ?_
    cases answer with
    | error e => exact Ensures.pure hs'
    | ok ran => exact ih _ s' hs'

theorem keeps_triggerSlot (id : NodeId) (slot : Nat) (only : Option LinkId) :
    Keeps I (triggerSlot run id slot payload only) := by
  intro s hs
  apply Ensures.get_bind
  split
  · exact Ensures.pure hs
  · split
    · exact Ensures.pure hs
    · exact keeps_deliverAll hdeliver _ 0 s hs

end Delivery

section Even

variable (hI : Even I) (henter : ∀ id task, Keeps I (enter run id task))
include hI henter

/-! ### Events -/

theorem even_deliver (payload : Value) (l : LinkId) : Keeps I (deliver run payload l) := by
  intro s hs
  apply Ensures.get_bind
  split
  · exact Ensures.pure hs
  · apply Ensures.set_bind
    have ht := hI.marked s.graph l hs
    split
    · exact Ensures.pure ht
    · split
      · exact keeps_runAction (henter _) _ payload _ ht
      · split
        · exact keeps_runBody (henter _) _ _ ht
        · exact Ensures.pure ht

theorem even_triggerSlots (id : NodeId) (payload : Value) (slots : List Nat) (count : Nat) :
    Keeps I (triggerSlots run id payload slots count) := by
  induction slots generalizing count with
  | nil => exact fun s hs => Ensures.pure hs
  | cons slot slots ih =>
    intro s hs
    apply Ensures.bind
    have hslot := keeps_triggerSlot (even_deliver hI henter payload) id slot none
    refine (hslot s hs).mono fun answer s' hs' => ?_
    cases answer with
    | error e => exact Ensures.pure hs'
    | ok n => exact ih _ s' hs'

theorem even_trigger (id : NodeId) (action : Option String) (payload : Value) :
    Keeps I (trigger run id action payload) := by
  intro s hs
  apply Ensures.get_bind
  split
  · exact Ensures.pure hs
  · exact even_triggerSlots hI henter id payload _ 0 s hs

omit hI in
theorem even_pull (id : NodeId) (slot : Nat) : Keeps I (pull run id slot) := by
  intro s hs
  apply Ensures.get_bind
  split
  · exact Ensures.pure hs
  · apply Ensures.bind
    refine (keeps_runBody (henter _) none s hs).mono fun answer s' hs' => ?_
    cases answer with
    | error e => exact Ensures.pure hs'
    | ok ran => exact Ensures.get_bind (Ensures.pure hs')

/-! ### Steps -/

omit hI in
theorem even_runNodes (ids : List NodeId) : Keeps I (runNodes run ids) := by
  induction ids with
  | nil => exact fun s hs => Ensures.pure hs
  | cons id ids ih =>
    intro s hs
    apply Ensures.get_bind
    split
    · apply Ensures.bind
      refine (keeps_runBody (henter id) none s hs).mono fun answer s' hs' => ?_
      cases answer with
      | error e => exact Ensures.pure hs'
      | ok ran => exact ih s' hs'
    · exact ih s hs

theorem even_runPasses (passes : Nat) : Keeps I (runPasses run passes) := by
  induction passes with
  | zero => exact fun s hs => Ensures.pure hs
  | succ passes ih =>
    intro s hs
    apply Ensures.get_bind
    apply Ensures.bind
    refine (even_runNodes henter _ s hs).mono fun answer s' hs' => ?_
    cases answer with
    | error e => exact Ensures.pure hs'
    | ok done =>
      apply Ensures.modify_bind
      apply ih
      exact hI.counted s'.graph _ s'.graph.iteration s'.graph.failed hs'

omit henter in
theorem even_conclude (propagate : Bool) (result : Except GraphError Unit) (s : Session B σ)
    (hs : I s.graph) : I (conclude propagate result s).2.graph := by
  unfold conclude
  split
  · exact hs
  · exact hI.counted s.graph s.graph.fixedTime s.graph.iteration false hs
  · exact hs
  · apply hI.stopped
    exact hI.counted s.graph s.graph.fixedTime s.graph.iteration true hs

theorem even_runStep (passes : Nat) (propagate : Bool) : Keeps I (runStep run passes propagate) := by
  intro s hs
  apply Ensures.modify_bind
  have hu : I (if s.graph.stale then s.edit Graph.updateOrder else s).graph := by
    split
    · exact hI.update s.graph hs
    · exact hs
  apply Ensures.bind
  refine (even_runPasses hI henter passes _ hu).mono fun result s' hs' => ?_
  apply Ensures.modify_bind
  apply Ensures.modifyGet_bind
  apply Ensures.modify_bind
  apply Ensures.pure
  have hc := even_conclude hI propagate result (s'.log .stepped) hs'
  exact hI.counted _ _ _ _ hc

/-- Calls that only run bodies keep what entering nodes keeps. -/
theorem even_perform {c : Call B} (hc : c.OnlyRuns) : Keeps I (perform run c) := by
  cases c with
  | edit _ | add _ | load _ _ => exact hc.elim
  | execute id => exact keeps_runBody (henter id) none
  | triggerSlot id slot payload only =>
    exact keeps_triggerSlot (even_deliver hI henter payload) id slot only
  | trigger id action payload => exact even_trigger hI henter id action payload
  | pull id slot => exact even_pull henter id slot
  | runStep passes propagate => exact even_runStep hI henter passes propagate

end Even

section Steady

variable (hI : Steady I) (hrun : ∀ b id task, Keeps I (run (Behavior.body b id task)))
include hI hrun

theorem keeps_enter (id : NodeId) (task : Task) : Keeps I (enter run id task) :=
  fun _ hs => keeps_entered (aloof_of_steady hI) hs fun b _ => hrun b id task

theorem keeps_perform {c : Call B} (hc : c.OnlyRuns) : Keeps I (perform run c) :=
  even_perform hI.even (keeps_enter hI hrun) hc

end Steady

end Engine

/-! ## Contracts -/

/-- What a body may do and what it may rely on. -/
structure Contract (B : Type) where
  /-- What holds of the graph whenever a body looks at it. -/
  keeps : Graph B → Prop
  /-- The calls that a body may make. -/
  allows : Call B → Prop
  /-- What a body may rely on in the answer of a call. -/
  promises : (c : Call B) → c.Answer → Prop

/-- A body makes allowed calls only, whatever it sees and whatever it is answered within the
contract. -/
def Body.Obeys (K : Contract B) : Body B σ α → Prop
  | .done _ => True
  | .look next => ∀ g h, K.keeps g → (next g h).Obeys K
  | .keep _ next => next.Obeys K
  | .note _ next => next.Obeys K
  | .call c next => K.allows c ∧ ∀ a, K.promises c a → (next a).Obeys K

theorem Body.Obeys.bind {K : Contract B} {p : Body B σ α} (hp : p.Obeys K)
    {f : α → Body B σ β} (hf : ∀ a, (f a).Obeys K) : (p.bind f).Obeys K := by
  induction p with
  | done a => exact hf a
  | look next ih => exact fun g h hg => ih g h (hp g h hg)
  | keep change next ih => exact ih hp
  | note remark next ih => exact ih hp
  | call c next ih => exact ⟨hp.1, fun a ha => ih a (hp.2 a ha)⟩

theorem Body.Obeys.seq {K : Contract B} {p : Body B σ α} {f : α → Body B σ β} (hp : p.Obeys K)
    (hf : ∀ a, (f a).Obeys K) : (p >>= f).Obeys K := hp.bind hf

theorem Body.obeys_graph {K : Contract B} : (Body.graph : Body B σ _).Obeys K :=
  fun _ _ _ => trivial

theorem Body.Obeys.after {K : Contract B} {computed : Except NodeError α}
    {next : α → Body B σ Unit} (h : ∀ a, (next a).Obeys K) : (Body.after computed next).Obeys K := by
  cases computed with
  | error e => trivial
  | ok a => exact (h a).bind fun _ => trivial

/-- What performs the calls of a body abides by a contract. -/
def Contract.Honoured (K : Contract B) (perform : (c : Call B) → Act B σ c.Answer) : Prop :=
  ∀ c, K.allows c → ∀ s, K.keeps s.graph →
    Ensures (perform c) s fun a s' => K.promises c a ∧ K.keeps s'.graph

/-- A body that obeys a contract keeps what the contract keeps: induction on the body, one call
after the other. -/
theorem Body.keeps_run {K : Contract B} {perform : (c : Call B) → Act B σ c.Answer}
    (hc : K.Honoured perform) {p : Body B σ α} (hp : p.Obeys K) : Keeps K.keeps (p.run perform) := by
  induction p with
  | done a => exact fun s hs => Ensures.pure hs
  | look next ih =>
    intro s hs
    apply Ensures.get_bind
    exact ih _ _ (hp _ _ hs) s hs
  | keep change next ih =>
    intro s hs
    apply Ensures.modify_bind
    exact ih hp _ hs
  | note remark next ih =>
    intro s hs
    apply Ensures.modify_bind
    exact ih hp _ hs
  | call c next ih =>
    intro s hs
    apply Ensures.bind
    refine (hc c hp.1 s hs).mono fun a s' ha => ?_
    exact ih a (hp.2 a ha.1) s' ha.2

namespace Engine

variable [Behavior B σ]

/-- A contract for the engine: calls abide by it whenever the bodies that they run do. -/
def Lawful (K : Contract B) : Prop :=
  ∀ run : Runner B σ, (∀ b id task, Keeps K.keeps (run (Behavior.body b id task))) →
    K.Honoured (perform run)

variable {K : Contract B} (hK : Lawful K)
  (hb : ∀ b id task, (Behavior.body b id task : Body B σ (Outcome B)).Obeys K)
include hK hb

/-- The calls of bodies that obey a contract abide by it, however deeply bodies are nested. -/
theorem honoured_runner (depth : Nat) : K.Honoured (perform (runner (B := B) depth)) := by
  induction depth with
  | zero =>
    -- at depth zero no body runs to its end
    apply hK
    intro b id task s hs a s' hr
    cases hr
  | succ depth ih =>
    apply hK
    intro b id task
    exact Body.keeps_run ih (hb b id task)

theorem keeps_exec {p : Body B σ α} (hp : p.Obeys K) (depth : Nat) :
    Keeps K.keeps (exec depth p) :=
  Body.keeps_run (honoured_runner hK hb depth) hp

end Engine

end Dataflow
