/-
  Numbering the nodes of a run.

  Behaviours are values, so two nodes of one type cannot be told apart by what they hold.  Here
  each behaviour carries a number.  When its node is added it signs in at a roster that the host
  keeps: it takes the number of its place there, and from then on nothing changes the number.
  So a number stands for one node, as long as it lives and after it is gone, whatever becomes of
  its identity in the graph.

  Numbers change nothing else.  A numbered program works on what it sees without the numbers, and
  its run is the run of the program itself, with numbers (`exec_numbered`).
-/

import Dataflow.Proofs.Firing
import Dataflow.Proofs.Mapped

namespace Dataflow

variable {B σ α β : Type}

/-! ## Numbered behaviours -/

/-- A behaviour with its place in the roster, once its node was added. -/
structure Numbered (B : Type) where
  number : Option Nat
  plain : B

/-- What a host keeps, and the identities under which nodes were added, first to last. -/
structure Roster (σ : Type) where
  signed : List NodeId
  plain : σ

/-- A behaviour whose node was not added yet. -/
def Numbered.fresh (b : B) : Numbered B := ⟨none, b⟩

/-- One more node was added. -/
def Roster.sign (id : NodeId) (h : Roster σ) : Roster σ := { h with signed := h.signed ++ [id] }

instance [Kind B] : Kind (Numbered B) where
  inert := .fresh Kind.inert
  canExecute b := Kind.canExecute b.plain
  acceptsActions b := Kind.acceptsActions b.plain
  told b notice := { b with plain := Kind.told b.plain notice }
  acceptsLink b := Kind.acceptsLink b.plain
  keepsOld b := Kind.keepsOld b.plain
  annotate b := Kind.annotate b.plain

theorem unnoticed_plain [Kind B] : Unnoticed (Numbered.plain : Numbered B → B) where
  inert := rfl
  canExecute _ := rfl
  acceptsActions _ := rfl
  told _ _ := rfl
  acceptsLink _ _ _ := rfl
  keepsOld _ _ _ := rfl
  annotate _ _ := rfl

/-- The session without numbers. -/
def Session.forget (s : Session (Numbered B) (Roster σ)) : Session B σ :=
  s.map Numbered.plain Roster.plain

/-! ## Numbered programs -/

/-- A call on numbered behaviours.  The node that it adds has no number yet. -/
def Call.numbered : Call B → Call (Numbered B)
  | edit e => edit e
  | add n => add (n.map .fresh)
  | load snapshot keepOld => load snapshot keepOld
  | execute id => execute id
  | triggerSlot id slot payload only => triggerSlot id slot payload only
  | trigger id action payload => trigger id action payload
  | pull id slot => pull id slot
  | runStep passes propagate => runStep passes propagate

/-- The answer of a call without numbers. -/
def Call.forget (c : Call B) : c.numbered.Answer → c.Answer :=
  match c with
  | edit e => e.mapAnswer Numbered.plain
  | add _ | load .. | execute _ | triggerSlot .. | trigger .. | pull .. | runStep .. => fun a => a

/-- A program on numbered behaviours, of which it sees everything but the numbers. -/
def Body.numbered : Body B σ α → Body (Numbered B) (Roster σ) α
  | done a => done a
  | look next => look fun g h => (next (g.map Numbered.plain) h.plain).numbered
  | keep f next => keep (fun h => { h with plain := f h.plain }) next.numbered
  | note remark next => note remark next.numbered
  | call c next => call c.numbered fun a => (next (c.forget a)).numbered

/-- How a body ends that runs under a number. -/
def Outcome.under (number : Option Nat) (out : Outcome B) : Outcome (Numbered B) :=
  ⟨⟨number, out.state⟩, out.result⟩

/-- The body of a node with a number.  A node that is added signs in before all else. -/
instance [Behavior B σ] : Behavior (Numbered B) (Roster σ) where
  body b id
    | .added => .look fun _ h => .keep (Roster.sign id) <|
      (Behavior.body b.plain id .added).numbered.bind fun out => .done (out.under h.signed.length)
    | .execute payload =>
      (Behavior.body b.plain id (.execute payload)).numbered.bind fun out => .done (out.under b.number)
    | .act action payload =>
      (Behavior.body b.plain id (.act action payload)).numbered.bind fun out =>
        .done (out.under b.number)

/-! ## Runs without their numbers -/

/-- Whatever one step does to a session, another does to the session without numbers. -/
def Mirrors (ρ : α → β) (m' : Act (Numbered B) (Roster σ) α) (m : Act B σ β)
    (s : Session (Numbered B) (Roster σ)) : Prop :=
  m s.forget = (m' s).map fun r => (ρ r.1, r.2.forget)

namespace Mirrors

variable {α' β' : Type} {ρ : α → β} {π : α' → β'} {s : Session (Numbered B) (Roster σ)}

theorem pure (a : α) : Mirrors ρ (Pure.pure a) (Pure.pure (ρ a)) s := rfl

theorem bind {m' : Act (Numbered B) (Roster σ) α} {m : Act B σ β}
    {k' : α → Act (Numbered B) (Roster σ) α'} {k : β → Act B σ β'} (hm : Mirrors ρ m' m s)
    (hk : ∀ a s', Mirrors π (k' a) (k (ρ a)) s') : Mirrors π (m' >>= k') (m >>= k) s := by
  show (m s.forget).bind (fun r => k r.1 r.2) = ((m' s).bind fun r => k' r.1 r.2).map _
  rw [hm]
  cases m' s with
  | none => rfl
  | some r => exact hk r.1 r.2

theorem get_bind {k' : Session (Numbered B) (Roster σ) → Act (Numbered B) (Roster σ) α'}
    {k : Session B σ → Act B σ β'} (hk : Mirrors π (k' s) (k s.forget) s) :
    Mirrors π (get >>= k') (get >>= k) s := hk

theorem set_bind {t : Session (Numbered B) (Roster σ)} {u : Session B σ}
    {k' : PUnit → Act (Numbered B) (Roster σ) α'} {k : PUnit → Act B σ β'} (hu : u = t.forget)
    (hk : Mirrors π (k' ⟨⟩) (k ⟨⟩) t) : Mirrors π (set t >>= k') (set u >>= k) s := by
  subst hu
  exact hk

theorem modify_bind {c : Session (Numbered B) (Roster σ) → Session (Numbered B) (Roster σ)}
    {d : Session B σ → Session B σ} {k' : PUnit → Act (Numbered B) (Roster σ) α'}
    {k : PUnit → Act B σ β'} (hd : d s.forget = (c s).forget) (hk : Mirrors π (k' ⟨⟩) (k ⟨⟩) (c s)) :
    Mirrors π (modify c >>= k') (modify d >>= k) s := by
  show k ⟨⟩ (d s.forget) = _
  rw [hd]
  exact hk

/-- A step that cannot fail. -/
theorem total {c : Session (Numbered B) (Roster σ) → α × Session (Numbered B) (Roster σ)}
    {d : Session B σ → β × Session B σ} (hd : d s.forget = Prod.map ρ Session.forget (c s)) :
    Mirrors ρ (fun s => some (c s)) (fun s => some (d s)) s := congrArg some hd

theorem modifyGet_bind {c : Session (Numbered B) (Roster σ) → α × Session (Numbered B) (Roster σ)}
    {d : Session B σ → β × Session B σ} {k' : α → Act (Numbered B) (Roster σ) α'}
    {k : β → Act B σ β'} (hd : d s.forget = Prod.map ρ Session.forget (c s))
    (hk : Mirrors π (k' (c s).1) (k (ρ (c s).1)) (c s).2) :
    Mirrors π (modifyGet c >>= k') (modifyGet d >>= k) s := by
  show k (d s.forget).1 (d s.forget).2 = _
  rw [hd]
  exact hk

end Mirrors

/-! ### What a step sees -/

namespace Graph

variable {C : Type} {f : B → C} (g : Graph B)

theorem claimNode_map (requested : Option NodeId) :
    (g.map f).claimNode requested = g.claimNode requested := by
  have hfree : ∀ fuel n, freeNodeFrom (g.map f).nodes fuel n = freeNodeFrom g.nodes fuel n := by
    intro fuel
    induction fuel with
    | zero => exact fun _ => rfl
    | succ fuel ih =>
      intro n
      unfold freeNodeFrom
      rw [g.contains_map, ih]
  have hs : (g.map f).nodes.size = g.nodes.size := Assoc.size_mapValues ..
  unfold claimNode
  rw [hfree, hs]
  simp only [g.contains_map]
  rfl

theorem place_map (n : Node B) (id : NodeId) (next : Nat) :
    (g.map f).place (n.map f) id next = (g.place n id next).map f := by
  have hs : (n.map f).snapped g.settings = (n.snapped g.settings).map f := by
    unfold Node.snapped
    split
    · exact n.alignToGrid_map _
    · rfl
  have hn := g.nodes.mapValues_insert (fun _ n => n.map f) id
    { n.snapped g.settings with id := some id }
  rw [place_snapped, place_snapped]
  unfold map
  simp only [hs]
  rw [bump, bump, hn]
  rfl

end Graph

namespace Session

variable (s : Session (Numbered B) (Roster σ)) (id : NodeId)

theorem get?_forget :
    s.forget.graph.nodes.get? id = (s.graph.nodes.get? id).map (·.map Numbered.plain) :=
  s.graph.get?_map id

theorem behavior?_forget : s.forget.graph.behavior? id = (s.graph.behavior? id).map Numbered.plain :=
  s.graph.behavior?_map id

theorem edit_forget {c : Graph (Numbered B) → Graph (Numbered B)} {d : Graph B → Graph B}
    (hg : d (s.graph.map Numbered.plain) = (c s.graph).map Numbered.plain) :
    s.forget.edit d = (s.edit c).forget :=
  edit_map rfl hg

theorem restore_forget (b : Numbered B) :
    Engine.restore s.forget id b.plain = (Engine.restore s id b).forget := by
  have ha : s.forget.graph.awaitsBehavior id = s.graph.awaitsBehavior id := by
    unfold Graph.awaitsBehavior
    rw [get?_forget]
    cases s.graph.nodes.get? id with
    | none => rfl
    | some n => exact Option.isNone_map
  unfold Engine.restore
  rw [ha]
  split
  · exact s.edit_forget (Graph.modifyNode_map rfl fun _ => rfl)
  · rfl

end Session

/-- How the body of a numbered node ends, without the number. -/
def Outcome.forget (out : Outcome (Numbered B)) : Outcome B := ⟨out.state.plain, out.result⟩

namespace Engine

variable [Behavior B σ] {run' : Runner (Numbered B) (Roster σ)} {run : Runner B σ}
  (hrun : ∀ (b : Numbered B) id task s, Mirrors Outcome.forget (run' (Behavior.body b id task))
    (run (Behavior.body b.plain id task)) s)
include hrun

theorem mirrors_enter (id : NodeId) (task : Task) (s : Session (Numbered B) (Roster σ)) :
    Mirrors (fun a => a) (enter run' id task) (enter run id task) s := by
  apply Mirrors.get_bind
  rw [s.behavior?_forget]
  cases s.graph.behavior? id with
  | none => exact .pure none
  | some b =>
    have hd : (s.graph.map Numbered.plain).detach id = (s.graph.detach id).map Numbered.plain :=
      Graph.modifyNode_map rfl fun _ => rfl
    have hs : s.forget.edit (·.detach id) = (s.edit (·.detach id)).forget := s.edit_forget hd
    refine .set_bind ?_ ?_
    · exact congrArg (·.log (.began id b.plain task)) hs
    · refine .bind (hrun b id task _) fun out t => ?_
      exact .modify_bind ((t.log (.ended id)).restore_forget id out.state) (.pure _)

theorem mirrors_runBody (id : NodeId) (payload : Option Value)
    (s : Session (Numbered B) (Roster σ)) :
    Mirrors (fun a => a) (runBody run' id payload) (runBody run id payload) s := by
  apply Mirrors.get_bind
  rw [s.get?_forget]
  cases s.graph.nodes.get? id with
  | none => exact .pure _
  | some n =>
    show Mirrors _ (if n.canExecute then _ else _) (if n.canExecute then _ else _) s
    split
    · exact .bind (mirrors_enter hrun id _ s) fun ending t => .pure _
    · exact .pure _

theorem mirrors_runAction (id : NodeId) (action : String) (payload : Value)
    (s : Session (Numbered B) (Roster σ)) :
    Mirrors (fun a => a) (runAction run' id action payload) (runAction run id action payload) s := by
  apply Mirrors.get_bind
  rw [s.get?_forget]
  cases s.graph.nodes.get? id with
  | none => exact .pure _
  | some n => exact .bind (mirrors_enter hrun id _ s) fun ending t => .pure _

/-! ### Adding -/

theorem mirrors_insertNode (n : Node (Numbered B)) (refresh : Bool)
    (s : Session (Numbered B) (Roster σ)) : Mirrors (fun a => a) (insertNode run' n refresh)
      (insertNode run (n.map Numbered.plain) refresh) s := by
  have hsize : s.forget.graph.nodes.size = s.graph.nodes.size := Assoc.size_mapValues ..
  have hclaim : s.forget.graph.claimNode (n.map Numbered.plain).id = s.graph.claimNode n.id :=
    s.graph.claimNode_map n.id
  apply Mirrors.get_bind
  rw [hsize]
  show Mirrors _ (if s.graph.settings.maxNodes ≤ s.graph.nodes.size then _ else _)
    (if s.graph.settings.maxNodes ≤ s.graph.nodes.size then _ else _) s
  split
  · exact .pure _
  · simp only [hclaim]
    refine .set_bind (s.edit_forget (s.graph.place_map n _ _)) ?_
    refine .bind (mirrors_enter hrun _ .added _) fun _ t => ?_
    refine .modify_bind ?_ (.pure _)
    cases refresh with
    | true =>
      have hr : t.forget.markStale.refresh = t.markStale.refresh.forget :=
        Session.refresh_map (f := Numbered.plain) (h := Roster.plain) t.markStale
      exact congrArg (fun u : Session B σ => (u.log (.nodeAdded _)).changed) hr
    | false => rfl

theorem mirrors_placeAll (rs : List NodeRecord) (p : Placing) (s : Session (Numbered B) (Roster σ)) :
    Mirrors (fun a => a) (placeAll run' rs p) (placeAll run rs p) s := by
  induction rs generalizing p s with
  | nil => exact .pure _
  | cons r rs ih =>
    have hcreate : s.forget.graph.registry.create r.type r.title =
        (s.graph.registry.create r.type r.title).map (·.map Numbered.plain) :=
      Registry.create_map unnoticed_plain s.graph.registry r.type r.title
    have hplaceholder := Node.placeholder_map (unnoticed_plain (B := B)) r
    apply Mirrors.get_bind
    rw [hcreate]
    cases s.graph.registry.create r.type r.title with
    | ok n =>
      refine .bind (mirrors_insertNode hrun { n with id := r.id } false s) fun answer t => ?_
      cases answer with
      | error e => exact ih _ t
      | ok id => exact ih _ t
    | error e =>
      show Mirrors _ _ (insertNode run { (Node.placeholder r : Node B) with id := r.id } false >>= _) s
      rw [hplaceholder]
      refine .bind (mirrors_insertNode hrun
        { (Node.placeholder r : Node (Numbered B)) with id := r.id } false s) fun answer t => ?_
      cases answer with
      | error e => exact ih _ t
      | ok id => exact ih _ t

theorem mirrors_load (snapshot : Snapshot) (keepOld : Bool) (s : Session (Numbered B) (Roster σ)) :
    Mirrors (fun a => a) (load run' snapshot keepOld) (load run snapshot keepOld) s := by
  apply Mirrors.modify_bind
  · cases keepOld with
    | true => rfl
    | false =>
      show ((s.forget.clear.edit _).beginBatch : Session B σ) = _
      rw [show s.forget.clear = s.clear.forget from s.clear_map unnoticed_plain]
      rfl
  · refine .bind (mirrors_placeAll hrun _ _ _) fun p t => ?_
    exact .total (t.settleLoad_map unnoticed_plain snapshot p.placed p.nodes p.report)

/-! ### Events -/

theorem mirrors_deliver (payload : Value) (l : LinkId) (s : Session (Numbered B) (Roster σ)) :
    Mirrors (fun a => a) (deliver run' payload l) (deliver run payload l) s := by
  apply Mirrors.get_bind
  have hlinks : s.forget.graph.links = s.graph.links := rfl
  rw [hlinks]
  cases s.graph.links.get? l with
  | none => exact .pure _
  | some link =>
    refine .set_bind rfl ?_
    rw [s.get?_forget]
    cases s.graph.nodes.get? link.target with
    | none => exact .pure _
    | some n =>
      show Mirrors _ (if n.acceptsActions then _ else _) (if n.acceptsActions then _ else _) _
      split
      · exact mirrors_runAction hrun _ _ payload _
      · show Mirrors _ (if n.mode = .onTrigger then _ else _) (if n.mode = .onTrigger then _ else _) _
        split
        · exact mirrors_runBody hrun _ _ _
        · exact .pure _

theorem mirrors_deliverAll (payload : Value) (ls : List LinkId) (count : Nat)
    (s : Session (Numbered B) (Roster σ)) :
    Mirrors (fun a => a) (deliverAll run' payload ls count) (deliverAll run payload ls count) s := by
  induction ls generalizing count s with
  | nil => exact .pure _
  | cons l ls ih =>
    refine .bind (mirrors_deliver hrun payload l s) fun answer t => ?_
    cases answer with
    | error e => exact .pure _
    | ok ran => exact ih _ t

theorem mirrors_triggerSlot (id : NodeId) (slot : Nat) (payload : Value) (only : Option LinkId)
    (s : Session (Numbered B) (Roster σ)) : Mirrors (fun a => a)
      (triggerSlot run' id slot payload only) (triggerSlot run id slot payload only) s := by
  apply Mirrors.get_bind
  rw [s.get?_forget]
  cases s.graph.nodes.get? id with
  | none => exact .pure _
  | some n =>
    have houtputs : (n.map Numbered.plain).outputs = n.outputs := rfl
    rw [Option.map_some]
    dsimp only
    rw [houtputs]
    cases n.outputs[slot]? with
    | none => exact .pure _
    | some o => exact mirrors_deliverAll hrun payload _ 0 s

theorem mirrors_triggerSlots (id : NodeId) (payload : Value) (slots : List Nat) (count : Nat)
    (s : Session (Numbered B) (Roster σ)) : Mirrors (fun a => a)
      (triggerSlots run' id payload slots count) (triggerSlots run id payload slots count) s := by
  induction slots generalizing count s with
  | nil => exact .pure _
  | cons slot slots ih =>
    refine .bind (mirrors_triggerSlot hrun id slot payload none s) fun answer t => ?_
    cases answer with
    | error e => exact .pure _
    | ok n => exact ih _ t

theorem mirrors_trigger (id : NodeId) (action : Option String) (payload : Value)
    (s : Session (Numbered B) (Roster σ)) :
    Mirrors (fun a => a) (trigger run' id action payload) (trigger run id action payload) s := by
  apply Mirrors.get_bind
  rw [s.get?_forget]
  cases s.graph.nodes.get? id with
  | none => exact .pure _
  | some n => exact mirrors_triggerSlots hrun id payload _ 0 s

theorem mirrors_pull (id : NodeId) (slot : Nat) (s : Session (Numbered B) (Roster σ)) :
    Mirrors (fun a => a) (pull run' id slot) (pull run id slot) s := by
  have hl : ∀ s : Session (Numbered B) (Roster σ),
      s.forget.graph.inputLink? id slot = s.graph.inputLink? id slot := by
    intro s
    unfold Graph.inputLink?
    rw [show s.forget.graph.input? id slot = s.graph.input? id slot from s.graph.input?_map id slot]
    rfl
  apply Mirrors.get_bind
  rw [hl]
  cases s.graph.inputLink? id slot with
  | none => exact .pure _
  | some l =>
    refine .bind (mirrors_runBody hrun l.origin none s) fun answer t => ?_
    cases answer with
    | error e => exact .pure _
    | ok ran =>
      apply Mirrors.get_bind
      show some (Except.ok ((t.forget.graph.inputLink? id slot).bind Link.data), t.forget) = _
      rw [hl]
      rfl

/-! ### Steps -/

theorem mirrors_runNodes (ids : List NodeId) (s : Session (Numbered B) (Roster σ)) :
    Mirrors (fun a => a) (runNodes run' ids) (runNodes run ids) s := by
  induction ids generalizing s with
  | nil => exact .pure _
  | cons id ids ih =>
    have hi : isAlways s.forget.graph id = isAlways s.graph id := by
      unfold isAlways
      rw [s.get?_forget]
      cases s.graph.nodes.get? id <;> rfl
    apply Mirrors.get_bind
    rw [hi]
    split
    · refine .bind (mirrors_runBody hrun id none s) fun answer t => ?_
      cases answer with
      | error e => exact .pure _
      | ok ran => exact ih t
    · exact ih s

theorem mirrors_runPasses (passes : Nat) (s : Session (Numbered B) (Roster σ)) :
    Mirrors (fun a => a) (runPasses run' passes) (runPasses run passes) s := by
  induction passes generalizing s with
  | zero => exact .pure _
  | succ passes ih =>
    apply Mirrors.get_bind
    refine .bind (mirrors_runNodes hrun _ s) fun answer t => ?_
    cases answer with
    | error e => exact .pure _
    | ok done => exact .modify_bind rfl (ih _)

omit hrun in
theorem conclude_forget (propagate : Bool) (result : Except GraphError Unit)
    (s : Session (Numbered B) (Roster σ)) : conclude propagate result s.forget =
      Prod.map (fun a => a) Session.forget (conclude propagate result s) := by
  cases result with
  | ok done => cases propagate <;> rfl
  | error e =>
    cases propagate with
    | true => rfl
    | false =>
      have hs : (s.forget.edit fun g => { g with failed := true }).stop =
          (s.edit fun g => { g with failed := true }).stop.forget :=
        Session.stop_map (h := Roster.plain) (s.edit fun g => { g with failed := true }) unnoticed_plain
      exact congrArg (Prod.mk _) hs

theorem mirrors_runStep (passes : Nat) (propagate : Bool) (s : Session (Numbered B) (Roster σ)) :
    Mirrors (fun a => a) (runStep run' passes propagate) (runStep run passes propagate) s := by
  apply Mirrors.modify_bind
  · show (if s.graph.stale then _ else _ : Session B σ) = Session.forget (if s.graph.stale then _ else _)
    split
    · exact s.edit_forget s.graph.updateOrder_map
    · rfl
  · refine .bind (mirrors_runPasses hrun passes _) fun result t => ?_
    refine .modify_bind rfl ?_
    refine .modifyGet_bind (conclude_forget propagate result (t.log .stepped)) ?_
    exact .modify_bind rfl (.pure _)

/-! ### Programs -/

theorem mirrors_perform (c : Call B) (s : Session (Numbered B) (Roster σ)) :
    Mirrors c.forget (perform run' c.numbered) (perform run c) s := by
  cases c with
  | edit e => exact congrArg some (e.apply_map unnoticed_plain s)
  | add n =>
    have hn : (n.map Numbered.fresh).map Numbered.plain = n := by
      have hb : (n.behavior.map Numbered.fresh).map Numbered.plain = n.behavior := by
        cases n.behavior <;> rfl
      show { n with behavior := (n.behavior.map Numbered.fresh).map Numbered.plain } = n
      rw [hb]
    have hm := mirrors_insertNode hrun (n.map .fresh) true s
    rw [hn] at hm
    exact hm
  | load snapshot keepOld => exact mirrors_load hrun snapshot keepOld s
  | execute id => exact mirrors_runBody hrun id none s
  | triggerSlot id slot payload only => exact mirrors_triggerSlot hrun id slot payload only s
  | trigger id action payload => exact mirrors_trigger hrun id action payload s
  | pull id slot => exact mirrors_pull hrun id slot s
  | runStep passes propagate => exact mirrors_runStep hrun passes propagate s

omit hrun [Behavior B σ] in
/-- A numbered program does what the program does: induction on the program, call by call. -/
theorem mirrors_numbered {perform' : (c : Call (Numbered B)) → Act (Numbered B) (Roster σ) c.Answer}
    {perform : (c : Call B) → Act B σ c.Answer}
    (h : ∀ c s, Mirrors c.forget (perform' (Call.numbered c)) (perform c) s) (p : Body B σ α)
    (s : Session (Numbered B) (Roster σ)) :
    Mirrors (fun a => a) (p.numbered.run perform') (p.run perform) s := by
  induction p generalizing s with
  | done a => exact .pure a
  | look next ih => exact .get_bind (ih _ _ s)
  | keep change next ih => exact .modify_bind rfl (ih _)
  | note remark next ih => exact .modify_bind rfl (ih _)
  | call c next ih => exact .bind (h c s) fun a t => ih _ t

omit hrun in
/-- Bodies of numbered nodes do what the bodies of the nodes do, however deeply they are nested. -/
theorem mirrors_runner (depth : Nat) (b : Numbered B) (id : NodeId) (task : Task)
    (s : Session (Numbered B) (Roster σ)) : Mirrors Outcome.forget
      (runner depth (Behavior.body b id task)) (runner depth (Behavior.body b.plain id task)) s := by
  induction depth generalizing b id task s with
  | zero => rfl
  | succ depth ih =>
    have hp : ∀ (p : Body B σ (Outcome B)) (number : Option Nat) s, Mirrors Outcome.forget
        ((p.numbered.bind fun out => .done (out.under number)).run (perform (runner depth)))
        (p.run (perform (runner depth))) s := by
      intro p number s
      rw [Body.run_bind]
      have hm := mirrors_numbered (mirrors_perform ih) p s
      unfold Mirrors at hm ⊢
      rw [hm]
      show _ = Option.map _ (Option.bind _ _)
      cases p.numbered.run (perform (runner depth)) s <;> rfl
    cases task with
    | added => exact hp _ _ { s with host := s.host.sign id }
    | execute payload => exact hp _ _ s
    | act action payload => exact hp _ _ s

omit hrun in
/-- The run of a program is the run of the numbered program, without the numbers. -/
theorem exec_numbered (depth : Nat) (p : Body B σ α) (s : Session (Numbered B) (Roster σ)) :
    exec depth p s.forget = (exec depth p.numbered s).map fun r => (r.1, r.2.forget) :=
  mirrors_numbered (mirrors_perform (mirrors_runner depth)) p s

end Engine

end Dataflow
