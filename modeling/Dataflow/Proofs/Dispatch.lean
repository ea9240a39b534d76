/-
  Running bodies comes to an end, and no node is entered while it runs.

  Event links and links of data may form cycles, and bodies may take nodes and links away while
  others wait for them.  What bounds all this is the number of `idle` nodes, those whose
  behaviour is in them.  To enter a node takes its behaviour out, and only the return of that very
  body puts it back; no edit wakes a node, and adding nodes is not allowed here.

  1. The events of a run are `Nested` over a set of nodes: entering a node and leaving it enclose
     events that are nested over the other nodes.
  2. A step `Returns` from sessions with few idle nodes: it answers, with nested events and without
     a new idle node.  One lemma for each step of the engine, given that bodies return from
     sessions with fewer idle nodes.
  3. Induction on the depth: where no more nodes are idle than bodies may be nested, every call
     returns (`returns_runner`).
-/

import Mathlib.Data.List.Nodup
import Mathlib.Data.List.Perm.Subperm
import Dataflow.Proofs.Depth
import Dataflow.Proofs.Lasting
import Dataflow.Proofs.Standard

namespace Dataflow

variable {B σ α β : Type}

/-! ## Histories -/

/-- The nodes whose bodies are running after an event, given those before it. -/
def Event.track : Event B → List NodeId → List NodeId
  | .began id .. => fun ids => id :: ids
  | .ended id => fun ids => ids.erase id
  | _ => fun ids => ids

/-- The nodes whose bodies were entered and have not returned, the last one entered first.  Events
are given newest first, as everywhere. -/
def underway (history : List (Event B)) : List NodeId := history.foldr Event.track []

/-- A history in which bodies are nested and none is entered inside itself; the nodes entered are
in `free`. -/
inductive Nested : (free : NodeId → Prop) → List (Event B) → Prop where
  | nil {free : NodeId → Prop} : Nested free []
  | news {free : NodeId → Prop} {e : Event B} {past : List (Event B)} (he : e.isActivity = false)
    (rest : Nested free past) : Nested free (e :: past)
  | activation {free : NodeId → Prop} {id : NodeId} (b : B) (task : Task)
    {inside past : List (Event B)} (hid : free id) (inner : Nested (fun i => free i ∧ i ≠ id) inside)
    (rest : Nested free past) : Nested free (.ended id :: (inside ++ .began id b task :: past))

namespace Nested

variable {free free' : NodeId → Prop} {new old past : List (Event B)}

theorem mono (h : Nested free old) (hf : ∀ i, free i → free' i) : Nested free' old := by
  induction h generalizing free' with
  | nil => exact .nil
  | news he _ ih => exact .news he (ih hf)
  | activation b task hid _ _ inner rest =>
    exact .activation b task (hf _ hid) (inner fun i hi => ⟨hf i hi.1, hi.2⟩) (rest hf)

theorem append (h : Nested free new) (h' : Nested free old) : Nested free (new ++ old) := by
  induction h with
  | nil => exact h'
  | news he _ ih => exact .news he (ih h')
  | activation b task hid inner _ _ rest =>
    rw [List.cons_append, List.append_assoc, List.cons_append]
    exact .activation b task hid inner (rest h')

theorem of_news (h : ∀ e ∈ new, e.isActivity = false) : Nested free new := by
  induction new with
  | nil => exact .nil
  | cons e new ih => exact .news (h e (by simp)) (ih fun e he => h e (List.mem_cons_of_mem _ he))

theorem track_of_news {e : Event B} (he : e.isActivity = false) (ids : List NodeId) :
    e.track ids = ids := by
  cases e <;> first | rfl | cases he

/-- Every body entered has returned in the end. -/
theorem track_all (h : Nested free new) (ids : List NodeId) : new.foldr Event.track ids = ids := by
  induction h generalizing ids with
  | nil => rfl
  | news he _ ih => rw [List.foldr_cons, ih, track_of_news he]
  | @activation free id b task inside past hid _ _ inner rest =>
    rw [List.foldr_cons, List.foldr_append, List.foldr_cons, rest]
    show (inside.foldr Event.track (id :: ids)).erase id = ids
    rw [inner, List.erase_cons_head]

theorem suffix_append {xs ys zs : List α} (h : zs <:+ xs ++ ys) :
    zs <:+ ys ∨ ∃ zs', zs' <:+ xs ∧ zs = zs' ++ ys := by
  induction xs with
  | nil => exact .inl h
  | cons x xs ih =>
    rcases List.suffix_cons_iff.1 h with rfl | h
    · exact .inr ⟨x :: xs, List.suffix_rfl, rfl⟩
    · rcases ih h with hy | ⟨zs', hx, rfl⟩
      · exact .inl hy
      · exact .inr ⟨zs', hx.trans (List.suffix_cons x xs), rfl⟩

/-- At every moment the bodies that are running belong to different nodes, all of them free. -/
theorem track_past (h : Nested free new) (hp : past <:+ new) (ids : List NodeId) :
    ∃ top, past.foldr Event.track ids = top ++ ids ∧ top.Nodup ∧ ∀ i ∈ top, free i := by
  have none : ∀ {free : NodeId → Prop},
      ∃ top, ids = top ++ ids ∧ top.Nodup ∧ ∀ i ∈ top, free i :=
    ⟨[], rfl, List.nodup_nil, fun _ hi => nomatch hi⟩
  induction h generalizing past ids with
  | nil =>
    rw [List.suffix_nil.1 hp]
    exact none
  | @news free e old he rest ih =>
    rcases List.suffix_cons_iff.1 hp with rfl | hp
    · rw [(Nested.news he rest).track_all]
      exact none
    · exact ih hp ids none
  | @activation free id b task inside old hid hin hrest inner rest =>
    rcases List.suffix_cons_iff.1 hp with rfl | hp
    · rw [(Nested.activation b task hid hin hrest).track_all]
      exact none
    rcases suffix_append hp with hp | ⟨late, hlate, rfl⟩
    · rcases List.suffix_cons_iff.1 hp with rfl | hp
      · -- the body has just been entered
        rw [List.foldr_cons, hrest.track_all]
        exact ⟨[id], rfl, List.nodup_singleton id, fun i hi => List.mem_singleton.1 hi ▸ hid⟩
      · exact rest hp ids none
    · -- in the midst of the body
      rw [List.foldr_append, List.foldr_cons, hrest.track_all]
      obtain ⟨top, htop, hn, hf⟩ :=
        inner hlate (id :: ids) ⟨[], rfl, List.nodup_nil, fun _ hi => nomatch hi⟩
      refine ⟨top ++ [id], ?_, ?_, fun i hi => ?_⟩
      · show late.foldr Event.track (id :: ids) = _
        rw [htop, List.append_assoc, List.singleton_append]
      · have hid' : id ∉ top := fun hi => (hf id hi).2 rfl
        exact List.Nodup.append hn (List.nodup_singleton id)
          fun i hi hi' => hid' (List.mem_singleton.1 hi' ▸ hi)
      · rcases List.mem_append.1 hi with hi | hi
        · exact (hf i hi).1
        · exact List.mem_singleton.1 hi ▸ hid

end Nested

/-! ## Idle nodes -/

namespace Graph

/-- The nodes whose behaviour is in them. -/
def idle (g : Graph B) : List NodeId := g.nodes.keys.filter fun id => (g.behavior? id).isSome

variable {g g' : Graph B} {id i : NodeId}

theorem mem_idle : i ∈ g.idle ↔ ∃ n, g.nodes.get? i = some n ∧ n.behavior.isSome = true := by
  unfold idle behavior?
  rw [List.mem_filter, Assoc.mem_keys_iff]
  constructor
  · rintro ⟨⟨n, hn⟩, hb⟩
    rw [hn] at hb
    exact ⟨n, hn, hb⟩
  · rintro ⟨n, hn, hb⟩
    exact ⟨⟨n, hn⟩, by rw [hn]; exact hb⟩

theorem nodup_idle (g : Graph B) : g.idle.Nodup := g.nodes.nodup_keys.filter _

theorem idle_length_le_size (g : Graph B) : g.idle.length ≤ g.nodes.size := by
  rw [Assoc.size_eq_length_keys]
  exact List.length_filter_le _ _

theorem Descends.idle {T : NodeId → Prop} (h : g'.Descends T g) (hi : i ∈ g'.idle) : i ∈ g.idle := by
  obtain ⟨n', hn', hb⟩ := mem_idle.1 hi
  obtain ⟨n, hn, hl⟩ := h i n' hn'
  have hm : n'.behavior.isSome = n.behavior.isSome := congrArg Make.idle hl.make
  exact mem_idle.2 ⟨n, hn, hm ▸ hb⟩

theorem mem_idle_detach : i ∈ (g.detach id).idle ↔ i ∈ g.idle ∧ i ≠ id := by
  rw [mem_idle, mem_idle]
  show (∃ n, (g.nodes.modify id _).get? i = some n ∧ _) ↔ _
  rw [Assoc.get?_modify]
  constructor
  · rintro ⟨n, hn, hb⟩
    split at hn
    · obtain ⟨m, -, rfl⟩ := Option.map_eq_some_iff.1 hn
      cases hb
    · next hi => exact ⟨⟨n, hn, hb⟩, hi⟩
  · rintro ⟨⟨n, hn, hb⟩, hi⟩
    rw [if_neg hi]
    exact ⟨n, hn, hb⟩

theorem idle_attach {b : B} (hi : i ∈ (g.attach id b).idle) : i ∈ g.idle ∨ i = id := by
  obtain ⟨n, hn, hb⟩ := mem_idle.1 hi
  obtain ⟨-, hold⟩ | ⟨hi, -⟩ := Assoc.exists_of_get?_modify hn
  · exact .inl (mem_idle.2 ⟨n, hold, hb⟩)
  · exact .inr hi

/-- Taking a behaviour out leaves fewer idle nodes. -/
theorem idle_length_detach (hid : id ∈ g.idle) : (g.detach id).idle.length < g.idle.length := by
  have hn : (id :: (g.detach id).idle).Nodup :=
    List.nodup_cons.2 ⟨fun h => (mem_idle_detach.1 h).2 rfl, nodup_idle _⟩
  have hs : id :: (g.detach id).idle ⊆ g.idle := by
    intro i hi
    rcases List.mem_cons.1 hi with rfl | hi
    · exact hid
    · exact (mem_idle_detach.1 hi).1
  exact (List.subperm_of_subset hn hs).length_le

end Graph

/-! ## Steps that return -/

/-- One session follows on another by a run that wakes no node and enters no node twice. -/
structure Session.RunsTo (s s' : Session B σ) : Prop where
  idle : s'.graph.idle ⊆ s.graph.idle
  events : ∃ new, s'.events = new ++ s.events ∧ Nested (· ∈ s.graph.idle) new

namespace Session.RunsTo

variable {s s' s'' : Session B σ}

theorem refl (s : Session B σ) : s.RunsTo s := ⟨List.Subset.refl _, [], rfl, .nil⟩

theorem trans (h : s.RunsTo s') (h' : s'.RunsTo s'') : s.RunsTo s'' := by
  obtain ⟨new, hs, hn⟩ := h.events
  obtain ⟨new', hs', hn'⟩ := h'.events
  refine ⟨List.Subset.trans h'.idle h.idle, new' ++ new, by rw [hs', hs, List.append_assoc], ?_⟩
  exact (hn'.mono fun _ hi => h.idle hi).append hn

theorem of_quiet {T : NodeId → Prop} (h : s.Quiet T s') : s.RunsTo s' := by
  obtain ⟨news, hs, hn⟩ := h.events
  exact ⟨fun i hi => h.nodes.idle hi, news, hs, .of_news hn⟩

theorem idle_length_le (h : s.RunsTo s') : s'.graph.idle.length ≤ s.graph.idle.length :=
  (List.subperm_of_subset (Graph.nodup_idle _) h.idle).length_le

end Session.RunsTo

/-- A step answers wherever at most `k` nodes are idle. -/
def Returns (k : Nat) (m : Act B σ α) : Prop :=
  ∀ s, s.graph.idle.length ≤ k → ∃ a s', m s = some (a, s') ∧ s.RunsTo s'

namespace Returns

variable {k : Nat}

theorem pure (a : α) : Returns k (Pure.pure a : Act B σ α) := fun s _ => ⟨a, s, rfl, .refl s⟩

theorem bind {m : Act B σ α} {f : α → Act B σ β} (hm : Returns k m) (hf : ∀ a, Returns k (f a)) :
    Returns k (m >>= f) := by
  intro s hs
  obtain ⟨a, t, ha, ht⟩ := hm s hs
  obtain ⟨b, u, hb, hu⟩ := hf a t (Nat.le_trans ht.idle_length_le hs)
  refine ⟨b, u, ?_, ht.trans hu⟩
  show (m s).bind _ = _
  rw [ha]
  exact hb

/-- A step that cannot fail and runs no body. -/
theorem total {u : Session B σ → α × Session B σ} {T : NodeId → Prop}
    (h : ∀ s, Session.Quiet T s (u s).2) :
    Returns k fun s => some (u s) := fun s _ => ⟨_, _, rfl, .of_quiet (h s)⟩

theorem get_bind {f : Session B σ → Act B σ β} (h : ∀ s, Returns k (f s)) :
    Returns k (get >>= f) := bind (fun s _ => ⟨s, s, rfl, .refl s⟩) h

/-- A step goes on in another session. -/
theorem set_bind {m : Act B σ α} (hm : Returns k m) {s t : Session B σ} (ht : s.RunsTo t)
    (hs : s.graph.idle.length ≤ k) : ∃ a s', (set t >>= fun _ => m) s = some (a, s') ∧ s.RunsTo s' := by
  obtain ⟨a, s', ha, hs'⟩ := hm t (Nat.le_trans ht.idle_length_le hs)
  exact ⟨a, s', ha, ht.trans hs'⟩

theorem modify {u : Session B σ → Session B σ} {T : NodeId → Prop}
    (h : ∀ s, Session.Quiet T s (u s)) : Returns k (modify u : Act B σ PUnit) :=
  fun s _ => ⟨⟨⟩, u s, rfl, .of_quiet (h s)⟩

end Returns

namespace Engine

variable [Behavior B σ] {run : Runner B σ} {k : Nat}

omit [Behavior B σ] in
/-- A behaviour goes back to its node, or nowhere. -/
theorem idle_restore {s : Session B σ} {id i : NodeId} {b : B}
    (hi : i ∈ (restore s id b).graph.idle) : i ∈ s.graph.idle ∨ i = id := by
  unfold restore at hi
  split at hi
  · exact Graph.idle_attach hi
  · exact .inl hi

omit [Behavior B σ] in
theorem events_restore (s : Session B σ) (id : NodeId) (b : B) :
    ∃ news, (restore s id b).events = news ++ s.events ∧ ∀ e ∈ news, e.isActivity = false := by
  unfold restore
  split
  · exact ⟨[], rfl, fun _ he => nomatch he⟩
  · exact ⟨[.told b .removed], rfl, fun e he => by rw [List.mem_singleton.1 he]; rfl⟩

section Returns

variable (hrun : ∀ b id task, ∀ j < k, Returns j (run (Behavior.body b id task)))
include hrun

/-- While the body runs, its node is not idle, so the body has to return with one idle node
less. -/
theorem returns_enter (id : NodeId) (task : Task) : Returns k (enter run id task) := by
  intro s hs
  cases hb : s.graph.behavior? id with
  | none => exact ⟨none, s, enter_busy hb task, .refl s⟩
  | some b =>
    have hid : id ∈ s.graph.idle := by
      obtain ⟨n, hn, hbn⟩ := Option.bind_eq_some_iff.1 hb
      exact Graph.mem_idle.2 ⟨n, hn, by rw [hbn]; rfl⟩
    have hless := Graph.idle_length_detach hid
    obtain ⟨out, t, hrun', ht⟩ := hrun b id task _ (Nat.lt_of_lt_of_le hless hs)
      ((s.edit fun g => g.detach id).log (.began id b task)) (Nat.le_refl _)
    obtain ⟨inside, hin, hnested⟩ := ht.events
    obtain ⟨news, hnews, hquiet⟩ := events_restore (t.log (.ended id)) id out.state
    refine ⟨_, restore (t.log (.ended id)) id out.state, enter_idle hb hrun', ?_, ?_⟩
    · intro i hi
      rcases idle_restore hi with hi | rfl
      · exact (Graph.mem_idle_detach.1 (ht.idle hi)).1
      · exact hid
    · refine ⟨news ++ .ended id :: (inside ++ [.began id b task]), ?_, .append (.of_news hquiet) ?_⟩
      · rw [hnews]
        show news ++ .ended id :: t.events = _
        rw [hin]
        simp [Session.log, Session.edit]
      · exact .activation b task hid (hnested.mono fun _ hi => Graph.mem_idle_detach.1 hi) .nil

theorem returns_runBody (id : NodeId) (payload : Option Value) :
    Returns k (runBody run id payload) := by
  refine .get_bind fun s => ?_
  split
  · exact .pure _
  · split
    · exact (returns_enter hrun id _).bind fun _ => .pure _
    · exact .pure _

theorem returns_runAction (id : NodeId) (action : String) (payload : Value) :
    Returns k (runAction run id action payload) := by
  refine .get_bind fun s => ?_
  split
  · exact .pure _
  · exact (returns_enter hrun id _).bind fun _ => .pure _

/-! ### Events -/

theorem returns_deliver (payload : Value) (l : LinkId) : Returns k (deliver run payload l) := by
  intro s hs
  unfold deliver
  rw [get_bind_apply]
  cases s.graph.links.get? l with
  | none => exact ⟨_, s, rfl, .refl s⟩
  | some link =>
    -- the link has been marked
    have ht : s.RunsTo (s.edit fun g => g.modifyLink l fun l => { l with triggered := true }) :=
      .of_quiet (T := fun _ => False) (.aside rfl)
    refine Returns.set_bind ?_ ht hs
    split
    · exact .pure _
    · split
      · exact returns_runAction hrun _ _ payload
      · split
        · exact returns_runBody hrun _ _
        · exact .pure _

theorem returns_deliverAll (payload : Value) (ls : List LinkId) (count : Nat) :
    Returns k (deliverAll run payload ls count) := by
  induction ls generalizing count with
  | nil => exact .pure _
  | cons l ls ih =>
    refine (returns_deliver hrun payload l).bind fun answer => ?_
    cases answer with
    | error e => exact .pure _
    | ok ran => exact ih _

theorem returns_triggerSlot (id : NodeId) (slot : Nat) (payload : Value) (only : Option LinkId) :
    Returns k (triggerSlot run id slot payload only) := by
  refine .get_bind fun s => ?_
  split
  · exact .pure _
  · split
    · exact .pure _
    · exact returns_deliverAll hrun payload _ 0

theorem returns_triggerSlots (id : NodeId) (payload : Value) (slots : List Nat) (count : Nat) :
    Returns k (triggerSlots run id payload slots count) := by
  induction slots generalizing count with
  | nil => exact .pure _
  | cons slot slots ih =>
    refine (returns_triggerSlot hrun id slot payload none).bind fun answer => ?_
    cases answer with
    | error e => exact .pure _
    | ok n => exact ih _

theorem returns_trigger (id : NodeId) (action : Option String) (payload : Value) :
    Returns k (trigger run id action payload) := by
  refine .get_bind fun s => ?_
  split
  · exact .pure _
  · exact returns_triggerSlots hrun id payload _ 0

theorem returns_pull (id : NodeId) (slot : Nat) : Returns k (pull run id slot) := by
  refine .get_bind fun s => ?_
  split
  · exact .pure _
  · refine (returns_runBody hrun _ none).bind fun answer => ?_
    cases answer with
    | error e => exact .pure _
    | ok ran => exact .get_bind fun s => .pure _

/-! ### Steps -/

theorem returns_runNodes (ids : List NodeId) : Returns k (runNodes run ids) := by
  induction ids with
  | nil => exact .pure _
  | cons id ids ih =>
    refine .get_bind fun s => ?_
    split
    · refine (returns_runBody hrun id none).bind fun answer => ?_
      cases answer with
      | error e => exact .pure _
      | ok ran => exact ih
    · exact ih

theorem returns_runPasses (passes : Nat) : Returns k (runPasses run passes) := by
  induction passes with
  | zero => exact .pure _
  | succ passes ih =>
    refine .get_bind fun s => (returns_runNodes hrun _).bind fun answer => ?_
    cases answer with
    | error e => exact .pure _
    | ok done =>
      refine .bind (.modify (T := fun _ => False) fun s => ?_) fun _ => ih
      exact .trans (.aside rfl) (.log rfl)

omit hrun in
theorem quiet_conclude (propagate : Bool) (result : Except GraphError Unit) (s : Session B σ) :
    s.Quiet (fun _ => False) (conclude propagate result s).2 := by
  unfold conclude
  split
  · exact .refl s
  · exact .silent (.of_nodes rfl) rfl
  · exact .refl s
  · exact .trans (.aside rfl) (Session.quiet_stop _)

theorem returns_runStep (passes : Nat) (propagate : Bool) :
    Returns k (runStep run passes propagate) := by
  have hu : ∀ s : Session B σ,
      s.Quiet (fun _ => False) (if s.graph.stale then s.edit Graph.updateOrder else s) := by
    intro s
    split
    · exact .edit s.graph.descends_updateOrder
    · exact .refl s
  have hc : ∀ s : Session B σ, s.Quiet (fun _ => False)
      (s.edit fun g => { g with iteration := g.iteration + 1 }) := fun s => .aside rfl
  refine .bind (.modify hu) fun _ => (returns_runPasses hrun passes).bind fun result => ?_
  have hl : ∀ s : Session B σ, s.Quiet (fun _ => False) (s.log .stepped) := fun s => .log rfl
  refine .bind (.modify hl) fun _ => ?_
  refine .bind (.total fun s => quiet_conclude propagate result s) fun answer => ?_
  exact .bind (.modify hc) fun _ => .pure _

end Returns

end Engine

/-! ## Bodies that add nothing -/

/-- Whether a call may bring nodes into the graph. -/
def Call.populates : Call B → Bool
  | .add _ | .load .. => true
  | _ => false

/-- Bodies make no call that may bring nodes into the graph. -/
def sparing (B : Type) : Contract B :=
  ⟨fun _ => True, fun c => c.populates = false, fun _ _ => True⟩

namespace Engine

variable [Behavior B σ]

theorem returns_perform {run : Runner B σ} {k : Nat}
    (hrun : ∀ b id task, ∀ j < k, Returns j (run (Behavior.body b id task))) {c : Call B}
    (hc : c.populates = false) : Returns k (perform run c) := by
  cases c with
  | edit e => exact .total fun s => e.quiet_apply s
  | add n => cases hc
  | load snapshot keepOld => cases hc
  | execute id => exact returns_runBody hrun id none
  | triggerSlot id slot payload only => exact returns_triggerSlot hrun id slot payload only
  | trigger id action payload => exact returns_trigger hrun id action payload
  | pull id slot => exact returns_pull hrun id slot
  | runStep passes propagate => exact returns_runStep hrun passes propagate

omit [Behavior B σ] in
/-- A body returns because it makes finitely many calls and each of them returns. -/
theorem returns_body {perform : (c : Call B) → Act B σ c.Answer} {k : Nat}
    (hc : ∀ c, c.populates = false → Returns k (perform c)) {p : Body B σ α}
    (hp : p.Obeys (sparing B)) : Returns k (p.run perform) := by
  induction p with
  | done a => exact .pure a
  | look next ih => exact .get_bind fun s => ih _ _ (hp _ _ trivial)
  | keep change next ih =>
    exact .bind (.modify (T := fun _ => False) fun s => .silent (.refl _) rfl) fun _ => ih hp
  | note remark next ih =>
    exact .bind (.modify (T := fun _ => False) fun s => .log rfl) fun _ => ih hp
  | call c next ih => exact (hc c hp.1).bind fun a => ih a (hp.2 a trivial)

variable (hb : ∀ b id task, (Behavior.body b id task : Body B σ (Outcome B)).Obeys (sparing B))
include hb

/-- Calls return where no more nodes are idle than bodies may be nested. -/
theorem returns_runner {depth k : Nat} (hk : k ≤ depth) {c : Call B} (hc : c.populates = false) :
    Returns k (perform (runner (B := B) depth) c) := by
  induction depth generalizing k c with
  | zero =>
    -- no node is idle, so no body is entered
    exact returns_perform (fun b id task j hj => absurd hj (by omega)) hc
  | succ depth ih =>
    refine returns_perform (fun b id task j hj => ?_) hc
    exact returns_body (fun c hc => ih (by omega) hc) (hb b id task)

/-- Whatever the links are, if bodies bring no nodes into the graph, then every call comes to an
end, and it is enough to let bodies be nested as deeply as there are nodes.  At each moment the
bodies that were entered and have not returned belong to different nodes, and there are no more of
them than there were nodes. -/
theorem dispatch_returns (s : Session B σ) {c : Call B} (hc : c.populates = false) :
    ∃ a s' new,
      (∀ depth, s.graph.nodes.size ≤ depth → perform (runner depth) c s = some (a, s')) ∧
        s'.events = new ++ s.events ∧ underway new = [] ∧
        ∀ past, past <:+ new →
          (underway past).Nodup ∧ (underway past).length ≤ s.graph.nodes.size := by
  have hidle := s.graph.idle_length_le_size
  obtain ⟨a, s', hr, hs⟩ := returns_runner hb hidle hc s (Nat.le_refl _)
  obtain ⟨new, hnew, hnested⟩ := hs.events
  refine ⟨a, s', new, fun depth hd => ?_, hnew, hnested.track_all [], fun past hp => ?_⟩
  · exact extends_perform (fun body => extends_runner hd body) c s _ hr
  · obtain ⟨top, htop, hn, hfree⟩ := hnested.track_past hp []
    have hu : underway past = top := htop.trans (List.append_nil top)
    have hle : top.length ≤ s.graph.idle.length := (List.subperm_of_subset hn hfree).length_le
    rw [hu]
    exact ⟨hn, Nat.le_trans hle hidle⟩

end Engine

/-- A node that sends an event whenever one arrives. -/
def echo (id : NodeId) (arriving leaving : LinkId) : Node Catalog :=
  { (Node.new "events/emitter" : Node Catalog).withBehavior .emitter with
    id := some id
    mode := .onTrigger
    inputs := [⟨"event", .event, some arriving, none⟩]
    outputs := [⟨"on_tick", .event, [leaving], none, none⟩] }

/-- Two nodes that send each other events. -/
def ring : Graph Catalog :=
  { Graph.empty ∅ .default with
    nodes := (Assoc.insert ∅ ⟨1⟩ (echo ⟨1⟩ ⟨2⟩ ⟨1⟩)).insert ⟨2⟩ (echo ⟨2⟩ ⟨1⟩ ⟨2⟩)
    links := (Assoc.insert ∅ ⟨1⟩ (Link.new ⟨1⟩ .event ⟨1⟩ 0 ⟨2⟩ 0)).insert ⟨2⟩
      (Link.new ⟨2⟩ .event ⟨2⟩ 0 ⟨1⟩ 0)
    nextNode := 3
    nextLink := 3 }

/-- An event that goes round in a ring comes to rest where it started. -/
theorem ring_returns :
    ∃ a s' new, (∀ depth, 2 ≤ depth →
        Engine.perform (Engine.runner depth) (.execute ⟨1⟩) ⟨ring, [], ()⟩ = some (a, s')) ∧
      s'.events = new ++ [] ∧ underway new = [] ∧
      ∀ past, past <:+ new → (underway past).Nodup ∧ (underway past).length ≤ 2 :=
  Engine.dispatch_returns (Catalog.obeys_behavior (fun _ _ => rfl) fun _ _ _ _ => rfl)
    ⟨ring, [], ()⟩ rfl

end Dataflow
