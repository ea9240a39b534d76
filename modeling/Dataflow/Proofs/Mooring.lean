/-
  What bridges make of the names of terminals.

  A bridge that runs claims for its terminal the name that its node asks for.  It renames the
  terminal that it registered unless the new name is taken, and if there is none of that name then,
  it declares one.  So the names in use change as they do when anybody claims a name (`turn`).

  In one pass every bridge claims once, in the order of execution, and nothing else that runs has a
  say in it (`runNodes_claims`).
-/

import Dataflow.Proofs.Bridging
import Dataflow.Proofs.Naming
import Dataflow.Proofs.Posts

namespace Dataflow

open Naming (claim claims)

/-! ## One bridge -/

/-- A name is claimed for a terminal, which may be registered under another one. -/
theorem Catalog.InStep.mem_keys_iff {registered : Option String} {name : String} {type : SlotType}
    {brought : Option Value} {ts ts' : Assoc String Terminal}
    (h : InStep registered name type brought ts ts') (x : String) :
    x ∈ ts'.keys ↔ x = name ∨ x ∈ ts.keys ∧ (registered = some x → name ∈ ts.keys) := by
  by_cases hstay : ∀ old, registered = some old → old ∈ ts.keys → name ∈ ts.keys
  · have hall : x ∈ ts'.keys ↔ x = name ∨ x ∈ ts.keys := by
      rw [h.stayed hstay]
      split
      · next hname => exact ⟨.inr, Or.rec (fun hx => hx ▸ hname) id⟩
      · rw [List.mem_append, List.mem_singleton]
        exact or_comm
    rw [hall]
    exact or_congr_right ⟨fun hx => ⟨hx, fun hreg => hstay x hreg hx⟩, And.left⟩
  · push Not at hstay
    obtain ⟨old, rfl, hold, hfree⟩ := hstay
    rw [h.moved old rfl hold hfree, List.mem_map]
    constructor
    · rintro ⟨k, hk, rfl⟩
      split
      · exact .inl rfl
      · next hko => exact .inr ⟨hk, fun h => absurd (Option.some.inj h).symm hko⟩
    · rintro (rfl | ⟨hx, hgiven⟩)
      · exact ⟨old, hold, if_pos rfl⟩
      · exact ⟨x, hx, if_neg fun h => hfree (hgiven (congrArg some h.symm))⟩

/-- A bridge has claimed a name, for a terminal that it may have registered, and has changed no
post. -/
structure Claimed (d : Direction) (registered : Option String) (name : String)
    (g g' : Graph Catalog) : Prop where
  posts : ∀ i, g'.post? i = g.post? i
  names : ∀ x, x ∈ g'.terminalNames d ↔
    x = name ∨ x ∈ g.terminalNames d ∧ (registered = some x → name ∈ g.terminalNames d)

theorem claim_iff (used : String → Prop) (old new x : String) :
    x = new ∨ used x ∧ (some old = some x → used new) ↔ claim used old new x := by
  refine or_congr_right (and_congr_right fun _ => imp_congr_left ?_)
  rw [Option.some_inj]
  exact eq_comm

namespace Session

variable {σ : Type} (s : Session Catalog σ) (d : Direction) (registered : Option String)
  (id : NodeId) (name : String) (type : SlotType)

theorem post?_docked (i : NodeId) :
    (s.docked d registered id name type).graph.post? i = s.graph.post? i := by
  obtain ⟨u, hu, heq⟩ := s.docked_eq d registered id name type
  rw [heq]
  exact (u.post?_renameSlot _ id 0 name i).trans (Graph.post?_of_nodes hu.nodes i)

/-- Carrying the value of a terminal changes no post and no name. -/
theorem post?_carried (i : NodeId) : (s.carried d id name).graph.post? i = s.graph.post? i := by
  unfold carried
  cases d with
  | input =>
    cases s.graph.terminalValue? .input name with
    | none => rfl
    | some v => exact s.graph.post?_setOutputData id 0 v i
  | output => cases s.graph.inputData? id 0 <;> rfl

theorem terminalNames_carried :
    (s.carried d id name).graph.terminalNames d = s.graph.terminalNames d := by
  unfold carried
  cases d with
  | input =>
    cases s.graph.terminalValue? .input name with
    | none => rfl
    | some v => exact congrArg Assoc.keys (s.graph.terminals_setOutputData id 0 v)
  | output =>
    cases s.graph.inputData? id 0 with
    | none => rfl
    | some v => exact s.terminalNames_setTerminalValue .output name v

/-- The body of a bridge claims the name of its terminal, once its node has one. -/
theorem claimed_bridged (n : Node Catalog) (task : Task) :
    Claimed d registered (Catalog.terminalName d id n) (s.settled d id (Catalog.askedName n)).graph
      (s.bridged d registered id n task).graph := by
  let u := s.settled d id (Catalog.askedName n)
  let t := u.docked d registered id (Catalog.terminalName d id n) (Catalog.askedType n)
  have hdocked : Claimed d registered (Catalog.terminalName d id n) u.graph t.graph :=
    ⟨u.post?_docked d registered id _ _, (u.inStep_docked d registered id _ _).mem_keys_iff⟩
  unfold bridged
  cases task with
  | execute payload =>
    refine ⟨fun i => (t.post?_carried d id _ i).trans (hdocked.posts i), fun x => ?_⟩
    rw [← hdocked.names, ← t.terminalNames_carried d id]
  | added => exact hdocked
  | act action payload => exact hdocked

end Session

/-! ## The turn of a bridge -/

theorem Graph.node_of_post? {g : Graph Catalog} {id : NodeId} {p : Post} (h : g.post? id = some p) :
    ∃ n, g.nodes.get? id = some n ∧ n.post = p := Option.map_eq_some_iff.1 h

namespace Engine

variable {d : Direction} {id : NodeId} {p : Post}

/-- A behaviour goes back to a node that waits for it. -/
theorem post?_restore {t : Session Catalog Unit} {q : Post} (hq : t.graph.post? id = some q)
    (hout : q.behavior = none) (b : Catalog) (i : NodeId) :
    (restore t id b).graph.post? i =
      if i = id then some { q with behavior := some b } else t.graph.post? i := by
  have hawaits : t.graph.awaitsBehavior id = true := by
    obtain ⟨n, hn, rfl⟩ := Graph.node_of_post? hq
    unfold Graph.awaitsBehavior
    rw [hn]
    exact Option.isNone_iff_eq_none.2 hout
  unfold restore
  rw [if_pos hawaits]
  refine (t.graph.post?_behavior id (some b) i).trans ?_
  split
  · next hi => rw [hi, hq]; rfl
  · rfl

theorem terminalNames_restore (t : Session Catalog Unit) (b : Catalog) :
    (restore t id b).graph.terminalNames d = t.graph.terminalNames d := by
  unfold restore
  split
  · cases d <;> rfl
  · rfl

theorem post?_detach {g : Graph Catalog} (hp : g.post? id = some p) (i : NodeId) :
    (g.detach id).post? i = if i = id then some { p with behavior := none } else g.post? i := by
  refine (g.post?_behavior id none i).trans ?_
  split
  · next hi => rw [hi, hp]; rfl
  · rfl

/-- Without its behaviour a node asks for the same name. -/
theorem asked_detached {g : Graph Catalog} (hp : g.post? id = some p) :
    ∃ m, (g.detach id).nodes.get? id = some m ∧
      Catalog.askedName m = (p.name.bind Value.str?).getD "" := by
  obtain ⟨m, hm, hpost⟩ := Graph.node_of_post? ((post?_detach hp id).trans (if_pos rfl))
  refine ⟨m, hm, ?_⟩
  have hname : m.property? "name" = p.name := congrArg Post.name hpost
  unfold Catalog.askedName
  rw [hname]

omit p in
theorem behavior?_of_post? {g : Graph Catalog} {p : Post} (hp : g.post? id = some p) :
    g.behavior? id = p.behavior := by
  obtain ⟨n, hn, rfl⟩ := Graph.node_of_post? hp
  exact Graph.behavior_of_node hn

theorem isAlways_of_post? {g : Graph Catalog} (hp : g.post? id = some p) (hmode : p.mode = .always) :
    isAlways g id = true := by
  obtain ⟨n, hn, rfl⟩ := Graph.node_of_post? hp
  unfold isAlways
  rw [hn]
  exact decide_eq_true hmode

/-- When its turn comes, a bridge with a terminal claims the name that its node asks for. -/
theorem turn {old new : String} {s : Session Catalog Unit} (hp : s.graph.post? id = some p)
    (hb : p.behavior = some (.bridge d (some old))) (hx : p.canExecute = true)
    (hname : p.name = some (.str new)) (hnew : new ≠ "") (depth : Nat) :
    Ensures (runBody (runner depth) id none) s fun answer s' => answer = .ok true ∧
      (∀ i, s'.graph.post? i =
        if i = id then some { p with behavior := some (.bridge d (some new)) }
        else s.graph.post? i) ∧
      ∀ x, x ∈ s'.graph.terminalNames d ↔ claim (· ∈ s.graph.terminalNames d) old new x := by
  have hbehavior := (behavior?_of_post? hp).trans hb
  have hout := post?_detach hp
  obtain ⟨m, hm, hasked⟩ := asked_detached hp
  have hwants : Catalog.askedName m = new := by
    rw [hasked, hname]
    rfl
  apply Ensures.get_bind
  obtain ⟨n, hn, rfl⟩ := Graph.node_of_post? hp
  rw [hn]
  show Ensures (ite _ _ _) s _
  rw [if_pos (show n.canExecute = true from hx)]
  apply Ensures.bind
  refine ensures_entered hbehavior fun depth => ?_
  refine .of_eq (runner_bridge Catalog.hosted_id depth hm (.execute none) nofun) ?_
  let u := (s.edit fun g => g.detach id).log (.began id (.bridge d (some old)) (.execute none))
  have hclaimed := u.claimed_bridged d (some old) id m (.execute none)
  -- the node says what it wants, so it is given no default name
  have hempty : ¬(Catalog.askedName m).isEmpty = true := by
    rw [hwants]
    exact fun he => hnew (String.isEmpty_iff.1 he)
  have hterminal : Catalog.terminalName d id m = new := (if_neg hempty).trans hwants
  have hsettled : u.settled d id (Catalog.askedName m) = u := if_neg hempty
  rw [hsettled, hterminal] at hclaimed
  have hposts : ∀ i, (u.bridged d (some old) id m (.execute none)).graph.post? i =
      (s.graph.detach id).post? i := hclaimed.posts
  refine Ensures.pure ⟨rfl, fun i => ?_, fun x => ?_⟩
  · refine (post?_restore (t := Session.log _ _)
      ((hposts id).trans ((hout id).trans (if_pos rfl))) rfl _ i).trans ?_
    rw [hterminal]
    split
    · rfl
    · next hi => exact (hposts i).trans ((hout i).trans (if_neg hi))
  · rw [terminalNames_restore]
    refine (hclaimed.names x).trans ?_
    rw [claim_iff]
    cases d <;> rfl

end Engine

/-! ## A pass over the nodes -/

/-- Nodes have the types that they had, and the bridges of a direction ask for the names that they
asked for. -/
structure Graph.Asks (d : Direction) (g g' : Graph Catalog) : Prop where
  types : ∀ id, (g'.post? id).map Post.type = (g.post? id).map Post.type
  names : ∀ id, (g'.bridge? d id).map Post.name = (g.bridge? d id).map Post.name

/-- The bridges of a direction as a pass finds them that still has to come to some nodes.  Each of
them runs in every pass, handles no events and asks for a name, and those that the pass has to come to
have registered a name. -/
structure Graph.Queue (d : Direction) (old new : NodeId → String) (due : List NodeId)
    (g : Graph Catalog) : Prop where
  deaf : g.Deaf d
  executes : ∀ id p, g.bridge? d id = some p → p.canExecute = true
  asks : ∀ id p, g.bridge? d id = some p → p.name = some (.str (new id)) ∧ new id ≠ ""
  registered : ∀ id ∈ due, ∀ p, g.bridge? d id = some p →
    p.behavior = some (.bridge d (some (old id)))

/-- A pass has come to some nodes: the bridges among them have claimed names, first to last, and no
node has another type or asks for another name. -/
structure Graph.Passed (d : Direction) (old new : NodeId → String) (ids : List NodeId)
    (g g' : Graph Catalog) : Prop where
  asks : g.Asks d g'
  names : ∀ x, x ∈ g'.terminalNames d ↔
    claims old new (ids.filter fun id => (g.bridge? d id).isSome) (· ∈ g.terminalNames d) x

namespace Graph

variable {d : Direction} {old new : NodeId → String} {due : List NodeId} {g g' g'' : Graph Catalog}

theorem Asks.trans (h : g.Asks d g') (h' : g'.Asks d g'') : g.Asks d g'' :=
  ⟨fun id => (h'.types id).trans (h.types id), fun id => (h'.names id).trans (h.names id)⟩

theorem Bypasses.asks (h : g.Bypasses d g') : g.Asks d g' :=
  ⟨h.types, fun id => congrArg (Option.map Post.name) (h.bridges id)⟩

theorem Asks.isSome (h : g.Asks d g') (id : NodeId) :
    (g'.bridge? d id).isSome = (g.bridge? d id).isSome := by
  have hnames := congrArg Option.isSome (h.names id)
  rwa [Option.isSome_map, Option.isSome_map] at hnames

theorem Queue.mono {due' : List NodeId} (h : g.Queue d old new due) (hsub : due' ⊆ due) :
    g.Queue d old new due' :=
  ⟨h.deaf, h.executes, h.asks, fun id hid => h.registered id (hsub hid)⟩

theorem Queue.bypasses (h : g.Queue d old new due) (hb : g.Bypasses d g') :
    g'.Queue d old new due where
  deaf id p hp := h.deaf id p ((hb.bridges id).symm.trans hp)
  executes id p hp := h.executes id p ((hb.bridges id).symm.trans hp)
  asks id p hp := h.asks id p ((hb.bridges id).symm.trans hp)
  registered id hid p hp := h.registered id hid p ((hb.bridges id).symm.trans hp)

/-- Every bridge has a body. -/
theorem Queue.filter_hasBody (h : g.Queue d old new due) (ids : List NodeId) :
    ((ids.filter g.hasBody).filter fun id => (g.bridge? d id).isSome) =
      ids.filter fun id => (g.bridge? d id).isSome := by
  rw [List.filter_filter]
  apply List.filter_congr
  intro id _
  cases hb : g.bridge? d id with
  | none => rfl
  | some p =>
    obtain ⟨n, hn, hpost⟩ := node_of_post? (bridge?_eq_some.1 hb).1
    have hx : n.canExecute = true := (congrArg Post.canExecute hpost).trans (h.executes id p hb)
    unfold hasBody
    rw [hn]
    exact hx

/-- One bridge has had its turn: it has another name registered, and nothing else is new. -/
theorem bridge?_turned {id : NodeId} {p : Post} {b : Catalog} (hb : b.direction = some d)
    (h : ∀ i, g'.post? i = if i = id then some { p with behavior := some b } else g.post? i)
    (i : NodeId) :
    g'.bridge? d i = if i = id then some { p with behavior := some b } else g.bridge? d i := by
  split
  · next hi =>
    refine bridge?_eq_some.2 ⟨(h i).trans (if_pos hi), ?_⟩
    exact decide_eq_true hb
  · next hi => exact bridge?_congr ((h i).trans (if_neg hi))

theorem Asks.turned {id : NodeId} {p : Post} {b : Catalog} (hp : g.bridge? d id = some p)
    (hb : b.direction = some d)
    (h : ∀ i, g'.post? i = if i = id then some { p with behavior := some b } else g.post? i) :
    g.Asks d g' := by
  constructor
  · intro i
    rw [h]
    split
    · next hi => rw [hi, (bridge?_eq_some.1 hp).1]; rfl
    · rfl
  · intro i
    rw [bridge?_turned hb h]
    split
    · next hi => rw [hi, hp]; rfl
    · rfl

theorem Queue.turned {id : NodeId} {p : Post} {b : Catalog} (hq : g.Queue d old new (id :: due))
    (hid : id ∉ due) (hp : g.bridge? d id = some p) (hb : b.direction = some d)
    (h : ∀ i, g'.post? i = if i = id then some { p with behavior := some b } else g.post? i) :
    g'.Queue d old new due := by
  have hbridge := bridge?_turned hb h
  have hkept : ∀ i q, g'.bridge? d i = some q → ∃ q', g.bridge? d i = some q' ∧
      q.mode = q'.mode ∧ q.acceptsActions = q'.acceptsActions ∧ q.canExecute = q'.canExecute ∧
      q.name = q'.name := by
    intro i q hq'
    rw [hbridge] at hq'
    split at hq'
    · next hi =>
      cases hq'
      exact ⟨p, hi ▸ hp, rfl, rfl, rfl, rfl⟩
    · exact ⟨q, hq', rfl, rfl, rfl, rfl⟩
  refine ⟨fun i q hq' => ?_, fun i q hq' => ?_, fun i q hq' => ?_, fun i hi q hq' => ?_⟩
  · obtain ⟨q', hq', hmode, hactions, -⟩ := hkept i q hq'
    rw [hmode, hactions]
    exact hq.deaf i q' hq'
  · obtain ⟨q', hq', -, -, hexec, -⟩ := hkept i q hq'
    rw [hexec]
    exact hq.executes i q' hq'
  · obtain ⟨q', hq', -, -, -, hname⟩ := hkept i q hq'
    rw [hname]
    exact hq.asks i q' hq'
  · rw [hbridge, if_neg (ne_of_mem_of_not_mem hi hid)] at hq'
    exact hq.registered i (List.mem_cons_of_mem id hi) q hq'

/-! ### Passes, node by node -/

theorem Asks.filter (h : g.Asks d g') (ids : List NodeId) :
    (ids.filter fun id => (g'.bridge? d id).isSome) =
      ids.filter fun id => (g.bridge? d id).isSome :=
  congrArg (fun p => ids.filter p) (funext h.isSome)

theorem Passed.nil (h : g.Bypasses d g') : g.Passed d old new [] g' where
  asks := h.asks
  names x := by
    rw [h.names]
    exact Iff.rfl

theorem Bypasses.passed {ids : List NodeId} (h : g.Bypasses d g')
    (hp : g'.Passed d old new ids g'') : g.Passed d old new ids g'' where
  asks := h.asks.trans hp.asks
  names x := by
    rw [hp.names, h.asks.filter, h.names]

theorem Passed.bypasses {ids : List NodeId} (hp : g.Passed d old new ids g')
    (h : g'.Bypasses d g'') : g.Passed d old new ids g'' where
  asks := hp.asks.trans h.asks
  names x := by
    rw [h.names]
    exact hp.names x

/-- A node that is no bridge claims nothing. -/
theorem Passed.skip {id : NodeId} (hid : g.bridge? d id = none) (hp : g.Passed d old new due g') :
    g.Passed d old new (id :: due) g' where
  asks := hp.asks
  names x := by
    have hno : ¬(g.bridge? d id).isSome = true := by
      rw [hid]
      exact Bool.false_ne_true
    rw [List.filter_cons, if_neg hno]
    exact hp.names x

theorem Passed.turned {id : NodeId} {p : Post} {b : Catalog} (hp : g.bridge? d id = some p)
    (hb : b.direction = some d)
    (hposts : ∀ i, g'.post? i = if i = id then some { p with behavior := some b } else g.post? i)
    (hnames : ∀ x, x ∈ g'.terminalNames d ↔ claim (· ∈ g.terminalNames d) (old id) (new id) x)
    (hlater : g'.Passed d old new due g'') : g.Passed d old new (id :: due) g'' where
  asks := (Asks.turned hp hb hposts).trans hlater.asks
  names x := by
    have hstart : (· ∈ g'.terminalNames d) = claim (· ∈ g.terminalNames d) (old id) (new id) :=
      funext fun x => propext (hnames x)
    have hyes : (g.bridge? d id).isSome = true := Option.isSome_of_eq_some hp
    rw [hlater.names, (Asks.turned hp hb hposts).filter, hstart, List.filter_cons, if_pos hyes]
    rfl

/-! ### The nodes that a pass comes to -/

theorem bypasses_updated (d : Direction) (s : Session Catalog Unit) :
    s.graph.Bypasses d (if s.graph.stale then s.edit updateOrder else s).graph := by
  split
  · exact (s.graph.even_bypasses d).update s.graph (.refl d _)
  · exact .refl d _

/-- A pass comes to the nodes with bodies, in the order of execution. -/
theorem Trusted.executable_updated {s : Session Catalog Unit} (ht : s.graph.Trusted) :
    (if s.graph.stale then s.edit updateOrder else s).graph.executable =
      s.graph.computeOrder.filter s.graph.hasBody := by
  cases hs : s.graph.stale with
  | true => rfl
  | false => exact (ht.current hs).executable

end Graph

namespace Engine

variable {d : Direction} {old new : NodeId → String}

/-- A pass that comes to its end has let every bridge on its way claim a name, first to last. -/
theorem runNodes_claims (depth : Nat) {due : List NodeId} (hn : due.Nodup)
    {s : Session Catalog Unit} (hq : s.graph.Queue d old new due) :
    Ensures (runNodes (runner depth) due) s fun answer s' =>
      answer = .ok () → s.graph.Passed d old new due s'.graph := by
  induction due generalizing s with
  | nil => exact Ensures.pure fun _ => .nil (.refl d _)
  | cons id due ih =>
    obtain ⟨hid, hrest⟩ := List.nodup_cons.1 hn
    apply Ensures.get_bind
    cases hb : s.graph.bridge? d id with
    | none =>
      -- whether the node runs or not, the bridges are as they were when its successors come
      have hskip : ∀ {t : Session Catalog Unit}, s.graph.Bypasses d t.graph →
          Ensures (runNodes (runner depth) due) t fun answer s' =>
            answer = .ok () → s.graph.Passed d old new (id :: due) s'.graph := by
        intro t ht
        have htq := (hq.mono (List.subset_cons_self id due)).bypasses ht
        exact (ih hrest htq).mono fun answer s' h hok => .skip hb (ht.passed (h hok))
      split
      · apply Ensures.bind
        have henter := bypasses_enter (skirts_runner hq.deaf depth) hb
        refine (keeps_runBody henter none s (.refl d _)).mono fun answer t ht => ?_
        cases answer with
        | error e => exact Ensures.pure fun h => nomatch h
        | ok ran => exact hskip ht
      · exact hskip (.refl d _)
    | some p =>
      obtain ⟨hmode, -⟩ := hq.deaf id p hb
      obtain ⟨hname, hnew⟩ := hq.asks id p hb
      obtain ⟨hpost, -⟩ := Graph.bridge?_eq_some.1 hb
      have hold := hq.registered id (List.mem_cons_self ..) p hb
      rw [if_pos (isAlways_of_post? hpost hmode)]
      apply Ensures.bind
      refine (turn hpost hold (hq.executes id p hb) hname hnew depth).mono ?_
      rintro answer t ⟨rfl, hposts, hnames⟩
      refine (ih hrest (hq.turned hid hb rfl hposts)).mono fun answer s' h hok => ?_
      exact .turned hb rfl hposts hnames (h hok)

/-- So has a step of one pass that ends well, in the order of execution. -/
theorem runStep_claims (depth : Nat) {s : Session Catalog Unit} (ht : s.graph.Trusted)
    (hq : s.graph.Queue d old new s.graph.computeOrder) :
    Ensures (runStep (runner depth) 1 true) s fun answer s' =>
      answer = .ok () → s.graph.Passed d old new s.graph.computeOrder s'.graph := by
  apply Ensures.modify_bind
  let u := if s.graph.stale then s.edit Graph.updateOrder else s
  have hu : s.graph.Bypasses d u.graph := Graph.bypasses_updated d s
  have hexecutable : u.graph.executable = s.graph.computeOrder.filter s.graph.hasBody :=
    ht.executable_updated
  have hnodup : u.graph.executable.Nodup := by
    rw [hexecutable]
    exact s.graph.nodup_computeOrder.filter _
  have hdue : u.graph.executable ⊆ s.graph.computeOrder := by
    rw [hexecutable]
    exact List.filter_subset_self ..
  have hpass := runNodes_claims depth hnodup ((hq.bypasses hu).mono hdue)
  apply Ensures.bind
  apply Ensures.get_bind
  apply Ensures.bind
  refine hpass.mono fun result t h => ?_
  cases result with
  | error e =>
    refine Ensures.pure (Ensures.modify_bind (Ensures.modifyGet_bind (Ensures.modify_bind ?_)))
    exact Ensures.pure fun h => nomatch h
  | ok done =>
    have hpassed : s.graph.Passed d old new u.graph.executable t.graph := hu.passed (h rfl)
    refine Ensures.modify_bind (Ensures.pure (Ensures.modify_bind (Ensures.modifyGet_bind
      (Ensures.modify_bind (Ensures.pure fun _ => ?_)))))
    have hall : s.graph.Passed d old new s.graph.computeOrder t.graph := by
      refine ⟨hpassed.asks, fun x => ?_⟩
      rw [hpassed.names, hexecutable, hq.filter_hasBody]
    -- what is left of the step counts the pass and the time
    exact hall.bypasses (.of_posts (fun _ => rfl) (by cases d <;> rfl))

/-! ## Passes over bridges only -/

/-- A pass that has only bridges on its way comes to its end, and well. -/
theorem runNodes_bridges (depth : Nat) {due : List NodeId} (hn : due.Nodup)
    {s : Session Catalog Unit} (hq : s.graph.Queue d old new due)
    (hall : ∀ id ∈ due, (s.graph.bridge? d id).isSome = true) :
    ∃ s', runNodes (runner (depth + 1)) due s = some (.ok (), s') := by
  induction due generalizing s with
  | nil => exact ⟨s, rfl⟩
  | cons id due ih =>
    obtain ⟨hid, hrest⟩ := List.nodup_cons.1 hn
    obtain ⟨p, hp⟩ := Option.isSome_iff_exists.1 (hall id (List.mem_cons_self ..))
    obtain ⟨hmode, -⟩ := hq.deaf id p hp
    obtain ⟨hname, hnew⟩ := hq.asks id p hp
    have hb := hq.registered id (List.mem_cons_self ..) p hp
    have hx := hq.executes id p hp
    obtain ⟨hpost, -⟩ := Graph.bridge?_eq_some.1 hp
    have halways := isAlways_of_post? hpost hmode
    obtain ⟨n, hget, rfl⟩ := Graph.node_of_post? hpost
    -- the body ends, so the turn comes to its end, and what it leaves is known
    let t := (s.edit fun g => g.detach id).log (.began id (.bridge d (some (old id))) (.execute none))
    have hm : t.graph.nodes.get? id = some { n with behavior := none } := Graph.get?_detach hget
    have henter := enter_idle ((behavior?_of_post? hpost).trans hb)
      (runner_bridge Catalog.hosted_id depth hm (.execute none) nofun)
    have hbody := runBody_enter hget hx henter
    obtain ⟨hok, hposts, -⟩ := turn hpost hb hx hname hnew (depth + 1) _ _ hbody
    rw [runNodes_cons halways due hbody, hok]
    refine ih hrest (hq.turned hid hp rfl hposts) fun i hi => ?_
    rw [(Graph.Asks.turned hp rfl hposts).isSome]
    exact hall i (List.mem_cons_of_mem id hi)

/-- So does a step of one pass in a graph of bridges. -/
theorem runStep_bridges (depth : Nat) {s : Session Catalog Unit} (ht : s.graph.Trusted)
    (hq : s.graph.Queue d old new s.graph.computeOrder)
    (hall : ∀ id ∈ s.graph.nodes.keys, (s.graph.bridge? d id).isSome = true) :
    ∃ s', runStep (runner (depth + 1)) 1 true s = some (.ok (), s') := by
  let u := if s.graph.stale then s.edit Graph.updateOrder else s
  have hu : s.graph.Bypasses d u.graph := Graph.bypasses_updated d s
  have hdue : u.graph.executable ⊆ s.graph.computeOrder := by
    rw [ht.executable_updated]
    exact List.filter_subset_self ..
  have hnodup : u.graph.executable.Nodup := by
    rw [ht.executable_updated]
    exact s.graph.nodup_computeOrder.filter _
  obtain ⟨t, hpass⟩ := runNodes_bridges depth hnodup ((hq.bypasses hu).mono hdue) fun id hid => by
    rw [hu.bridges]
    exact hall id (s.graph.computeOrder_perm.mem_iff.1 (hdue hid))
  obtain ⟨s', hstep, -⟩ := runStep_once hpass
  exact ⟨s', hstep⟩

end Engine

end Dataflow
