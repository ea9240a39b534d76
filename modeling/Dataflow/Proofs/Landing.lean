/-
  Adding the nodes of a snapshot, twice.

  The same records are added to a graph and to another one that holds more.  Each record makes the
  same node in both, but under identities that may differ: in the larger graph an identity may be
  taken that is free in the smaller one.  `Landed` is what stays true record by record; it tracks
  how the identities of the smaller graph are renamed in the larger one.

  The bodies that run when a node is added are assumed to leave the graph alone, and behaviours
  not to insist on old properties (`Docile`).  What a behaviour remembers may depend on identities,
  so behaviours are compared by their kind, which never changes.
-/

import Dataflow.Proofs.Relink
import Dataflow.Proofs.Union

namespace Dataflow

variable {B σ : Type}

/-! ## Free numbers -/

/-- The first number from `n` on that is not taken; `fuel` bounds the search. -/
def firstFree (taken : Nat → Bool) : Nat → Nat → Nat
  | 0, n => n
  | fuel + 1, n => if taken n then firstFree taken fuel (n + 1) else n

/-- The search succeeds with as much fuel as there are taken numbers from its start on. -/
theorem firstFree_free {taken : Nat → Bool} {numbers : List Nat}
    (h : ∀ i, taken i = true → i ∈ numbers) (fuel n : Nat)
    (hf : (numbers.filter (n ≤ ·)).length ≤ fuel) : taken (firstFree taken fuel n) = false := by
  induction fuel generalizing n with
  | zero =>
    show taken n = false
    by_contra hn
    have hm : n ∈ numbers.filter (n ≤ ·) :=
      List.mem_filter.2 ⟨h n ((Bool.not_eq_false _ ▸ hn)), decide_eq_true (Nat.le_refl n)⟩
    have := List.length_pos_of_mem hm
    omega
  | succ fuel ih =>
    unfold firstFree
    split
    · next hn =>
      apply ih
      -- the number just passed is counted no more
      have he : numbers.filter (n + 1 ≤ ·) = (numbers.filter (n ≤ ·)).filter (· ≠ n) := by
        rw [List.filter_filter]
        apply List.filter_congr
        intro i _
        rw [← Bool.decide_and, decide_eq_decide]
        omega
      have hlt : ((numbers.filter (n ≤ ·)).filter (· ≠ n)).length < (numbers.filter (n ≤ ·)).length := by
        rw [List.length_filter_lt_length_iff_exists]
        refine ⟨n, List.mem_filter.2 ⟨h n hn, decide_eq_true (Nat.le_refl n)⟩, ?_⟩
        simp
      rw [he]
      omega
    · next hn => exact Bool.eq_false_iff.2 hn

theorem le_firstFree (taken : Nat → Bool) (fuel n : Nat) : n ≤ firstFree taken fuel n := by
  induction fuel generalizing n with
  | zero => exact Nat.le_refl n
  | succ fuel ih =>
    unfold firstFree
    split
    · exact Nat.le_trans (Nat.le_succ n) (ih (n + 1))
    · exact Nat.le_refl n

namespace Graph

theorem freeNodeFrom_eq (nodes : Assoc NodeId (Node B)) (fuel n : Nat) :
    freeNodeFrom nodes fuel n = firstFree (fun i => nodes.contains ⟨i⟩) fuel n := by
  induction fuel generalizing n with
  | zero => rfl
  | succ fuel ih =>
    unfold freeNodeFrom firstFree
    rw [ih]

/-- The identity that a node gets is free, whatever the counter says. -/
theorem claimNode_fresh (g : Graph B) (requested : Option NodeId) :
    (g.claimNode requested).1 ∉ g.nodes.keys := by
  have hfree : (⟨freeNodeFrom g.nodes g.nodes.size g.nextNode⟩ : NodeId) ∉ g.nodes.keys := by
    rw [← Assoc.contains_iff, freeNodeFrom_eq, Bool.not_eq_true]
    have htaken : ∀ i, g.nodes.contains ⟨i⟩ = true → i ∈ g.nodes.keys.map NodeId.number :=
      fun i hi => List.mem_map_of_mem ((Assoc.contains_iff ..).1 hi)
    have hfuel : ((g.nodes.keys.map NodeId.number).filter (g.nextNode ≤ ·)).length ≤ g.nodes.size := by
      rw [Assoc.size_eq_length_keys, ← List.length_map (f := NodeId.number)]
      exact List.length_filter_le ..
    exact firstFree_free htaken g.nodes.size g.nextNode hfuel
  unfold claimNode
  cases requested with
  | none => exact hfree
  | some id =>
    by_cases hc : g.nodes.contains id = true
    · simp only [if_pos hc]
      exact hfree
    · simp only [if_neg hc]
      rwa [← Assoc.contains_iff]

end Graph

/-! ## Adding one node -/

/-- What a type fills in; only size and place depend on more than what was left out. -/
theorem Node.attachDefaults_eq (n : Node B) (t : NodeType B) : ∃ size pos, n.attachDefaults t =
    { n with
      title := if n.title.isEmpty then t.title else n.title
      typeTitle := t.title
      properties := if n.properties.entries.isEmpty then t.initialProperties else n.properties
      size, pos, mode := t.mode, typePriority := t.priority } := by
  unfold Node.attachDefaults
  extract_lets named sized placed
  have hs : ∃ size, sized = { named with size } := by
    show ∃ size, (ite _ _ _ : Node B) = _
    split
    · exact ⟨_, rfl⟩
    · exact ⟨named.size, rfl⟩
  have hp : ∃ pos, placed = { sized with pos } := by
    show ∃ pos, (ite _ _ _ : Node B) = _
    split
    · exact ⟨_, rfl⟩
    · exact ⟨sized.pos, rfl⟩
  obtain ⟨size, hs⟩ := hs
  obtain ⟨pos, hp⟩ := hp
  refine ⟨size, pos, ?_⟩
  rw [hp, hs]

/-- The node at its place on the grid, where the settings ask for that. -/
def Node.snapped (n : Node B) (settings : Settings) : Node B :=
  if settings.alignToGrid then n.alignToGrid settings.gridSize.toFloat32 else n

theorem Node.behavior_snapped (n : Node B) (settings : Settings) :
    (n.snapped settings).behavior = n.behavior := by
  unfold Node.snapped
  split
  · obtain ⟨p, hp⟩ := n.alignToGrid_eq settings.gridSize.toFloat32
    rw [hp]
  · rfl

theorem Graph.place_snapped (g : Graph B) (n : Node B) (id : NodeId) (next : Nat) :
    g.place n id next = ({ g with
      nodes := g.nodes.insert id { n.snapped g.settings with id := some id }
      nextNode := next } : Graph B).bump := by
  unfold Graph.place Node.snapped
  by_cases h : g.settings.alignToGrid = true
  · simp only [if_pos h, Node.alignToGrid]
    split <;> rfl
  · simp only [if_neg h]

/-- A behaviour that is put in for one that was taken out. -/
theorem Graph.detach_attach (g : Graph B) (id : NodeId) (b : B) :
    (g.detach id).attach id b = g.attach id b := by
  have hm : (g.nodes.modify id fun n => { n with behavior := none }).modify id
      (fun n => { n with behavior := some b }) = g.nodes.modify id fun n => { n with behavior := some b } :=
    Assoc.modify_modify ..
  exact congrArg (fun nodes => ({ g with nodes } : Graph B)) hm

/-- Behaviours have a kind that never changes, and those of a tame kind leave the graph alone when
their node is added and let properties change. -/
structure Docile [Behavior B σ] (run : Runner B σ) {K : Type} (kind : B → K) (tame : K → Prop) :
    Prop where
  inert : tame (kind Kind.inert)
  told : ∀ b notice, kind (Kind.told b notice) = kind b
  added : ∀ b id s, tame (kind b) → ∃ out s', run (Behavior.body b id .added) s = some (out, s') ∧
    s'.graph = s.graph ∧ kind out.state = kind b
  yields : ∀ b name value, tame (kind b) → Kind.keepsOld b name value = false

namespace Engine

variable [Behavior B σ] {run : Runner B σ} {K : Type} {kind : B → K} {tame : K → Prop}

/-- Entering a node whose body leaves the graph alone changes its behaviour only. -/
theorem enter_docile (hd : Docile run kind tame) {s : Session B σ} {id : NodeId} {b : B}
    (hb : s.graph.behavior? id = some b) (hg : tame (kind b)) :
    ∃ ending b' s', enter run id .added s = some (ending, s') ∧ kind b' = kind b ∧
      s'.graph = s.graph.attach id b' := by
  obtain ⟨out, t, hrun, ht, hgood⟩ := hd.added b id
    ((s.edit fun g => g.detach id).log (.began id b .added)) hg
  refine ⟨_, out.state, _, enter_idle hb hrun, hgood, ?_⟩
  -- the node still waits for its behaviour
  obtain ⟨n, hn, -⟩ := Option.bind_eq_some_iff.1 hb
  have hawait : (t.log (.ended id)).graph.awaitsBehavior id = true := by
    show (t.graph.nodes.get? id).any _ = true
    rw [ht]
    show ((s.graph.nodes.modify id _).get? id).any _ = true
    rw [Assoc.get?_modify, if_pos rfl, hn]
    rfl
  unfold restore
  rw [if_pos hawait]
  show t.graph.attach id out.state = _
  rw [ht]
  exact s.graph.detach_attach id out.state

/-- A node with such a behaviour is in the graph afterwards, as it was made. -/
theorem insertNode_docile (hd : Docile run kind tame) {s : Session B σ} {n : Node B} {b : B}
    (hb : n.behavior = some b) (hg : tame (kind b))
    (hroom : s.graph.nodes.size < s.graph.settings.maxNodes) :
    ∃ b' s', insertNode run n false s = some (.ok (s.graph.claimNode n.id).1, s') ∧ kind b' = kind b ∧
      s'.graph.nodes = s.graph.nodes.insert (s.graph.claimNode n.id).1
        { n.snapped s.graph.settings with
          id := some (s.graph.claimNode n.id).1, behavior := some b' } ∧
      s'.graph.links = s.graph.links ∧ s'.graph.registry = s.graph.registry ∧
      s'.graph.settings = s.graph.settings := by
  let id := (s.graph.claimNode n.id).1
  let m : Node B := { n.snapped s.graph.settings with id := some id }
  let t := s.edit fun g => g.place n id (s.graph.claimNode n.id).2
  have ht : t.graph = ({ s.graph with
      nodes := s.graph.nodes.insert id m, nextNode := (s.graph.claimNode n.id).2 } : Graph B).bump :=
    s.graph.place_snapped n id _
  have htb : t.graph.behavior? id = some b := by
    rw [ht]
    show ((s.graph.nodes.insert id m).get? id).bind _ = _
    rw [Assoc.get?_insert_self]
    exact (n.behavior_snapped s.graph.settings).trans hb
  obtain ⟨ending, b', u, henter, hgood, hu⟩ := enter_docile hd htb hg
  rw [ht] at hu
  have hrun : insertNode run n false s =
      some (.ok id, (u.markStale.log (.nodeAdded id)).changed) := by
    show (if s.graph.settings.maxNodes ≤ s.graph.nodes.size then _ else _ : Act B σ _) s = _
    rw [if_neg (Nat.not_le.2 hroom)]
    show (enter run id .added t).bind _ = _
    rw [henter]
    rfl
  refine ⟨b', _, hrun, hgood, ?_, ?_, ?_, ?_⟩
  · show u.graph.nodes = _
    rw [hu]
    exact s.graph.nodes.modify_insert id m fun n => { n with behavior := some b' }
  · show u.graph.links = _
    rw [hu]
    rfl
  · show u.graph.registry = _
    rw [hu]
    rfl
  · show u.graph.settings = _
    rw [hu]
    rfl

end Engine

/-! ## Adding the nodes of a snapshot -/

/-- A node and the same node under another identity, with behaviours of the same tame kind. -/
def Node.Twin {K : Type} (kind : B → K) (tame : K → Prop) (id : NodeId) (n n' : Node B) : Prop :=
  ∃ b b', tame (kind b) ∧ kind b' = kind b ∧ n.behavior = some b ∧
    n' = { n with id := some id, behavior := some b' }

namespace Engine

/-- The node made of a record, and the name of its type if that is unknown. -/
def madeOf [Kind B] (registry : Registry B) (r : NodeRecord) : Node B × List String :=
  match registry.create r.type r.title with
  | .ok n => (n, [])
  | .error e => (Node.placeholder r, [e.id])

variable [Behavior B σ] {run : Runner B σ} {K : Type} {kind : B → K} {tame : K → Prop}

theorem good_madeOf (hd : Docile run kind tame) {registry : Registry B}
    (ht : ∀ name t, registry.get? name = some t → tame (kind t.behavior)) (r : NodeRecord) :
    ∃ b, (madeOf registry r).1.behavior = some b ∧ tame (kind b) := by
  unfold madeOf Registry.create
  cases h : registry.get? r.type with
  | none => exact ⟨_, rfl, hd.inert⟩
  | some t =>
    obtain ⟨size, pos, he⟩ := (t.instantiate r.title).attachDefaults_eq t
    refine ⟨t.behavior, ?_, ht r.type t h⟩
    show ((t.instantiate r.title).attachDefaults t).behavior = _
    rw [he]
    rfl

/-- What is noted about a record whose node was added. -/
def Placing.note (p : Placing) (missing : List String) (r : NodeRecord) (id : NodeId) : Placing where
  report := { p.report with
    hadErrors := p.report.hadErrors || !missing.isEmpty
    missingTypes := p.report.missingTypes ++ missing }
  placed := p.placed ++ [(id, r)]
  nodes :=
    match r.id with
    | some recorded => if p.nodes.contains recorded then p.nodes else p.nodes.insert recorded id
    | none => p.nodes

/-- The table has for a recorded identity the first node that was added for it. -/
theorem Placing.get?_note (p : Placing) (missing : List String) (r : NodeRecord) (id i : NodeId) :
    (p.note missing r id).nodes.get? i =
      (p.nodes.get? i).or (if r.id = some i then some id else none) := by
  cases hr : r.id with
  | none =>
    unfold note
    simp only [hr]
    exact Option.or_none.symm
  | some recorded =>
    -- an identity that is known already stays with the node that has it
    have hnote : (p.note missing r id).nodes =
        if (p.nodes.get? recorded).isSome then p.nodes else p.nodes.insert recorded id := by
      unfold note
      simp only [hr]
      rfl
    rw [hnote]
    by_cases hi : recorded = i
    · subst hi
      rw [if_pos rfl]
      cases hg : p.nodes.get? recorded with
      | none => exact Assoc.get?_insert_self ..
      | some k => exact hg
    · rw [if_neg fun h => hi (Option.some.inj h), Option.or_none]
      split
      · rfl
      · exact Assoc.get?_insert_of_ne _ _ (Ne.symm hi)

theorem Placing.of_get?_note {p : Placing} {missing : List String} {r : NodeRecord} {id i j : NodeId}
    (h : (p.note missing r id).nodes.get? i = some j) :
    p.nodes.get? i = some j ∨ j = id ∧ r.id = some i := by
  rw [get?_note] at h
  obtain hold | ⟨-, hnew⟩ := Option.or_eq_some_iff.1 h
  · exact .inl hold
  · split at hnew
    · next hr => exact .inr ⟨(Option.some.inj hnew).symm, hr⟩
    · cases hnew

theorem placeAll_cons {s s' : Session B σ} {p : Placing} {r : NodeRecord} {id : NodeId}
    (rest : List NodeRecord)
    (h : insertNode run { (madeOf s.graph.registry r).1 with id := r.id } false s = some (.ok id, s')) :
    placeAll run (r :: rest) p s =
      placeAll run rest (p.note (madeOf s.graph.registry r).2 r id) s' := by
  show (insertNode run { (madeOf s.graph.registry r).1 with id := r.id } false s).bind _ = _
  rw [h]
  show placeAll run rest _ s' = _
  congr 1

/-- After the same records were added to a graph and to a larger one. -/
structure Landed {K : Type} (kind : B → K) (tame : K → Prop) (f : NodeId → NodeId)
    (old : Assoc NodeId (Node B)) (p p' : Placing) (g g' : Graph B) : Prop where
  nodes : Assoc.Union f (fun id n n' => n.Twin kind tame (f id) n') old g.nodes g'.nodes
  registry : g'.registry = g.registry
  settings : g'.settings = g.settings
  types : ∀ name t, g.registry.get? name = some t → tame (kind t.behavior)
  /-- The nodes of the smaller graph are those that were added, in that order. -/
  ids : p.placed.map Prod.fst = g.nodes.keys
  placed : p'.placed = p.placed.map fun e => (f e.1, e.2)
  table : ∀ r, p'.nodes.get? r = (p.nodes.get? r).map f
  known : ∀ r id, p.nodes.get? r = some id → id ∈ g.nodes.keys

/-- One more node on both sides. -/
theorem Landed.note {f : NodeId → NodeId} {old : Assoc NodeId (Node B)} {p p' : Placing}
    {g g' t t' : Graph B} (h : Landed kind tame f old p p' g g') {id id' : NodeId} {n n' : Node B}
    (hid : id ∉ g.nodes.keys) (hid' : id' ∉ g'.nodes.keys) (hn : n.Twin kind tame id' n')
    (ht : t.nodes = g.nodes.insert id n) (ht' : t'.nodes = g'.nodes.insert id' n')
    (hr : t.registry = g.registry) (hr' : t'.registry = g'.registry)
    (hs : t.settings = g.settings) (hs' : t'.settings = g'.settings)
    (missing missing' : List String) (r : NodeRecord) :
    Landed kind tame (Function.update f id id') old (p.note missing r id) (p'.note missing' r id') t t' := by
  have hf : ∀ i ∈ g.nodes.keys, Function.update f id id' i = f i := fun i hi =>
    Function.update_of_ne (ne_of_mem_of_not_mem hi hid) id' f
  have hkeys : t.nodes.keys = g.nodes.keys ++ [id] := by rw [ht, Assoc.keys_insert, if_neg hid]
  constructor
  case nodes =>
    rw [ht, ht']
    refine h.nodes.insert_new hid hid' ?_ fun i w w' hi hw => ?_
    · rw [Function.update_self]
      exact hn
    · rw [hf i hi]
      exact hw
  case registry =>
    rw [hr, hr', h.registry]
  case settings =>
    rw [hs, hs', h.settings]
  case types =>
    rw [hr]
    exact h.types
  case ids =>
    show (p.placed ++ [(id, r)]).map Prod.fst = _
    rw [List.map_append, h.ids, hkeys]
    rfl
  case placed =>
    show p'.placed ++ [(id', r)] = (p.placed ++ [(id, r)]).map _
    rw [List.map_append, h.placed, List.map_singleton, Function.update_self]
    congr 1
    apply List.map_congr_left
    intro e he
    rw [hf e.1 (h.ids ▸ List.mem_map_of_mem he)]
  case table =>
    intro i
    rw [Placing.get?_note, Placing.get?_note, h.table]
    cases hi : p.nodes.get? i with
    | none =>
      show (if r.id = some i then some id' else none) = Option.map _ (if r.id = some i then some id else none)
      split
      · rw [Option.map_some, Function.update_self]
      · rfl
    | some j =>
      show some (f j) = some (Function.update f id id' j)
      rw [hf j (h.known i j hi)]
  case known =>
    intro i j hj
    rw [hkeys]
    rcases Placing.of_get?_note hj with hold | ⟨rfl, -⟩
    · exact List.mem_append_left _ (h.known i j hold)
    · exact List.mem_append_right _ (List.mem_singleton_self j)

/-- The records of a snapshot are added to both graphs, if there is room for them in the larger
one. -/
theorem placeAll_lands (hd : Docile run kind tame) {f : NodeId → NodeId} {old : Assoc NodeId (Node B)}
    {records : List NodeRecord} {p p' : Placing} {s t : Session B σ}
    (h : Landed kind tame f old p p' s.graph t.graph)
    (hroom : t.graph.nodes.size + records.length ≤ t.graph.settings.maxNodes) :
    ∃ q s' q' t' f', placeAll run records p s = some (q, s') ∧
      placeAll run records p' t = some (q', t') ∧ Landed kind tame f' old q q' s'.graph t'.graph ∧
      s'.graph.links = s.graph.links ∧ t'.graph.links = t.graph.links := by
  induction records generalizing p p' s t f with
  | nil => exact ⟨p, s, p', t, f, rfl, rfl, h, rfl, rfl⟩
  | cons r records ih =>
    rw [List.length_cons] at hroom
    obtain ⟨b, hb, hg⟩ := good_madeOf hd h.types r
    let n : Node B := { (madeOf s.graph.registry r).1 with id := r.id }
    have hsize := h.nodes.size
    have hroomt : t.graph.nodes.size < t.graph.settings.maxNodes := by omega
    have hrooms : s.graph.nodes.size < s.graph.settings.maxNodes := by
      rw [h.settings] at hroomt
      omega
    obtain ⟨b₁, s₁, hs₁, hg₁, hn₁, hl₁, hr₁, ht₁⟩ := insertNode_docile hd (n := n) hb hg hrooms
    obtain ⟨b₂, t₁, hs₂, hg₂, hn₂, hl₂, hr₂, ht₂⟩ := insertNode_docile hd (n := n) hb hg hroomt
    have hs₂' : insertNode run { (madeOf t.graph.registry r).1 with id := r.id } false t =
        some (.ok (t.graph.claimNode n.id).1, t₁) := by
      rw [h.registry]
      exact hs₂
    rw [h.settings] at hn₂
    have hnote := h.note (s.graph.claimNode_fresh n.id) (t.graph.claimNode_fresh n.id)
      ⟨b₁, b₂, hg₁ ▸ hg, hg₂.trans hg₁.symm, rfl, rfl⟩ hn₁ hn₂ hr₁ hr₂ ht₁ ht₂
      (madeOf s.graph.registry r).2 (madeOf t.graph.registry r).2 r
    have hroom₁ : t₁.graph.nodes.size + records.length ≤ t₁.graph.settings.maxNodes := by
      rw [ht₂, hn₂, Assoc.size_eq_length_keys, Assoc.keys_insert,
        if_neg (t.graph.claimNode_fresh n.id), List.length_append, ← Assoc.size_eq_length_keys,
        List.length_singleton]
      omega
    obtain ⟨q, s', q', t', f', hq, hq', hland, hl, hl'⟩ := ih hnote hroom₁
    refine ⟨q, s', q', t', f', ?_, ?_, hland, hl.trans hl₁, hl'.trans hl₂⟩
    · rw [placeAll_cons records hs₁]
      exact hq
    · rw [placeAll_cons records hs₂']
      exact hq'

end Engine

end Dataflow
