/-
  No behaviour is lost, swapped or told twice.

  While the body of a node runs, its behaviour is out of the node, and the body may do as it likes:
  remove nodes, its own among them, add others, clear the graph, or load a snapshot that uses
  identities again.  When everything has returned, the books of the numbered run balance with
  nobody running.  Each node has the behaviour that signed in with it, and everybody else who ever
  signed in was told once that the node is gone (`exec_accounted`).

  The step lemma is `Session.Leads`: the roster only grows, and the books balance if they did,
  whoever is running.  Entering a node puts its number on top of the running and takes it off again
  when the body returns.  All other operations lead on because their parts do.
-/

import Dataflow.Proofs.Balance
import Dataflow.Proofs.Bodies
import Dataflow.Proofs.Following

namespace Dataflow

variable {B σ α : Type}

/-! ## What a step keeps -/

namespace Session

/-- One session leads to another: the roster grows at its end only, and the books balance if they
did, whoever is running. -/
structure Leads (s s' : Session (Numbered B) (Roster σ)) : Prop where
  signed : s.host.signed <+: s'.host.signed
  balanced : ∀ running, s.books.Balanced running → s'.books.Balanced running

namespace Leads

variable {s s' s'' : Session (Numbered B) (Roster σ)}

theorem of_books (h : s'.books = s.books) : s.Leads s' := by
  have hs : s'.host.signed = s.host.signed := congrArg Books.signed h
  exact ⟨hs ▸ List.prefix_rfl, fun _ hb => h ▸ hb⟩

theorem refl (s : Session (Numbered B) (Roster σ)) : s.Leads s := of_books rfl

theorem trans (h : s.Leads s') (h' : s'.Leads s'') : s.Leads s'' :=
  ⟨h.signed.trans h'.signed, fun running hb => h'.balanced running (h.balanced running hb)⟩

end Leads

variable (s : Session (Numbered B) (Roster σ))

theorem leads_apply [Kind B] (e : Edit) : s.Leads (e.apply s).2 := by
  have hb := e.books_apply s
  have hs : (e.apply s).2.host.signed = s.host.signed :=
    (congrArg Books.signed hb).trans (Books.signed_strikes ..)
  exact ⟨hs ▸ List.prefix_rfl, fun _ h => hb ▸ h.strikes _⟩

/-- The session in which one more node has signed in. -/
def enlist (id : NodeId) : Session (Numbered B) (Roster σ) := { s with host := s.host.sign id }

theorem books_detach (id : NodeId) :
    (s.edit fun g => g.detach id).books = s.books.release id := by
  have hm := s.graph.nodes.mapValues_modify_comm (fun _ n => n.behavior.map Numbered.number) id
    (c := fun n => { n with behavior := none }) (d := fun _ => none) fun _ _ => rfl
  exact congrArg (fun held => (⟨held, s.books.farewells, s.books.signed⟩ : Books)) hm

theorem books_restore (id : NodeId) (b : Numbered B) :
    (Engine.restore s id b).books = s.books.settle id b.number := by
  have hawaits : s.graph.awaitsBehavior id = true ↔ s.books.held.get? id = some none := by
    rw [held_get?]
    unfold Graph.awaitsBehavior
    cases s.graph.nodes.get? id with
    | none => simp
    | some n => simp
  unfold Engine.restore Books.settle
  by_cases hw : s.graph.awaitsBehavior id = true
  · rw [if_pos hw, if_pos (hawaits.1 hw)]
    have hm := s.graph.nodes.mapValues_modify_comm (fun _ n => n.behavior.map Numbered.number) id
      (c := fun n => { n with behavior := some b }) (d := fun _ => some b.number) fun _ _ => rfl
    exact congrArg (fun held => (⟨held, s.books.farewells, s.books.signed⟩ : Books)) hm
  · rw [if_neg hw, if_neg fun h => hw (hawaits.2 h)]
    rfl

end Session

/-- A node that was placed and whose behaviour was taken out holds nothing. -/
theorem Graph.held_detach_place (g : Graph (Numbered B)) (n : Node (Numbered B)) (id : NodeId)
    (next : Nat) : ((g.place n id next).detach id).held = g.held.insert id none := by
  let m : Node (Numbered B) := { n.snapped g.settings with id := some id }
  have hm := g.nodes.modify_insert id m fun n => { n with behavior := none }
  have hn := g.nodes.mapValues_insert (fun _ n => n.behavior.map Numbered.number) id
    { m with behavior := none }
  rw [g.place_snapped]
  exact (congrArg (Assoc.mapValues · fun _ n => n.behavior.map Numbered.number) hm).trans hn

/-! ## Entering a node -/

/-- What is listed stays at its place when a list grows at its end. -/
theorem getElem?_extended {l l' : List α} (h : l <+: l') {i : Nat} (hi : i < l.length) :
    l'[i]? = l[i]? := by
  obtain ⟨rest, rfl⟩ := h
  exact List.getElem?_append_left hi

namespace Engine

variable [Behavior B σ] {run : Runner (Numbered B) (Roster σ)}

/-- Bodies lead on and keep their numbers; the body of a new node signs in first. -/
structure Tends (run : Runner (Numbered B) (Roster σ)) : Prop where
  runs : ∀ (b : Numbered B) id task s, task ≠ .added →
    Ensures (run (Behavior.body b id task)) s fun out s' =>
      s.Leads s' ∧ out.state.number = b.number
  joins : ∀ (b : Numbered B) id s, Ensures (run (Behavior.body b id .added)) s fun out s' =>
    (s.enlist id).Leads s' ∧ out.state.number = some s.host.signed.length

omit [Behavior B σ] in
/-- A body has ended: its number goes back where it came from, unless its node is gone.  Who has
been running since before that number signed in, or since before its body started, did not sign in
later. -/
theorem balanced_ended {t : Session (Numbered B) (Roster σ)} {running : List Nat} {id : NodeId}
    {i : Nat} {b : Numbered B} (hb : b.number = some i) (h : t.books.Balanced (i :: running))
    (hid : t.host.signed[i]? = some id)
    (hlast : ∀ j ∈ running, t.host.signed[j]? = some id → j ≤ i) :
    (restore (t.log (.ended id)) id b).books.Balanced running := by
  have hlog : (t.log (.ended id)).books = t.books := Session.books_log rfl
  rw [Session.books_restore, hlog, hb]
  exact h.settle hid hlast

omit [Behavior B σ] in
theorem signed_ended (t : Session (Numbered B) (Roster σ)) (id : NodeId) (b : Numbered B) :
    (restore (t.log (.ended id)) id b).host.signed = t.host.signed := by
  unfold restore
  split <;> rfl

variable (ht : Tends run)
include ht

theorem leads_enter (id : NodeId) {task : Task} (hne : task ≠ .added)
    (s : Session (Numbered B) (Roster σ)) :
    Ensures (enter run id task) s fun _ s' => s.Leads s' := by
  apply Ensures.get_bind
  split
  · exact Ensures.pure (.refl s)
  · next b hb =>
    let u := (s.edit fun g => g.detach id).log (.began id b task)
    have hu : u.books = s.books.release id := (Session.books_log rfl).trans (s.books_detach id)
    apply Ensures.set_bind
    apply Ensures.bind
    refine (ht.runs b id task u hne).mono fun out t hout => ?_
    apply Ensures.modify_bind
    apply Ensures.pure
    have hsigned : s.host.signed <+: t.host.signed := hout.1.signed
    refine ⟨?_, fun running hbal => ?_⟩
    · rw [signed_ended]
      exact hsigned
    · have hheld : s.books.held.get? id = some (some b.number) := by
        obtain ⟨n, hn, hnb⟩ := Option.bind_eq_some_iff.1 hb
        rw [Session.held_get?, hn]
        exact congrArg some (congrArg (Option.map Numbered.number) hnb)
      obtain ⟨i, hlatest, hi | ⟨hi, -⟩⟩ := hbal.nodes id _ hheld
      · have hi : b.number = some i := Option.some.inj hi
        have hbal' := hout.1.balanced (i :: running) (hu ▸ hbal.release (hi ▸ hheld))
        have hlt : i < s.host.signed.length := (List.getElem?_eq_some_iff.1 hlatest.1).1
        refine balanced_ended (hout.2.trans hi) hbal' ?_ fun j hj hjid => ?_
        · rw [getElem?_extended hsigned hlt]
          exact hlatest.1
        · -- who was running before has signed in before
          rw [getElem?_extended hsigned (hbal.known j hj)] at hjid
          exact hlatest.2 j hjid
      · cases hi

/-- A new node has signed in when its body has run. -/
theorem leads_join {s : Session (Numbered B) (Roster σ)} {n : Node (Numbered B)} {b : Numbered B}
    (hb : n.behavior = some b) {id : NodeId} (hid : id ∉ s.graph.nodes.keys) (next : Nat) :
    Ensures (enter run id .added) (s.edit fun g => g.place n id next) fun _ s' => s.Leads s' := by
  let placed := s.edit fun g => g.place n id next
  have hplaced : placed.graph.behavior? id = some b := (behavior?_place ..).trans hb
  apply Ensures.get_bind
  split
  · next hnone =>
    cases hplaced.symm.trans hnone
  · next b' hb' =>
    obtain rfl : b = b' := Option.some.inj (hplaced.symm.trans hb')
    let u := (placed.edit fun g => g.detach id).log (.began id b .added)
    have hu : (u.enlist id).books = s.books.enroll id := by
      have hheld := Graph.held_detach_place s.graph n id next
      show (⟨((s.graph.place n id next).detach id).held, _, _⟩ : Books) = _
      rw [hheld]
      rfl
    apply Ensures.set_bind
    apply Ensures.bind
    refine (ht.joins b id u).mono fun out t hout => ?_
    apply Ensures.modify_bind
    apply Ensures.pure
    have hsigned : s.host.signed ++ [id] <+: t.host.signed := hout.1.signed
    refine ⟨?_, fun running hbal => ?_⟩
    · rw [signed_ended]
      exact (List.prefix_append _ _).trans hsigned
    · have hnew : id ∉ s.books.held.keys := by
        show id ∉ (Assoc.mapValues _ _).keys
        rwa [Assoc.keys_mapValues]
      have hbal' := hout.1.balanced (s.host.signed.length :: running) (hu ▸ hbal.enroll hnew)
      refine balanced_ended hout.2 hbal' ?_ fun j hj _ => Nat.le_of_lt (hbal.known j hj)
      have hlt : s.host.signed.length < (s.host.signed ++ [id]).length := by
        rw [List.length_append]
        exact Nat.lt_succ_self _
      exact (getElem?_extended hsigned hlt).trans List.getElem?_concat_length

/-! ### Adding -/

theorem leads_insertNode {n : Node (Numbered B)} (hn : n.behavior.isSome = true) (refresh : Bool)
    (s : Session (Numbered B) (Roster σ)) :
    Ensures (insertNode run n refresh) s fun _ s' => s.Leads s' := by
  obtain ⟨b, hb⟩ := Option.isSome_iff_exists.1 hn
  apply Ensures.get_bind
  show Ensures (ite _ _ _) s _
  split
  · exact Ensures.pure (.refl s)
  · apply Ensures.set_bind
    apply Ensures.bind
    refine (leads_join ht hb (s.graph.claimNode_fresh n.id) _).mono fun _ t hst => ?_
    apply Ensures.modify_bind
    refine Ensures.pure (hst.trans (.of_books ?_))
    have hlog : ∀ (u : Session (Numbered B) (Roster σ)) id, (u.log (.nodeAdded id)).books = u.books :=
      fun _ _ => Session.books_log rfl
    cases refresh <;> simp [hlog]

/-! ### Loads, events, steps -/

omit ht in
/-- Marking links, counting, stopping the graph and ordering the nodes leaves the books alone. -/
theorem unhurried_leads : Unhurried (Session.Leads (B := B) (σ := σ)) where
  refl := .refl
  trans := .trans
  marked _ _ := .of_books (Session.books_edit rfl)
  updated s := .of_books (Session.books_edit s.graph.held_updateOrder)
  counted _ _ _ _ := .of_books (Session.books_edit rfl)
  noted _ := ⟨.of_books (Session.books_log rfl), .of_books (Session.books_log rfl)⟩
  stopped s := .of_books s.books_stop

theorem leads_load (snapshot : Snapshot) (keepOld : Bool) (s : Session (Numbered B) (Roster σ)) :
    Ensures (load run snapshot keepOld) s fun _ s' => s.Leads s' := by
  apply Ensures.modify_bind
  apply Ensures.bind
  have hopen : s.Leads (((if keepOld then s else s.clear).edit fun g =>
      { g with config := g.config.insertAll snapshot.config.entries }).beginBatch) := by
    have hclear : s.Leads (if keepOld then s else s.clear) := by
      split
      · exact .refl s
      · exact s.leads_apply .clear
    refine hclear.trans (.of_books ?_)
    rw [Session.books_beginBatch]
    exact Session.books_edit rfl
  have hadd := fun (n : Node (Numbered B)) (hn : n.behavior.isSome = true) =>
    leads_insertNode ht hn false
  refine (follows_placeAll unhurried_leads.1 hadd snapshot.nodes _ _).mono fun p t hst => ?_
  apply Ensures.total
  exact (hopen.trans hst).trans (.of_books (t.books_settleLoad ..))

end Engine

/-! ## Programs -/

/-- Programs add nodes that have a behaviour, as those that a registry makes do, and copies. -/
def wellMade (B : Type) : Contract B where
  keeps _ := True
  allows
    | .add n => n.behavior.isSome = true
    | _ => True
  promises
    | .edit (.cloneNode _) => fun copy : Option (Node B) => ∀ n, copy = some n → n.behavior.isSome = true
    | _ => fun _ => True

theorem promises_cloneNode [Kind B] (s : Session (Numbered B) (Roster σ)) (id : NodeId) :
    ∀ n : Node B, (s.cloneNode id).1.map (Node.map Numbered.plain) = some n →
      n.behavior.isSome = true := by
  intro n hn
  obtain ⟨copy, hcopy, rfl⟩ := Option.map_eq_some_iff.1 hn
  obtain ⟨original, -, rfl⟩ := Session.exists_of_cloneNode hcopy
  exact Option.isSome_map.trans (original.isSome_copy s.graph.registry)

namespace Engine

variable [Behavior B σ] {run : Runner (Numbered B) (Roster σ)}

theorem leads_perform (ht : Tends run) {c : Call B} (hc : (wellMade B).allows c)
    (s : Session (Numbered B) (Roster σ)) : Ensures (perform run c.numbered) s fun a s' =>
      s.Leads s' ∧ (wellMade B).promises c (c.forget a) := by
  have hR := unhurried_leads (B := B) (σ := σ)
  have henter := fun id (task : Task) (hne : task ≠ .added) => leads_enter ht id hne
  cases c with
  | edit e =>
    apply Ensures.total
    refine ⟨s.leads_apply e, ?_⟩
    cases e with
    | cloneNode id => exact promises_cloneNode s id
    | _ => trivial
  | add n =>
    have hn : (n.map Numbered.fresh).behavior.isSome = true := Option.isSome_map.trans hc
    exact (leads_insertNode ht hn true s).mono fun _ _ h => ⟨h, trivial⟩
  | load snapshot keepOld => exact (leads_load ht snapshot keepOld s).mono fun _ _ h => ⟨h, trivial⟩
  | execute id => exact (follows_runBody hR.1 henter id none s).mono fun _ _ h => ⟨h, trivial⟩
  | triggerSlot id slot payload only =>
    exact (follows_triggerSlot hR.1 henter id slot payload only s).mono fun _ _ h => ⟨h, trivial⟩
  | trigger id action payload =>
    exact (follows_trigger hR.1 henter id action payload s).mono fun _ _ h => ⟨h, trivial⟩
  | pull id slot => exact (follows_pull hR.1 henter id slot s).mono fun _ _ h => ⟨h, trivial⟩
  | runStep passes propagate =>
    exact (follows_runStep hR henter passes propagate s).mono fun _ _ h => ⟨h, trivial⟩

/-- A numbered program leads on: induction on the program, call by call. -/
theorem leads_numbered (ht : Tends run) {p : Body B σ α} (hp : p.Obeys (wellMade B))
    (s : Session (Numbered B) (Roster σ)) :
    Ensures (p.numbered.run (perform run)) s fun _ s' => s.Leads s' := by
  induction p generalizing s with
  | done a => exact Ensures.pure (.refl s)
  | look next ih => exact Ensures.get_bind (ih _ _ (hp _ _ trivial) s)
  | keep change next ih =>
    apply Ensures.modify_bind
    have hk : s.Leads { s with host := { s.host with plain := change s.host.plain } } := .of_books rfl
    exact (ih hp _).mono fun _ _ h => hk.trans h
  | note remark next ih =>
    apply Ensures.modify_bind
    exact (ih hp _).mono fun _ _ h => .trans (.of_books (Session.books_log rfl)) h
  | call c next ih =>
    apply Ensures.bind
    refine (leads_perform ht hp.1 s).mono fun a t ha => ?_
    exact (ih _ (hp.2 _ ha.2) t).mono fun _ _ h => ha.1.trans h

variable (hb : ∀ b id task, (Behavior.body b id task : Body B σ (Outcome B)).Obeys (wellMade B))
include hb

/-- Bodies tend to their numbers, however deeply they are nested. -/
theorem tends_runner (depth : Nat) : Tends (runner (B := Numbered B) (σ := Roster σ) depth) := by
  induction depth with
  | zero =>
    -- at depth zero no body runs to its end
    exact ⟨fun _ _ _ _ _ _ _ hr => (nomatch hr), fun _ _ _ _ _ hr => nomatch hr⟩
  | succ depth ih =>
    have hbody : ∀ (b : B) id task number s, Ensures
        (((Behavior.body b id task).numbered.bind fun out => .done (out.under number)).run
          (perform (runner (B := Numbered B) (σ := Roster σ) depth))) s
        fun out s' => s.Leads s' ∧ out.state.number = number := by
      intro b id task number s
      rw [Body.run_bind]
      apply Ensures.bind
      exact (leads_numbered ih (hb b id task) s).mono fun out t h => Ensures.pure ⟨h, rfl⟩
    constructor
    · intro b id task s hne
      cases task with
      | added => exact absurd rfl hne
      | execute payload => exact hbody b.plain id _ b.number s
      | act action payload => exact hbody b.plain id _ b.number s
    · exact fun b id s => hbody b.plain id .added _ (s.enlist id)

end Engine

/-! ## Whole runs -/

/-- The numbers of the behaviours that were told that their nodes are gone, the last first. -/
def Session.farewells (s : Session (Numbered B) (Roster σ)) : List (Option Nat) :=
  s.events.filterMap Event.farewell?

/-- A node has the behaviour with this number. -/
def Graph.Has (g : Graph (Numbered B)) (id : NodeId) (i : Nat) : Prop :=
  ∃ n b, g.nodes.get? id = some n ∧ n.behavior = some b ∧ b.number = some i

/-- Every node has a behaviour, namely the one that came with it; a behaviour whose node is gone was
told so once, and no other was told so. -/
structure Session.Accounted (s : Session (Numbered B) (Roster σ)) : Prop where
  /-- The behaviour in a node is that of the node that was added last with its identity. -/
  nodes : ∀ id ∈ s.graph.nodes.keys, ∃ i, s.graph.Has id i ∧ Latest s.host.signed id i
  stays : ∀ id i, s.graph.Has id i → s.farewells.count (some i) = 0
  leaves : ∀ i < s.host.signed.length, (∀ id, ¬s.graph.Has id i) → s.farewells.count (some i) = 1
  others : ∀ x ∈ s.farewells, ∃ i < s.host.signed.length, x = some i

namespace Session

theorem holds_iff (s : Session (Numbered B) (Roster σ)) (id : NodeId) (i : Nat) :
    s.graph.Has id i ↔ s.books.held.get? id = some (some (some i)) := by
  rw [held_get?, Option.map_eq_some_iff]
  constructor
  · rintro ⟨n, b, hn, hb, hi⟩
    exact ⟨n, hn, by rw [hb, Option.map_some, hi]⟩
  · rintro ⟨n, hn, hi⟩
    obtain ⟨b, hb, hi⟩ := Option.map_eq_some_iff.1 hi
    exact ⟨n, b, hn, hb, hi⟩

theorem accounted_of_balanced {s : Session (Numbered B) (Roster σ)} (h : s.books.Balanced []) :
    s.Accounted where
  nodes id hid := by
    obtain ⟨n, hn⟩ := Assoc.mem_keys_iff.1 hid
    have hheld : s.books.held.get? id = some (n.behavior.map Numbered.number) := by
      rw [held_get?, hn]
      rfl
    obtain ⟨i, hlatest, hx | ⟨-, hr⟩⟩ := h.nodes id _ hheld
    · exact ⟨i, (s.holds_iff id i).2 (hheld.trans (congrArg some hx)), hlatest⟩
    · cases hr
  stays id i hi := by
    refine List.count_eq_zero.2 fun hm => ?_
    obtain ⟨j, hj, -, -, hno⟩ := (h.farewells _).1 hm
    cases hj
    exact hno ⟨id, (s.holds_iff id i).1 hi⟩
  leaves i hi hno := by
    refine List.count_eq_one_of_mem h.once ((h.farewells _).2 ⟨i, rfl, hi, nofun, ?_⟩)
    rintro ⟨id, hid⟩
    exact hno id ((s.holds_iff id i).2 hid)
  others x hx := by
    obtain ⟨i, hxi, hi, -, -⟩ := (h.farewells x).1 hx
    exact ⟨i, hi, hxi⟩

end Session

theorem Registry.fresh_plain (r : Registry B) : (r.map Numbered.fresh).map Numbered.plain = r := by
  apply Assoc.ext_entries
  show (r.entries.map _).map _ = r.entries
  rw [List.map_map]
  exact List.map_id _

/-- No behaviour is lost, swapped or told twice.  Any run of a program from an empty graph is the run
of the numbered program without the numbers, and after the numbered run all is accounted for. -/
theorem Engine.exec_accounted [Behavior B σ]
    (hb : ∀ b id task, (Behavior.body b id task : Body B σ (Outcome B)).Obeys (wellMade B))
    {p : Body B σ α} (hp : p.Obeys (wellMade B)) {depth : Nat} {registry : Registry B}
    {settings : Settings} {host : σ} {a : α} {s' : Session B σ}
    (h : exec depth p ⟨.empty registry settings, [], host⟩ = some (a, s')) :
    ∃ s : Session (Numbered B) (Roster σ),
      exec depth p.numbered ⟨.empty (registry.map .fresh) settings, [], ⟨[], host⟩⟩ = some (a, s) ∧
        s.forget = s' ∧ s.Accounted := by
  let start : Session (Numbered B) (Roster σ) :=
    ⟨.empty (registry.map .fresh) settings, [], ⟨[], host⟩⟩
  have hstart : start.forget = ⟨.empty registry settings, [], host⟩ := by
    show (⟨.empty ((registry.map .fresh).map Numbered.plain) settings, [], host⟩ : Session B σ) = _
    rw [registry.fresh_plain]
  have hbalanced : start.books.Balanced [] := by
    refine ⟨nofun, List.nodup_nil, nofun, nofun, List.nodup_nil, fun x => ⟨nofun, ?_⟩⟩
    rintro ⟨i, -, hi, -⟩
    exact absurd hi (Nat.not_lt_zero i)
  have hrun := exec_numbered depth p start
  rw [hstart, h] at hrun
  obtain ⟨⟨a', s⟩, hs, he⟩ := Option.map_eq_some_iff.1 hrun.symm
  cases he
  exact ⟨s, hs, rfl, Session.accounted_of_balanced
    ((leads_numbered (tends_runner hb depth) hp start _ _ hs).balanced [] hbalanced)⟩

/-! ## A run with nodes that do not stay -/

/-- Behaviours of nodes that do not stay: one puts another in its place when it is executed, and one
leaves as soon as it is added. -/
inductive Restless where
  | still
  | phoenix
  | shy
deriving DecidableEq

namespace Restless

instance : Kind Restless where
  inert := still
  canExecute b := b = phoenix
  acceptsActions _ := false
  told b _ := b
  acceptsLink _ _ _ := true
  keepsOld _ _ _ := false
  annotate _ r := r

def node (b : Restless) (id : Option NodeId) : Node Restless :=
  { (Node.new "restless").withBehavior b with id }

instance : Behavior Restless Unit where
  body b id task :=
    match b, task with
    | phoenix, .execute _ => do
      let _ ← Body.edit (.remove id)
      let _ ← Body.perform (.add (node phoenix (some id)))
      return ⟨phoenix, .ok ()⟩
    | shy, .added => do
      let _ ← Body.edit (.remove id)
      return ⟨shy, .ok ()⟩
    | b, _ => return ⟨b, .ok ()⟩

theorem obeys_body (b : Restless) (id : NodeId) (task : Task) :
    (Behavior.body b id task : Body Restless Unit (Outcome Restless)).Obeys (wellMade Restless) := by
  cases b with
  | still => trivial
  | phoenix =>
    cases task with
    | execute payload => exact ⟨trivial, fun _ _ => ⟨rfl, fun _ _ => trivial⟩⟩
    | _ => trivial
  | shy =>
    cases task with
    | added => exact ⟨trivial, fun _ _ => trivial⟩
    | _ => trivial

/-- A phoenix is added and executed, and a shy node is added. -/
def visit : Body Restless Unit Unit := do
  let _ ← Body.perform (.add (node phoenix none))
  let _ ← Body.perform (.execute ⟨1⟩)
  let _ ← Body.perform (.add (node shy none))

theorem visit_obeys : visit.Obeys (wellMade Restless) :=
  ⟨rfl, fun _ _ => ⟨trivial, fun _ _ => ⟨rfl, fun _ _ => trivial⟩⟩⟩

theorem visit_runs : ∃ r, Engine.exec 3 visit ⟨.empty ∅ .default, [], ()⟩ = some r :=
  Option.isSome_iff_exists.1 (by decide +kernel)

/-- Nothing is there yet. -/
def start : Session (Numbered Restless) (Roster Unit) :=
  ⟨.empty (Registry.map .fresh ∅) .default, [], ⟨[], ()⟩⟩

/-- Three nodes sign in, two of them under one identity, and one stays. -/
theorem visit_signs : (Engine.exec 3 visit.numbered start).map
    (fun r => (r.2.host.signed, r.2.graph.nodes.keys)) = some ([⟨1⟩, ⟨1⟩, ⟨2⟩], [⟨1⟩]) := by
  decide +kernel

theorem visit_accounted : ∃ s, Engine.exec 3 visit.numbered start = some ((), s) ∧
    s.host.signed = [⟨1⟩, ⟨1⟩, ⟨2⟩] ∧ s.graph.nodes.keys = [⟨1⟩] ∧ s.Accounted := by
  obtain ⟨⟨⟨⟩, s'⟩, hr⟩ := visit_runs
  obtain ⟨s, hs, -, h⟩ := Engine.exec_accounted obeys_body visit_obeys hr
  have hsigns := visit_signs
  rw [start, hs] at hsigns
  obtain ⟨hsigned, hkeys⟩ := Prod.mk.inj (Option.some.inj hsigns)
  exact ⟨s, hs, hsigned, hkeys, h⟩

end Restless

end Dataflow
