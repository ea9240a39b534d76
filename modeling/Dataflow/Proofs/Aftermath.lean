/-
  What a body leaves behind.

  A body may do almost anything: take its own node away and put another in its place, run other
  bodies and its own once more, clear the graph.  Still the events of its run are `Bracketed`: every
  body that began in them has ended, and what happened in between is bracketed again.  So the events
  tell which bodies were started from outside all others (`outermost`).  And whatever happens, the
  list of nodes to run names no node twice.

  Two more things hold of bodies that restrain themselves.  If they add no node without a behaviour,
  no node is left without one (`whole`).  If they neither clear the graph nor step it, the clock
  stands (`timed`).

  One relation between sessions says all four, `Session.Fares`.  It is reflexive and transitive, so
  there is one lemma for each step of the engine, and `fares_runner` is the induction on how deeply
  bodies are nested.
-/

import Dataflow.Proofs.Clock
import Dataflow.Proofs.Consumers
import Dataflow.Proofs.Custody
import Dataflow.Proofs.Dispatch
import Dataflow.Proofs.Mapped

namespace Dataflow

variable {B σ α : Type}

/-! ## Histories of any bodies -/

/-- A history in which every body that began has ended.  A node may be entered inside itself: bodies
can put a new node in the place of one that is running. -/
inductive Bracketed : List (Event B) → Prop where
  | nil : Bracketed []
  | news {e : Event B} {past : List (Event B)} (he : e.isActivity = false) (rest : Bracketed past) :
    Bracketed (e :: past)
  | activation (id : NodeId) (b : B) (task : Task) {inside past : List (Event B)}
    (inner : Bracketed inside) (rest : Bracketed past) :
    Bracketed (.ended id :: (inside ++ .began id b task :: past))

/-- The nodes whose bodies began while no other body was running, first to last. -/
def outermost : List (Event B) → List NodeId
  | [] => []
  | .began id _ _ :: past => if underway past = [] then outermost past ++ [id] else outermost past
  | _ :: past => outermost past

theorem outermost_of_news {e : Event B} (he : e.isActivity = false) (past : List (Event B)) :
    outermost (e :: past) = outermost past := by
  cases e <;> first | rfl | cases he

namespace Bracketed

variable {new old : List (Event B)}

theorem append (h : Bracketed new) (h' : Bracketed old) : Bracketed (new ++ old) := by
  induction h with
  | nil => exact h'
  | news he _ ih => exact .news he ih
  | activation id b task inner _ _ ih =>
    rw [List.cons_append, List.append_assoc, List.cons_append]
    exact .activation id b task inner ih

theorem of_news (h : ∀ e ∈ new, e.isActivity = false) : Bracketed new := by
  induction new with
  | nil => exact .nil
  | cons e new ih => exact .news (h e (by simp)) (ih fun e he => h e (List.mem_cons_of_mem _ he))

/-- Who is running after a history that goes on was running before. -/
theorem underway_append (h : Bracketed new) (old : List (Event B)) :
    underway (new ++ old) = underway old := by
  induction h generalizing old with
  | nil => rfl
  | news he _ ih => exact (Nested.track_of_news he _).trans (ih old)
  | @activation id b task inside past _ _ inner rest =>
    rw [List.cons_append, List.append_assoc, List.cons_append]
    show (underway (inside ++ .began id b task :: (past ++ old))).erase id = _
    rw [inner]
    show (id :: underway (past ++ old)).erase id = _
    rw [rest, List.erase_cons_head]

/-- Every body that began has ended. -/
theorem underway_eq_nil (h : Bracketed new) : underway new = [] := by
  have hnone := h.underway_append []
  rwa [List.append_nil] at hnone

/-- While a body is running, nothing is started from outside. -/
theorem outermost_append (h : Bracketed new) (old : List (Event B)) :
    outermost (new ++ old) = outermost old ++ if underway old = [] then outermost new else [] := by
  induction h generalizing old with
  | nil => simp [outermost]
  | @news e past he _ ih =>
    rw [List.cons_append, outermost_of_news he, outermost_of_news he]
    exact ih old
  | @activation id b task inside past _ hrest inner rest =>
    -- what happens inside counts for nothing, and the body itself if nobody else runs
    have hopen : ∀ before : List (Event B), outermost (inside ++ .began id b task :: before) =
        if underway before = [] then outermost before ++ [id] else outermost before := by
      intro before
      have hopened : underway (.began id b task :: before) = id :: underway before := rfl
      rw [inner, hopened, if_neg (List.cons_ne_nil _ _), List.append_nil]
      rfl
    rw [List.cons_append, List.append_assoc, List.cons_append]
    show outermost (inside ++ Event.began id b task :: (past ++ old)) =
      outermost old ++ if _ then outermost (inside ++ Event.began id b task :: past) else []
    rw [hopen, hopen, hrest.underway_append, rest,
      if_pos hrest.underway_eq_nil]
    split
    · rw [List.append_assoc]
    · rfl

end Bracketed

/-- The events of one session go on to those of another, and on the way the nodes `ids` were started
while no other body of that time was running. -/
def Session.Starts (s : Session B σ) (ids : List NodeId) (s' : Session B σ) : Prop :=
  ∃ new, s'.events = new ++ s.events ∧ Bracketed new ∧ outermost new = ids

namespace Session.Starts

variable {s s' s'' : Session B σ} {ids ids' : List NodeId}

theorem of_news (h : ∃ news, s'.events = news ++ s.events ∧ ∀ e ∈ news, e.isActivity = false) :
    s.Starts [] s' := by
  obtain ⟨news, hs, hn⟩ := h
  have hnone : outermost news = [] := by
    clear hs
    induction news with
    | nil => rfl
    | cons e news ih =>
      rw [outermost_of_news (hn e (by simp))]
      exact ih fun e he => hn e (List.mem_cons_of_mem _ he)
  exact ⟨news, hs, .of_news hn, hnone⟩

theorem silent (h : s'.events = s.events) : s.Starts [] s' :=
  of_news ⟨[], h, fun _ he => nomatch he⟩

theorem trans (h : s.Starts ids s') (h' : s'.Starts ids' s'') : s.Starts (ids ++ ids') s'' := by
  obtain ⟨new, hs, hn, rfl⟩ := h
  obtain ⟨new', hs', hn', rfl⟩ := h'
  refine ⟨new' ++ new, by rw [hs', hs, List.append_assoc], hn'.append hn, ?_⟩
  rw [hn'.outermost_append, if_pos hn.underway_eq_nil]

end Session.Starts

/-! ## Nodes that wait for their behaviour -/

namespace Graph

variable {g g' : Graph B} {id i : NodeId}

theorem awaits_iff :
    g.awaitsBehavior i = true ↔ ∃ n, g.nodes.get? i = some n ∧ n.behavior = none := by
  unfold awaitsBehavior
  simp [Option.any_eq_true]

theorem awaits_of_isSome {n : Node B} (hn : g.nodes.get? i = some n)
    (hb : n.behavior.isSome = false) : g.awaitsBehavior i = true :=
  awaits_iff.2 ⟨n, hn, Option.isNone_iff_eq_none.1 (Option.isSome_eq_false_iff.1 hb)⟩

theorem Descends.awaits {T : NodeId → Prop} (h : g'.Descends T g)
    (hi : g'.awaitsBehavior i = true) : g.awaitsBehavior i = true := by
  obtain ⟨n', hn', hb⟩ := awaits_iff.1 hi
  obtain ⟨n, hn, hl⟩ := h i n' hn'
  have hidle : n'.behavior.isSome = n.behavior.isSome := congrArg Make.idle hl.make
  rw [hb] at hidle
  exact awaits_of_isSome hn hidle.symm

theorem awaits_modifyNode {f : Node B → Node B} (hi : (g.modifyNode id f).awaitsBehavior i = true) :
    g.awaitsBehavior i = true ∨ i = id ∧ ∃ n, g.nodes.get? id = some n ∧ (f n).behavior = none := by
  obtain ⟨n', hn', hb⟩ := awaits_iff.1 hi
  obtain ⟨-, hn⟩ | ⟨rfl, n, hn, rfl⟩ := Assoc.exists_of_get?_modify hn'
  · exact .inl (awaits_iff.2 ⟨n', hn, hb⟩)
  · exact .inr ⟨rfl, n, hn, hb⟩

theorem awaits_place {n : Node B} {next : Nat} (hi : (g.place n id next).awaitsBehavior i = true) :
    g.awaitsBehavior i = true ∨ n.behavior = none := by
  obtain ⟨n', hn', hb⟩ := awaits_iff.1 hi
  by_cases he : i = id
  · subst he
    have hplaced := Engine.behavior?_place g n i next
    unfold behavior? at hplaced
    rw [hn'] at hplaced
    exact .inr (hplaced.symm.trans hb)
  · rw [g.place_snapped] at hn'
    exact .inl (awaits_iff.2 ⟨n', (Assoc.get?_insert_of_ne _ _ he).symm.trans hn', hb⟩)

end Graph

namespace Engine

/-- Who waits after a behaviour went back waited before, and is not the node it went back to. -/
theorem awaits_restore {s : Session B σ} {id i : NodeId} {b : B}
    (hi : (restore s id b).graph.awaitsBehavior i = true) :
    s.graph.awaitsBehavior i = true ∧ i ≠ id := by
  unfold restore at hi
  split at hi
  · obtain ⟨n', hn', hb⟩ := Graph.awaits_iff.1 hi
    obtain ⟨hne, hn⟩ | ⟨-, n, -, rfl⟩ := Assoc.exists_of_get?_modify hn'
    · exact ⟨Graph.awaits_iff.2 ⟨n', hn, hb⟩, hne⟩
    · cases hb
  · next hid =>
    refine ⟨hi, ?_⟩
    rintro rfl
    exact hid hi

end Engine

/-! ## How a session fares -/

/-- One session follows on another by running bodies. -/
structure Session.Fares (whole timed : Prop) (s s' : Session B σ) : Prop where
  events : ∃ new, s'.events = new ++ s.events ∧ Bracketed new
  once : s.graph.executable.Nodup → s'.graph.executable.Nodup
  /-- No node is left without a behaviour that was not before. -/
  manned : whole → ∀ i, s'.graph.awaitsBehavior i = true → s.graph.awaitsBehavior i = true
  clock : timed → s'.graph.fixedTime = s.graph.fixedTime ∧ s'.graph.iteration = s.graph.iteration

namespace Session.Fares

variable {whole timed : Prop} {s s' s'' : Session B σ}

theorem refl (s : Session B σ) : s.Fares whole timed s :=
  ⟨⟨[], rfl, .nil⟩, id, fun _ _ h => h, fun _ => ⟨rfl, rfl⟩⟩

theorem trans (h : s.Fares whole timed s') (h' : s'.Fares whole timed s'') :
    s.Fares whole timed s'' where
  events := by
    obtain ⟨new, hs, hn⟩ := h.events
    obtain ⟨new', hs', hn'⟩ := h'.events
    exact ⟨new' ++ new, by rw [hs', hs, List.append_assoc], hn'.append hn⟩
  once ho := h'.once (h.once ho)
  manned hw i hi := h.manned hw i (h'.manned hw i hi)
  clock ht := ⟨(h'.clock ht).1.trans (h.clock ht).1, (h'.clock ht).2.trans (h.clock ht).2⟩

/-- Nothing ran, and the clock stood. -/
theorem calmly (hc : s.Calm s')
    (he : ∃ news, s'.events = news ++ s.events ∧ ∀ e ∈ news, e.isActivity = false)
    (hw : ∀ i, s'.graph.awaitsBehavior i = true → s.graph.awaitsBehavior i = true) :
    s.Fares whole timed s' := by
  obtain ⟨news, hs, hn⟩ := he
  exact ⟨⟨news, hs, .of_news hn⟩, hc.once, fun _ => hw, fun _ => ⟨hc.time, hc.count⟩⟩

theorem of_quiet {T : NodeId → Prop} (hq : s.Quiet T s') (hc : s.Calm s') :
    s.Fares whole timed s' := calmly hc hq.events fun _ => hq.nodes.awaits

/-- Nothing ran, and the clock did not matter. -/
theorem untimed {T : NodeId → Prop} (ht : ¬timed) (hq : s.Quiet T s')
    (ho : s.graph.executable.Nodup → s'.graph.executable.Nodup) : s.Fares whole timed s' := by
  obtain ⟨news, hs, hn⟩ := hq.events
  exact ⟨⟨news, hs, .of_news hn⟩, ho, fun _ _ => hq.nodes.awaits, fun h => absurd h ht⟩

theorem log {e : Event B} (he : e.isActivity = false) (s : Session B σ) :
    s.Fares whole timed (s.log e) := of_quiet (T := fun _ => False) (.log he) (.log e)

/-- A change of other parts of the graph. -/
theorem aside {f : Graph B → Graph B} (hn : (f s.graph).nodes = s.graph.nodes)
    (hc : s.graph.Calm (f s.graph)) : s.Fares whole timed (s.edit f) :=
  of_quiet (T := fun _ => False) (.aside hn) hc

end Session.Fares

/-! ## Loads -/

namespace Session

variable [Kind B] {whole timed : Prop} (s : Session B σ)

theorem fares_clear (ht : ¬timed) : s.Fares whole timed s.clear :=
  .untimed (T := fun _ => False) ht s.quiet_clear fun _ => List.nodup_nil

theorem fares_adopt (table : Renaming LinkId) (id : NodeId) (r : NodeRecord) :
    s.Fares whole timed (s.adopt table id r).2 := by
  unfold adopt
  split
  · next n hn =>
    refine .calmly (.of_nodes rfl) ⟨_, rfl, fun e he => ?_⟩ fun i hi => ?_
    · exact n.offerProperties_news _ e (List.mem_reverse.1 he)
    · obtain hi | ⟨rfl, -, -, hb⟩ := Graph.awaits_modifyNode hi
      · exact hi
      · have hnone : n.behavior.isSome = false :=
          (n.isSome_applyRecord r).symm.trans (congrArg Option.isSome hb)
        exact Graph.awaits_of_isSome hn hnone
  · exact .refl s

theorem fares_adoptAll (table : Renaming LinkId) (placed : List (NodeId × NodeRecord)) :
    s.Fares whole timed (s.adoptAll table placed).2 := by
  have hall : ∀ r : Bool × Session B σ,
      r.2.Fares whole timed (placed.foldl (adoptNext table) r).2 := by
    induction placed with
    | nil => exact fun r => .refl r.2
    | cons e placed ih =>
      exact fun r => (r.2.fares_adopt table e.1 e.2).trans (ih (adoptNext table r e))
  exact hall (false, s)

theorem fares_introduceAll (placed : List (NodeId × NodeRecord)) :
    s.Fares whole timed (placed.foldl (fun s e => s.introduce e.1 e.2) s) := by
  have hquiet : ∀ (s : Session B σ) (e : NodeId × NodeRecord),
      s.Quiet (fun _ => False) (s.introduce e.1 e.2) := fun s e =>
    (Quiet.foldl (fun s (l : Direction × Nat × Link) =>
      s.quiet_tellEnd l.1 e.1 l.2.1 true l.2.2) _ s).trans (quiet_tell _ e.1 _)
  exact .of_quiet (.foldl hquiet placed s) (calm_of_told (told_introduceAll placed s))

omit [Kind B] in
theorem fares_finishLoad (snapshot : Snapshot) : s.Fares whole timed (s.finishLoad snapshot) := by
  have hq : s.Quiet (fun _ => False) (s.finishLoad snapshot) :=
    (((Quiet.aside rfl).trans (quiet_markStale _)).trans (quiet_endBatch _)).trans
      (.restructure (.refl _))
  exact .of_quiet hq (s.calm_finishLoad snapshot)

theorem fares_settleLoad (snapshot : Snapshot) (placed : List (NodeId × NodeRecord))
    (nodes : Renaming NodeId) (report : LoadReport) :
    s.Fares whole timed (s.settleLoad snapshot placed nodes report).2 := by
  let load := s.graph.mergeLinks nodes snapshot.links
  let merged := s.edit fun _ =>
    { load.graph with nextLink := max load.graph.nextLink snapshot.nextLink }
  let adopted := merged.adoptAll load.table placed
  let repair := adopted.2.graph.repair (report.prunedLinks ++ load.pruned)
  have hmerged : s.Fares whole timed merged := by
    obtain ⟨links, nextLink, hrest⟩ := s.graph.mergeLinks_rest nodes snapshot.links
    have hnodes : load.graph.nodes = s.graph.nodes := (congrArg Graph.nodes hrest).trans rfl
    exact .aside hnodes ((s.graph.calm_mergeLinks nodes snapshot.links).trans (.aside rfl rfl rfl))
  have hmended : adopted.2.Fares whole timed (adopted.2.edit fun _ => repair.graph) :=
    .of_quiet (.edit (Graph.mends_repair _ _).nodes) (Graph.calm_repair _ _)
  rw [settleLoad_of s rfl rfl rfl]
  exact (((hmerged.trans (merged.fares_adoptAll _ placed)).trans hmended).trans
    (fares_introduceAll _ placed)).trans (fares_finishLoad _ snapshot)

end Session

/-! ## Contracts -/

/-- The calls that leave the clock alone. -/
def Call.KeepsTime : Call B → Prop
  | .edit e => e ≠ .clear
  | .load _ keepOld => keepOld = true
  | .runStep .. => False
  | _ => True

/-- Programs neither clear the graph, nor load in its place, nor step it. -/
def timekeeping (B : Type) : Contract B := ⟨fun _ => True, Call.KeepsTime, fun _ _ => True⟩

/-- Programs add nodes that have a behaviour, if that is asked for, and keep time, if that is. -/
def restrained (B : Type) (whole timed : Prop) : Contract B where
  keeps _ := True
  allows c := (whole → (wellMade B).allows c) ∧ (timed → c.KeepsTime)
  promises := (wellMade B).promises

/-- Nothing is asked of these programs. -/
theorem Body.obeys_restrained (p : Body B σ α) : p.Obeys (restrained B False False) := by
  induction p with
  | done a => trivial
  | look next ih => exact fun g h _ => ih g h
  | keep change next ih => exact ih
  | note remark next ih => exact ih
  | call c next ih => exact ⟨⟨False.elim, False.elim⟩, fun a _ => ih a⟩

theorem Body.Obeys.whole {p : Body B σ α} (h : p.Obeys (wellMade B)) :
    p.Obeys (restrained B True False) :=
  h.mono (fun _ _ => trivial) (fun _ hc => ⟨fun _ => hc, False.elim⟩) fun _ _ ha => ha

theorem Body.Obeys.timed {p : Body B σ α} (h : p.Obeys (timekeeping B)) :
    p.Obeys (restrained B False True) :=
  h.mono (fun _ _ => trivial) (fun _ hc => ⟨False.elim, fun _ => hc⟩) fun _ _ _ => trivial

/-! ## Steps of the engine -/

namespace Engine

variable [Behavior B σ] {run : Runner B σ} {whole timed : Prop}

omit [Behavior B σ] in
theorem calm_restore (s : Session B σ) (id : NodeId) (b : B) : s.Calm (restore s id b) := by
  unfold restore
  split
  · exact .of_nodes rfl
  · exact .log _

omit [Behavior B σ] in
/-- A body has ended, and its behaviour goes back: that body was started, and others inside it. -/
theorem starts_restore {s t : Session B σ} {id : NodeId} {b : B} {task : Task}
    (h : ∃ inside, t.events = inside ++ .began id b task :: s.events ∧ Bracketed inside) (b' : B) :
    s.Starts [id] (restore (t.log (.ended id)) id b') := by
  obtain ⟨inside, hin, hinner⟩ := h
  have hended : s.Starts [id] (t.log (.ended id)) := by
    refine ⟨.ended id :: (inside ++ [.began id b task]), ?_, .activation id b task hinner .nil, ?_⟩
    · show Event.ended id :: t.events = _
      rw [hin]
      simp
    · show outermost (inside ++ [Event.began id b task]) = [id]
      have hopened : underway [Event.began id b task] = [id] := rfl
      rw [hinner.outermost_append, hopened, if_neg (List.cons_ne_nil _ _), List.append_nil]
      rfl
  exact hended.trans (.of_news (events_restore _ id b'))

/-- What steps do besides running bodies matters to the clock only. -/
theorem unhurried_fares (ht : ¬timed) :
    Unhurried (Session.Fares (B := B) (σ := σ) whole timed) where
  refl := .refl
  trans := .trans
  marked _ _ := .aside rfl (.aside rfl rfl rfl)
  updated s := .of_quiet (T := fun _ => False) (.edit s.graph.descends_updateOrder)
    (.edit s.graph.calm_updateOrder)
  counted _ _ _ _ := .untimed (T := fun _ => False) ht (.aside rfl) id
  noted s := ⟨.log rfl s, .log rfl s⟩
  stopped s := .of_quiet (T := fun _ => False) s.quiet_stop s.calm_stop

omit [Behavior B σ] in
theorem undisturbed_fares : Undisturbed (Session.Fares (B := B) (σ := σ) whole timed) :=
  ⟨.refl, .trans, fun _ _ => .aside rfl (.aside rfl rfl rfl)⟩

section Runner

variable (hrun : ∀ b id task s, Ensures (run (Behavior.body b id task)) s fun _ s' =>
  s.Fares whole timed s')
include hrun

/-- The behaviour is out of the node while the body runs; it goes back, or the node is gone. -/
theorem fares_enter (id : NodeId) (task : Task) (s : Session B σ) :
    Ensures (enter run id task) s fun _ s' => s.Fares whole timed s' := by
  cases hb : s.graph.behavior? id with
  | none =>
    intro ending s' hr
    rw [enter_busy hb] at hr
    cases hr
    exact .refl s
  | some b =>
    refine ensures_enter hb ((hrun b id task _).mono fun out t ht => ?_)
    have hcalm := calm_restore (t.log (.ended id)) id out.state
    obtain ⟨new, hnew, hbracketed, -⟩ := starts_restore ht.events out.state
    refine ⟨⟨new, hnew, hbracketed⟩, ?_, ?_, ?_⟩
    · exact fun ho => hcalm.once (ht.once ho)
    · intro hw i hi
      obtain ⟨hi, hne⟩ := awaits_restore hi
      exact (Graph.awaits_modifyNode (ht.manned hw i hi)).resolve_right fun h => hne h.1
    · exact fun h => ⟨hcalm.time.trans (ht.clock h).1, hcalm.count.trans (ht.clock h).2⟩

/-- Who is entered was started; who is busy was not. -/
theorem starts_enter (id : NodeId) (task : Task) (s : Session B σ) :
    Ensures (enter run id task) s fun ending s' =>
      s.Starts (if ending.isSome then [id] else []) s' := by
  cases hb : s.graph.behavior? id with
  | none =>
    intro ending s' hr
    rw [enter_busy hb] at hr
    cases hr
    exact .silent rfl
  | some b =>
    exact ensures_enter hb ((hrun b id task _).mono fun out t ht =>
      starts_restore ht.events out.state)

theorem fares_insertNode {n : Node B} (hn : whole → n.behavior.isSome = true) (refresh : Bool)
    (s : Session B σ) :
    Ensures (insertNode run n refresh) s fun _ s' => s.Fares whole timed s' := by
  apply Ensures.get_bind
  show Ensures (ite _ _ _) s _
  split
  · exact Ensures.pure (.refl s)
  · let id := (s.graph.claimNode n.id).1
    have hplaced : s.Fares whole timed (s.edit fun g => g.place n id (s.graph.claimNode n.id).2) := by
      refine ⟨⟨[], rfl, .nil⟩, fun ho => ho, fun hw i hi => ?_, fun _ => ⟨rfl, rfl⟩⟩
      refine (Graph.awaits_place hi).resolve_right fun hb => ?_
      have hsome := hn hw
      rw [hb] at hsome
      cases hsome
    apply Ensures.set_bind
    apply Ensures.bind
    refine (fares_enter hrun id .added _).mono fun _ t ht => ?_
    apply Ensures.modify_bind
    refine Ensures.pure ((hplaced.trans ht).trans ?_)
    -- the order is brought up to date, if that is asked for
    have hstale : t.Fares whole timed t.markStale := .aside rfl (.aside rfl rfl rfl)
    have hfresh : t.markStale.Fares whole timed
        (if refresh then t.markStale.refresh else t.markStale) := by
      split
      · exact .of_quiet (T := fun _ => False) (Session.quiet_refresh _) (Session.calm_refresh _)
      · exact .refl _
    exact (hstale.trans hfresh).trans ((Session.Fares.log rfl _).trans (.log rfl _))

theorem fares_load {keepOld : Bool} (ht : timed → keepOld = true) (snapshot : Snapshot)
    (s : Session B σ) :
    Ensures (load run snapshot keepOld) s fun _ s' => s.Fares whole timed s' := by
  apply Ensures.modify_bind
  apply Ensures.bind
  have hcleared : s.Fares whole timed (if keepOld then s else s.clear) := by
    cases keepOld with
    | true => exact .refl s
    | false => exact s.fares_clear fun h => nomatch ht h
  have hopen : s.Fares whole timed (((if keepOld then s else s.clear).edit fun g =>
      { g with config := g.config.insertAll snapshot.config.entries }).beginBatch) :=
    hcleared.trans (.trans (.aside rfl (.aside rfl rfl rfl)) (.aside rfl (.aside rfl rfl rfl)))
  have hadd := fun (n : Node B) (hn : n.behavior.isSome = true) =>
    fares_insertNode hrun (n := n) (fun _ => hn) false
  refine (follows_placeAll undisturbed_fares hadd snapshot.nodes _ _).mono fun p t hst => ?_
  apply Ensures.total
  exact (hopen.trans hst).trans (t.fares_settleLoad ..)

omit hrun in
theorem promises_apply (e : Edit) (s : Session B σ) :
    (wellMade B).promises (.edit e) (e.apply s).1 := by
  cases e with
  | cloneNode id =>
    intro n hn
    obtain ⟨original, -, rfl⟩ := Session.exists_of_cloneNode hn
    exact original.isSome_copy s.graph.registry
  | _ => trivial

theorem fares_perform {c : Call B} (hc : (restrained B whole timed).allows c) (s : Session B σ) :
    Ensures (perform run c) s fun a s' =>
      s.Fares whole timed s' ∧ (restrained B whole timed).promises c a := by
  have henter := fun id (task : Task) (_ : task ≠ .added) => fares_enter hrun id task
  have hR : Undisturbed (Session.Fares (B := B) (σ := σ) whole timed) := undisturbed_fares
  cases c with
  | edit e =>
    apply Ensures.total
    refine ⟨?_, promises_apply e s⟩
    by_cases hclear : e = .clear
    · subst hclear
      exact s.fares_clear fun h => hc.2 h rfl
    · exact .of_quiet (e.quiet_apply s) (Edit.calm_apply s hclear)
  | add n => exact (fares_insertNode hrun hc.1 true s).mono fun _ _ h => ⟨h, trivial⟩
  | load snapshot keepOld => exact (fares_load hrun hc.2 snapshot s).mono fun _ _ h => ⟨h, trivial⟩
  | execute id => exact (follows_runBody hR henter id none s).mono fun _ _ h => ⟨h, trivial⟩
  | triggerSlot id slot payload only =>
    exact (follows_triggerSlot hR henter id slot payload only s).mono fun _ _ h => ⟨h, trivial⟩
  | trigger id action payload =>
    exact (follows_trigger hR henter id action payload s).mono fun _ _ h => ⟨h, trivial⟩
  | pull id slot => exact (follows_pull hR henter id slot s).mono fun _ _ h => ⟨h, trivial⟩
  | runStep passes propagate =>
    exact (follows_runStep (unhurried_fares hc.2) henter passes propagate s).mono
      fun _ _ h => ⟨h, trivial⟩

/-- A program fares as its calls do: induction on the program, call by call. -/
theorem fares_run {p : Body B σ α} (hp : p.Obeys (restrained B whole timed)) (s : Session B σ) :
    Ensures (p.run (perform run)) s fun _ s' => s.Fares whole timed s' := by
  induction p generalizing s with
  | done a => exact Ensures.pure (.refl s)
  | look next ih => exact Ensures.get_bind (ih _ _ (hp _ _ trivial) s)
  | keep change next ih =>
    apply Ensures.modify_bind
    have hk : s.Fares whole timed { s with host := change s.host } :=
      ⟨⟨[], rfl, .nil⟩, id, fun _ _ h => h, fun _ => ⟨rfl, rfl⟩⟩
    exact (ih hp _).mono fun _ _ h => hk.trans h
  | note remark next ih =>
    apply Ensures.modify_bind
    exact (ih hp _).mono fun _ _ h => .trans (.log rfl s) h
  | call c next ih =>
    apply Ensures.bind
    refine (fares_perform hrun hp.1 s).mono fun a t ha => ?_
    exact (ih _ (hp.2 _ ha.2) t).mono fun _ _ h => ha.1.trans h

end Runner

/-- Bodies fare as they restrain themselves, however deeply they are nested. -/
theorem fares_runner (hb : ∀ b id task,
      (Behavior.body b id task : Body B σ (Outcome B)).Obeys (restrained B whole timed))
    (depth : Nat) (b : B) (id : NodeId) (task : Task) (s : Session B σ) :
    Ensures (runner depth (Behavior.body b id task)) s fun _ s' => s.Fares whole timed s' := by
  induction depth generalizing b id task s with
  | zero =>
    -- at depth zero no body runs to its end
    intro out s' hr
    cases hr
  | succ depth ih => exact fares_run ih (hb b id task) s

end Engine

end Dataflow
