/-
  A step runs its schedule, under either policy.

  A step that fails either answers with the failure or keeps it to itself, raises a flag and stops
  the graph.  The passes know nothing of the policy, so both steps go through the same turns; what
  differs is what is done at the end, and that is told here exactly (`Session.Halted`).

  The `Chronicle` of a step puts this beside the schedule of its passes.  Every step from a reachable
  session that comes to an end has one (`step_follows_schedule`).

  A node is started only if its behaviour is there.  No body runs while a step from outside is between
  two turns, so the behaviour is missing only where a node was put into the graph without it.  A body
  that takes its own node out of the graph and adds it again does that: the new node is able to run
  and is passed over in every pass (`Nomad.passed_over`).
-/

import Dataflow.Proofs.Reachable
import Dataflow.Proofs.Turns

namespace Dataflow

variable {B σ : Type}

/-! ## Stopping -/

namespace Session

section Kind

variable [Kind B]

theorem tell_eq (s : Session B σ) (id : NodeId) (notice : Notice) : s.tell id notice =
    (s.edit fun g => g.modifyNode id fun n => (n.tell notice).1).logAll
      ((s.graph.nodes.get? id).toList.flatMap fun n => (n.tell notice).2) := by
  unfold tell
  cases hn : s.graph.nodes.get? id with
  | none =>
    have hm : s.graph.modifyNode id (fun n => (n.tell notice).1) = s.graph :=
      congrArg (fun nodes => { s.graph with nodes }) (Assoc.modify_eq_self fun v hv => by
        rw [hn] at hv
        cases hv)
    show s = { s with graph := s.graph.modifyNode id _ }
    rw [hm]
  | some n =>
    have hm : (s.graph.nodes.modify id fun _ => (n.tell notice).1) =
        s.graph.nodes.modify id fun m => (m.tell notice).1 := by
      apply Assoc.modify_congr
      intro m hm
      cases Option.some.inj (hn.symm.trans hm)
      rfl
    simp only [Option.toList_some, List.flatMap_singleton]
    exact congrArg (fun nodes => (s.edit fun g => { g with nodes }).logAll (n.tell notice).2) hm

/-- To tell several nodes is to tell each of them, in order. -/
theorem tellAll_eq {ids : List NodeId} (hn : ids.Nodup) (notice : Notice) (s : Session B σ) :
    s.tellAll ids notice =
      (s.edit fun g => { g with
        nodes := g.nodes.mapValues fun id n => if id ∈ ids then (n.tell notice).1 else n }).logAll
      ((ids.filterMap s.graph.nodes.get?).flatMap fun n => (n.tell notice).2) := by
  induction ids generalizing s with
  | nil =>
    have hsame : (s.graph.nodes.mapValues fun _ n => n) = s.graph.nodes :=
      Assoc.ext_view (Assoc.keys_mapValues ..) fun k => by rw [Assoc.get?_mapValues, Option.map_id']
    simp only [List.not_mem_nil, if_false]
    show s = { s with graph := { s.graph with nodes := s.graph.nodes.mapValues fun _ n => n } }
    rw [hsame]
  | cons id ids ih =>
    obtain ⟨hid, hn⟩ := List.nodup_cons.1 hn
    -- the others are as they were when the first has been told
    have hothers : ids.filterMap (s.tell id notice).graph.nodes.get? =
        ids.filterMap s.graph.nodes.get? := by
      refine List.filterMap_congr fun i hi => ?_
      rw [tell_eq]
      show (s.graph.modifyNode id _).nodes.get? i = _
      rw [Graph.get?_modifyNode, if_neg (ne_of_mem_of_not_mem hi hid)]
    have hnodes : ((s.tell id notice).graph.nodes.mapValues fun i n =>
        if i ∈ ids then (n.tell notice).1 else n) =
          s.graph.nodes.mapValues fun i n => if i ∈ id :: ids then (n.tell notice).1 else n := by
      rw [tell_eq]
      refine Assoc.ext_view ?_ fun i => ?_
      · rw [Assoc.keys_mapValues, Assoc.keys_mapValues]
        exact Assoc.keys_modify ..
      · rw [Assoc.get?_mapValues, Assoc.get?_mapValues]
        show ((s.graph.modifyNode id _).nodes.get? i).map _ = _
        rw [Graph.get?_modifyNode]
        by_cases he : i = id
        · subst he
          rw [if_pos rfl, Option.map_map]
          congr 1
          funext n
          simp [hid]
        · rw [if_neg he]
          congr 1
          funext n
          simp [he]
    have hgraph : ∀ nodes, ({ (s.tell id notice).graph with nodes } : Graph B) =
        { s.graph with nodes } := fun nodes => by rw [tell_eq]; rfl
    have hevents : (s.tell id notice).events =
        ((s.graph.nodes.get? id).toList.flatMap fun n => (n.tell notice).2).reverse ++ s.events := by
      rw [tell_eq]
      rfl
    have hhost : (s.tell id notice).host = s.host := by
      rw [tell_eq]
      rfl
    show (s.tell id notice).tellAll ids notice = _
    rw [ih hn, hothers]
    show (⟨{ (s.tell id notice).graph with nodes := _ }, _ ++ (s.tell id notice).events,
      (s.tell id notice).host⟩ : Session B σ) = ⟨{ s.graph with nodes := _ }, _ ++ s.events, s.host⟩
    rw [hgraph, hnodes, hevents, hhost]
    cases hn : s.graph.nodes.get? id with
    | none => simp [hn]
    | some n => simp [hn]

theorem stop_eq (s : Session B σ) : s.stop =
    if s.graph.running then
      (((s.edit fun g => { g with running := false }).log .stopped).edit fun g => { g with
        nodes := g.nodes.mapValues fun _ n => (n.tell .stopped).1 }).logAll
          (s.graph.nodes.values.flatMap fun n => (n.tell .stopped).2)
    else s := by
  unfold stop
  split
  · let halted := (s.edit fun g => { g with running := false }).log .stopped
    have hnodes : (s.graph.nodes.mapValues fun id n =>
        if id ∈ s.graph.nodes.keys then (n.tell .stopped).1 else n) =
          s.graph.nodes.mapValues fun _ n => (n.tell .stopped).1 := by
      refine Assoc.mapValues_congr fun e he => ?_
      have hk : e.1 ∈ s.graph.nodes.keys := List.mem_map_of_mem he
      rw [if_pos hk]
    show halted.tellAll s.graph.nodes.keys .stopped = _
    rw [tellAll_eq s.graph.nodes.nodup_keys]
    show (halted.edit fun g => { g with nodes := Assoc.mapValues s.graph.nodes _ }).logAll
      ((s.graph.nodes.keys.filterMap s.graph.nodes.get?).flatMap _) = _
    rw [hnodes, Assoc.filterMap_keys]
    rfl
  · rfl

/-- What keeping a failure makes of a session: the flag is up and the graph is stopped, and if it was
running, every behaviour that is there was told so, in the order of the nodes. -/
structure Halted (s h : Session B σ) : Prop where
  graph : h.graph = { s.graph with nodes := h.graph.nodes, running := false, failed := true }
  nodes : h.graph.nodes =
    if s.graph.running then s.graph.nodes.mapValues fun _ n => (n.tell .stopped).1
    else s.graph.nodes
  /-- Only behaviours remember it. -/
  still : h.graph.still = s.graph.still
  events : h.events =
    if s.graph.running then
      (s.graph.nodes.values.flatMap fun n => (n.tell .stopped).2).reverse ++ .stopped :: s.events
    else s.events
  host : h.host = s.host

/-- What a step leaves that keeps its failure, beside what it leaves when it answers with it. -/
def Keeps : Except GraphError Unit → Session B σ → Session B σ → Prop
  | .ok _, s, kept => kept = s.edit fun g => { g with failed := false }
  | .error _, s, kept => s.Halted kept

theorem still_told (nodes : Assoc NodeId (Node B)) (notice : Notice) :
    ((nodes.mapValues fun _ n => (n.tell notice).1).mapValues fun _ n => n.still) =
      nodes.mapValues fun _ n => n.still := by
  rw [Assoc.mapValues_mapValues]
  refine Assoc.mapValues_congr fun e _ => ?_
  obtain ⟨b, hb⟩ := e.2.tell_eq notice
  rw [hb]
  rfl

/-- A failure that is kept counts as much as one that is answered. -/
theorem halted_stop (s : Session B σ) :
    (s.edit fun g => { g with iteration := g.iteration + 1 }).Halted
      ((s.edit fun g => { g with failed := true }).stop.edit fun g =>
        { g with iteration := g.iteration + 1 }) := by
  rw [stop_eq]
  cases hr : s.graph.running with
  | false =>
    have hg : (s.edit fun g => { g with failed := true }).graph.running = false := hr
    rw [if_neg (by rw [hg]; exact Bool.false_ne_true)]
    have hs : (s.edit fun g => { g with iteration := g.iteration + 1 }).graph.running = false := hr
    have hsame : s.graph = { s.graph with running := false } := by rw [← hr]
    constructor
    case graph =>
      exact congrArg
        (fun g : Graph B => { g with failed := true, iteration := g.iteration + 1 }) hsame
    case nodes =>
      rw [hs]
      rfl
    case still =>
      rfl
    case events =>
      rw [hs]
      rfl
    case host =>
      rfl
  | true =>
    have hg : (s.edit fun g => { g with failed := true }).graph.running = true := hr
    rw [if_pos hg]
    have hs : (s.edit fun g => { g with iteration := g.iteration + 1 }).graph.running = true := hr
    constructor
    case graph =>
      rfl
    case nodes =>
      rw [hs]
      rfl
    case still =>
      exact still_told s.graph.nodes .stopped
    case events =>
      rw [hs]
      rfl
    case host =>
      rfl

end Kind

/-- The session with its cached order brought up to date, if that was flagged. -/
def ordered (s : Session B σ) : Session B σ := if s.graph.stale then s.edit Graph.updateOrder else s

/-- What every step ends with: it is counted. -/
def stepped (s : Session B σ) : Session B σ :=
  (s.log .stepped).edit fun g => { g with iteration := g.iteration + 1 }

end Session

/-! ## Steps -/

namespace Engine

variable [Behavior B σ]

theorem exec_perform (depth : Nat) (c : Call B) (s : Session B σ) :
    exec depth (Body.perform c) s = perform (runner depth) c s := by
  show (perform (runner depth) c s).bind some = _
  cases perform (runner depth) c s <;> rfl

section Policies

variable {run : Runner B σ} {n : Nat} {s t : Session B σ} {result : Except GraphError Unit}

theorem runStep_eq (propagate : Bool) : runStep run n propagate s =
    (runPasses run n s.ordered).bind fun r =>
      some ((conclude propagate r.1 (r.2.log .stepped)).1,
        (conclude propagate r.1 (r.2.log .stepped)).2.edit fun g =>
          { g with iteration := g.iteration + 1 }) := rfl

/-- A step that answers with its failure only counts once the passes are done. -/
theorem runStep_answers (hr : runPasses run n s.ordered = some (result, t)) :
    runStep run n true s = some (result, t.stepped) := by
  rw [runStep_eq, hr]
  cases result <;> rfl

/-- A step that keeps its failure has the same passes. -/
theorem runStep_keeps (hr : runPasses run n s.ordered = some (result, t)) :
    ∃ kept, runStep run n false s = some (.ok (), kept) ∧ Session.Keeps result t.stepped kept := by
  rw [runStep_eq, hr]
  cases result with
  | ok done => exact ⟨_, rfl, rfl⟩
  | error e => exact ⟨_, rfl, (t.log .stepped).halted_stop⟩

/-- Whichever policy a step has, if it ends its passes do. -/
theorem exists_passes_of_runStep {propagate : Bool} {r : Except GraphError Unit × Session B σ}
    (hr : runStep run n propagate s = some r) :
    ∃ result t, runPasses run n s.ordered = some (result, t) := by
  rw [runStep_eq] at hr
  obtain ⟨⟨result, t⟩, h, -⟩ := Option.bind_eq_some_iff.1 hr
  exact ⟨result, t, h⟩

end Policies

/-- What is to be told of a step of `n` passes that is called in a session from outside. -/
structure Chronicle (depth n : Nat) (s : Session B σ) (completed : List (Pass B σ))
    (broken : Option (Pass B σ)) (result : Except GraphError Unit) (t : Session B σ) : Prop where
  /-- In each pass the nodes of its list have their turns, and those that are due are started. -/
  turns : Stepped (runner depth) n s.ordered completed broken result t
  /-- The events show that those were started, and no others from outside. -/
  starts : s.Starts ((completed ++ broken.toList).flatMap Pass.started) t
  /-- Where every node has its behaviour and bodies add no others, every node is due that is able and
  meant to run. -/
  whole : (∀ b id task, (Behavior.body b id task : Body B σ (Outcome B)).Obeys (wellMade B)) →
    (∀ i, s.graph.awaitsBehavior i = false) →
      ∀ p ∈ completed ++ broken.toList, ∀ u ∈ p.turns,
        u.before.graph.due u.id = u.before.graph.ready u.id
  /-- Where bodies leave the clock alone, it counts the step, and the time of its completed passes. -/
  clock : (∀ b id task, (Behavior.body b id task : Body B σ (Outcome B)).Obeys (timekeeping B)) →
    t.stepped.graph.iteration = s.graph.iteration + 1 ∧
      t.stepped.graph.fixedTime = completed.foldl
        (fun time p => time + p.last.graph.settings.fixedTimeLapse.toFloat) s.graph.fixedTime
  /-- With errors propagated the step answers as its passes do. -/
  answered : exec depth (Body.perform (.runStep n true)) s = some (result, t.stepped)
  /-- With errors caught all that differs is the flag, and that a failure stops the graph. -/
  kept : ∃ kept, exec depth (Body.perform (.runStep n false)) s = some (.ok (), kept) ∧
    Session.Keeps result t.stepped kept

omit [Behavior B σ] in
theorem nodup_ordered {s : Session B σ} (hs : s.graph.Trusted) :
    s.ordered.graph.executable.Nodup := by
  unfold Session.ordered
  cases hstale : s.graph.stale with
  | true => exact s.graph.nodup_computeOrder.filter _
  | false =>
    show s.graph.executable.Nodup
    rw [(hs.current hstale).executable]
    exact s.graph.nodup_computeOrder.filter _

/-- A step runs exactly its schedule, whatever bodies do to the graph meanwhile. -/
theorem step_follows_schedule {s s' : Session B σ} (hs : Reachable s) {depth n : Nat}
    {propagate : Bool} {answer : Except GraphError Unit}
    (hr : exec depth (Body.perform (.runStep n propagate)) s = some (answer, s')) :
    ∃ completed broken result t, Chronicle depth n s completed broken result t := by
  rw [exec_perform] at hr
  obtain ⟨result, t, hpasses⟩ := exists_passes_of_runStep hr
  have hrun : ∀ (b : B) id task (s : Session B σ),
      Ensures (runner depth (Behavior.body b id task)) s fun _ s' => s.Fares False False s' :=
    fares_runner (fun _ _ _ => Body.obeys_restrained _) depth
  obtain ⟨completed, broken, hturns⟩ := exists_passes hrun n (nodup_ordered hs.trusted) hpasses
  have hordered : s.Quiet (fun _ => False) s.ordered ∧ s.Calm s.ordered := by
    unfold Session.ordered
    split
    · exact ⟨.edit s.graph.descends_updateOrder, .edit s.graph.calm_updateOrder⟩
    · exact ⟨.refl s, .refl s⟩
  refine ⟨completed, broken, result, t, hturns, ?_, fun hb hmanned => ?_, fun hb => ?_, ?_, ?_⟩
  · exact (Session.Starts.of_news hordered.1.events).trans (hturns.starts hrun)
  · refine hturns.due_eq_ready (fares_runner (fun b id task => (hb b id task).whole) depth) fun i => ?_
    refine Bool.eq_false_iff.2 fun hi => ?_
    exact Bool.eq_false_iff.1 (hmanned i) (hordered.1.nodes.awaits hi)
  · obtain ⟨hcount, htime⟩ :=
      hturns.clock (fares_runner (fun b id task => (hb b id task).timed) depth)
    rw [hordered.2.count] at hcount
    rw [hordered.2.time] at htime
    exact ⟨congrArg Nat.succ hcount, htime⟩
  · rw [exec_perform]
    exact runStep_answers hpasses
  · rw [exec_perform]
    exact runStep_keeps hpasses

end Engine

/-! ## A step that fails -/

/-- A constant is given a value that is no number, and the graph is started. -/
def misvalued : Body Catalog Unit Unit := do
  let _ ← Body.addNew "basic/const_number"
  let _ ← Body.edit (.storeProperty ⟨1⟩ "value" (.str "three"))
  let _ ← Body.edit .start

theorem misvalued_fails : ((Engine.exec 1 misvalued
      (⟨Graph.empty (Catalog.registry id) .default, [], ()⟩ : Session Catalog Unit)).any fun e =>
    e.2.graph.running && (e.2.graph.nodes.values.all fun n => n.behavior.isSome) &&
      (Engine.exec 1 (Body.perform (.runStep 2 true)) e.2).any fun r =>
        match r.1 with
        | .error (.execution id _) => decide (id = ⟨1⟩)
        | _ => false) = true := by
  decide +kernel

/-- The first of two passes is broken off, its turns are those that the schedule gives, and the step
is counted. -/
theorem misvalued_follows : ∃ (s s' : Session Catalog Unit) (error : NodeError), Reachable s ∧
    s.graph.running = true ∧
    Engine.exec 1 (Body.perform (.runStep 2 true)) s = some (.error (.execution ⟨1⟩ error), s') ∧
    ∃ completed p t, Engine.Chronicle 1 2 s completed (some p) (.error (.execution ⟨1⟩ error)) t ∧
      (∀ u ∈ p.turns, u.before.graph.due u.id = u.before.graph.ready u.id) ∧
      t.stepped.graph.iteration = s.graph.iteration + 1 := by
  obtain ⟨⟨⟨⟩, s⟩, hmade, hfacts⟩ := (Option.any_eq_true _ _).1 misvalued_fails
  simp only [Bool.and_eq_true] at hfacts
  obtain ⟨⟨hrunning, hnodes⟩, hstep⟩ := hfacts
  obtain ⟨⟨answer, s'⟩, hr, hanswer⟩ := (Option.any_eq_true _ _).1 hstep
  obtain ⟨error, rfl⟩ : ∃ error, answer = .error (.execution ⟨1⟩ error) := by
    split at hanswer
    · next id error ha =>
      cases of_decide_eq_true hanswer
      exact ⟨error, ha⟩
    · cases hanswer
  have hs : Reachable s := (Reachable.start _ _ _ _).exec misvalued hmade
  have hmanned : ∀ i, s.graph.awaitsBehavior i = false := by
    intro i
    refine Bool.eq_false_iff.2 fun hi => ?_
    obtain ⟨n, hn, hb⟩ := Graph.awaits_iff.1 hi
    have hsome := List.all_eq_true.1 hnodes n (Assoc.mem_values_of_get? hn)
    rw [hb] at hsome
    cases hsome
  obtain ⟨completed, broken, result, t, h⟩ := Engine.step_follows_schedule hs hr
  obtain rfl : result = .error (.execution ⟨1⟩ error) :=
    congrArg Prod.fst (Option.some.inj (h.answered.symm.trans hr))
  obtain ⟨p, rfl⟩ : ∃ p, broken = some p := by
    cases h.turns with
    | broken => exact ⟨_, rfl⟩
  have hwhole := h.whole (Catalog.obeys_behavior (fun _ _ => trivial) fun _ _ _ _ => trivial) hmanned
  have hclock := h.clock (Catalog.obeys_behavior (fun e he hc => by subst hc; exact he)
    fun _ _ _ _ => trivial)
  exact ⟨s, s', error, hs, hrunning, hr, completed, p, t, h,
    hwhole p (by simp), hclock.1⟩

/-! ## A node that is passed over -/

/-- The behaviour of nodes that take themselves out of the graph and add themselves again. -/
inductive Nomad where
  | nomad

namespace Nomad

instance : Kind Nomad where
  inert := nomad
  canExecute _ := true
  acceptsActions _ := false
  told b _ := b
  acceptsLink _ _ _ := true
  keepsOld _ _ _ := false
  annotate _ r := r

instance : Behavior Nomad Unit where
  body b id task :=
    match task with
    | .execute _ => do
      match ← Body.edit (.remove id) with
      | some n => do
        let _ ← Body.perform (.add n)
        return ⟨b, .ok ()⟩
      | none => return ⟨b, .ok ()⟩
    | _ => return ⟨b, .ok ()⟩

/-- A nomad is added, and executed once. -/
def journey : Body Nomad Unit Unit := do
  let _ ← Body.perform (.add ((Node.new "nomad").withBehavior nomad))
  let _ ← Body.perform (.execute ⟨1⟩)

theorem journey_ends : ((Engine.exec 2 journey
      (⟨Graph.empty ∅ .default, [], ()⟩ : Session Nomad Unit)).any fun e =>
    !e.2.graph.stale && decide (e.2.graph.executable = [⟨2⟩]) && e.2.graph.ready ⟨2⟩ &&
      (Engine.exec 2 (Body.perform (.runStep 1 true)) e.2).any fun r =>
        r.1.toBool && decide (outermost r.2.events = outermost e.2.events)) = true := by
  decide +kernel

/-- The node that was added again while its behaviour was out is in the graph, able to execute, meant
to run in every pass, and the only one on the list; and a step that succeeds starts nothing. -/
theorem passed_over : ∃ s s' : Session Nomad Unit, Reachable s ∧ s.graph.stale = false ∧
    s.graph.executable = [⟨2⟩] ∧ s.graph.ready ⟨2⟩ = true ∧
    Engine.exec 2 (Body.perform (.runStep 1 true)) s = some (.ok (), s') ∧
    outermost s'.events = outermost s.events := by
  obtain ⟨⟨⟨⟩, s⟩, hmade, hfacts⟩ := (Option.any_eq_true _ _).1 journey_ends
  simp only [Bool.and_eq_true, Bool.not_eq_true', decide_eq_true_eq] at hfacts
  obtain ⟨⟨⟨hstale, hlist⟩, hready⟩, hstep⟩ := hfacts
  obtain ⟨⟨answer, s'⟩, hr, hfacts⟩ := (Option.any_eq_true _ _).1 hstep
  simp only [Bool.and_eq_true, decide_eq_true_eq] at hfacts
  refine ⟨s, s', (Reachable.start _ _ _ _).exec journey hmade, hstale, hlist, hready, ?_, hfacts.2⟩
  cases answer with
  | error e => cases hfacts.1
  | ok done => exact hr

end Nomad

end Dataflow
