/-
  The schedule of a step.

  A pass has the list of executable nodes before it as that stood when the pass began, and the nodes
  of the list have their turns in order.  What a node is when its turn comes decides whether it is
  started (`Graph.due`); bodies may have taken it away meanwhile, or put it to sleep.  The first body
  that fails ends the pass, and the step with it.

  Nothing of this asks bodies for anything.  The history of a step is split first into passes, and
  each pass into its turns (`exists_passes`).  What the bodies of the turns leave behind is then put
  together along that history: which nodes the events show to have been started from outside
  (`Stepped.starts`), that none was passed over because its body was running already
  (`Stepped.due_eq_ready`), and how far the clock went (`Stepped.clock`).
-/

import Dataflow.Proofs.Aftermath

namespace Dataflow

variable {B σ : Type}

/-! ## Turns -/

/-- A node is able and meant to run in every pass. -/
def Graph.ready (g : Graph B) (id : NodeId) : Bool :=
  (g.nodes.get? id).any fun n => n.canExecute && decide (n.mode = .always)

/-- A node is ready, and its behaviour is there to be run. -/
def Graph.due (g : Graph B) (id : NodeId) : Bool := g.ready id && (g.behavior? id).isSome

/-- A turn that a node has in a pass, and what became of it. -/
structure Turn (B σ : Type) where
  id : NodeId
  before : Session B σ
  /-- How the body of the node ended, if it was started. -/
  ending : Option Ending
  after : Session B σ

/-- The failure that an answer is, if it is one. -/
def failureOf {α : Type} : Except GraphError α → Option GraphError
  | .ok _ => none
  | .error e => some e

namespace Turn

/-- What the step answers when the body has failed: it names the node. -/
def failure? (t : Turn B σ) : Option GraphError :=
  match t.ending with
  | some (.error e) => some (.execution t.id e)
  | _ => none

/-- The node is started if it is due when its turn comes, and else nothing happens. -/
structure Fair [Behavior B σ] (run : Runner B σ) (t : Turn B σ) : Prop where
  started : t.ending.isSome = t.before.graph.due t.id
  entered : ∀ e, t.ending = some e →
    Engine.enter run t.id (.execute none) t.before = some (some e, t.after)
  idle : t.ending = none → t.after = t.before

end Turn

/-- Turns that follow one on the other, from one session to another. -/
def Joins (s : Session B σ) : List (Turn B σ) → Session B σ → Prop
  | [], s' => s' = s
  | t :: ts, s' => t.before = s ∧ Joins t.after ts s'

/-- The nodes of a list have their turns in order, up to the first failure. -/
structure Scan [Behavior B σ] (run : Runner B σ) (ids : List NodeId) (s : Session B σ)
    (turns : List (Turn B σ)) (s' : Session B σ) : Prop where
  joined : Joins s turns s'
  fair : ∀ t ∈ turns, t.Fair run
  listed : turns.map Turn.id <+: ids
  /-- Without a failure every node of the list has its turn. -/
  complete : turns.findSome? Turn.failure? = none → turns.map Turn.id = ids
  /-- After a failure no node has. -/
  halts : ∀ earlier t later, turns = earlier ++ t :: later → t.failure?.isSome = true → later = []

/-! ## Passes -/

/-- A pass through the list of executable nodes. -/
structure Pass (B σ : Type) where
  first : Session B σ
  turns : List (Turn B σ)
  last : Session B σ

namespace Pass

/-- The nodes that were started, in order. -/
def started (p : Pass B σ) : List NodeId := p.turns.filterMap fun t => t.ending.map fun _ => t.id

/-- The failure that ended the pass. -/
def failure? (p : Pass B σ) : Option GraphError := p.turns.findSome? Turn.failure?

/-- The turns are those of the list that the pass began with, which names no node twice. -/
structure Scheduled [Behavior B σ] (run : Runner B σ) (p : Pass B σ) : Prop extends
    Scan run p.first.graph.executable p.first p.turns p.last where
  once : p.first.graph.executable.Nodup

end Pass

/-! ## Steps -/

/-- What a completed pass ends with: the time goes on. -/
def Session.tock (s : Session B σ) : Session B σ :=
  (s.edit fun g => { g with fixedTime := g.fixedTime + g.settings.fixedTimeLapse.toFloat }).log .passed

/-- Completed passes, one after the other. -/
inductive Completed [Behavior B σ] (run : Runner B σ) :
    Session B σ → List (Pass B σ) → Session B σ → Prop where
  | none (s : Session B σ) : Completed run s [] s
  | pass {p : Pass B σ} {ps : List (Pass B σ)} {t : Session B σ} (hp : p.Scheduled run)
    (hok : p.failure? = .none) (h : Completed run p.last.tock ps t) : Completed run p.first (p :: ps) t

/-- The passes of a step: as many as were asked for, or fewer and then one that failed. -/
inductive Stepped [Behavior B σ] (run : Runner B σ) (n : Nat) (s : Session B σ)
    (completed : List (Pass B σ)) : Option (Pass B σ) → Except GraphError Unit → Session B σ → Prop where
  | whole {t : Session B σ} (h : Completed run s completed t) (hn : completed.length = n) :
    Stepped run n s completed none (.ok ()) t
  | broken {p : Pass B σ} {e : GraphError} (h : Completed run s completed p.first)
    (hn : completed.length < n) (hp : p.Scheduled run) (he : p.failure? = some e) :
    Stepped run n s completed (some p) (.error e) p.last

/-! ## From runs to turns -/

section Runs

variable [Behavior B σ] {run : Runner B σ}

namespace Engine

/-- Entering a node runs its behaviour if that is there, and does nothing if not. -/
theorem enter_started (id : NodeId) (task : Task) (s : Session B σ) :
    Ensures (enter run id task) s fun ending s' =>
      ending.isSome = (s.graph.behavior? id).isSome ∧ (ending = none → s' = s) := by
  cases hb : s.graph.behavior? id with
  | none =>
    intro ending s' hr
    rw [enter_busy hb] at hr
    cases hr
    exact ⟨rfl, fun _ => rfl⟩
  | some b => exact ensures_enter hb fun _ _ _ => ⟨rfl, nofun⟩

end Engine

omit [Behavior B σ] in
theorem Turn.failure?_eq (id : NodeId) (s s' : Session B σ) (ending : Option Ending) :
    (⟨id, s, ending, s'⟩ : Turn B σ).failure? = failureOf (Engine.verdict id ending) := by
  rcases ending with _ | (_ | _) <;> rfl

/-- A node that is to run always has a turn. -/
theorem exists_turn {s s' : Session B σ} {id : NodeId} {answer : Except GraphError Bool}
    (ha : Engine.isAlways s.graph id = true)
    (hr : Engine.runBody run id none s = some (answer, s')) :
    ∃ ending, (⟨id, s, ending, s'⟩ : Turn B σ).Fair run ∧
      (⟨id, s, ending, s'⟩ : Turn B σ).failure? = failureOf answer := by
  obtain ⟨n, hn, hmode⟩ := (Option.any_eq_true _ _).1 ha
  have hready : s.graph.ready id = n.canExecute := by
    unfold Graph.ready
    rw [hn]
    show (n.canExecute && decide (n.mode = .always)) = _
    rw [hmode, Bool.and_true]
  unfold Engine.runBody at hr
  rw [Engine.get_bind_apply, hn] at hr
  cases hx : n.canExecute with
  | false =>
    simp only [hx, Bool.false_eq_true, if_false] at hr
    cases hr
    refine ⟨none, ⟨?_, nofun, fun _ => rfl⟩, rfl⟩
    show false = (s.graph.ready id && _)
    rw [hready, hx, Bool.false_and]
  | true =>
    simp only [hx, if_true] at hr
    obtain ⟨⟨ending, t⟩, he, hv⟩ := Option.bind_eq_some_iff.1
      (show (Engine.enter run id (.execute none) s).bind _ = _ from hr)
    cases hv
    obtain ⟨hstarted, hidle⟩ := Engine.enter_started id (.execute none) s _ _ he
    refine ⟨ending, ⟨?_, fun e h => ?_, hidle⟩, Turn.failure?_eq ..⟩
    · show ending.isSome = (s.graph.ready id && _)
      rw [hready, hx, Bool.true_and]
      exact hstarted
    · rw [he, show ending = some e from h]

namespace Scan

variable {ids : List NodeId} {turns : List (Turn B σ)} {u : Turn B σ} {s' : Session B σ}

theorem none (s : Session B σ) : Scan run [] s [] s :=
  ⟨rfl, List.forall_mem_nil _, List.prefix_rfl, fun _ => rfl, fun earlier _ _ h _ => by
    cases earlier <;> cases h⟩

/-- One turn more, which did not fail. -/
theorem cons (hu : u.Fair run) (hok : u.failure? = .none) (h : Scan run ids u.after turns s') :
    Scan run (u.id :: ids) u.before (u :: turns) s' where
  joined := ⟨rfl, h.joined⟩
  fair := List.forall_mem_cons.2 ⟨hu, h.fair⟩
  listed := List.prefix_cons_inj u.id |>.2 h.listed
  complete hnone := by
    rw [List.findSome?_cons, hok] at hnone
    rw [List.map_cons, h.complete hnone]
  halts earlier t later he hf := by
    cases earlier with
    | nil =>
      cases he
      rw [hok] at hf
      cases hf
    | cons v earlier =>
      obtain ⟨-, he⟩ := List.cons.inj he
      exact h.halts earlier t later he hf

/-- The turn that fails is the last one. -/
theorem failed {e : GraphError} (hu : u.Fair run) (he : u.failure? = some e) (ids : List NodeId) :
    Scan run (u.id :: ids) u.before [u] u.after where
  joined := ⟨rfl, rfl⟩
  fair := List.forall_mem_singleton.2 hu
  listed := (List.prefix_cons_inj u.id).2 (List.nil_prefix ..)
  complete hnone := by
    rw [List.findSome?_cons, he] at hnone
    cases hnone
  halts earlier t later h _ := by
    cases earlier with
    | nil => exact (List.cons.inj h).2.symm
    | cons v earlier => cases earlier <;> cases (List.cons.inj h).2

end Scan

/-- A run through a list is a scan of it, and answers with the failure of the scan. -/
theorem exists_scan (ids : List NodeId) {s s' : Session B σ} {answer : Except GraphError Unit}
    (hr : Engine.runNodes run ids s = some (answer, s')) :
    ∃ turns, Scan run ids s turns s' ∧ turns.findSome? Turn.failure? = failureOf answer := by
  induction ids generalizing s with
  | nil =>
    cases hr
    exact ⟨[], .none _, rfl⟩
  | cons id ids ih =>
    cases ha : Engine.isAlways s.graph id with
    | false =>
      -- it is not the turn of a node that does not run always
      have hrest : Engine.runNodes run ids s = some (answer, s') := by
        unfold Engine.runNodes at hr
        rw [Engine.get_bind_apply] at hr
        simpa only [ha, Bool.false_eq_true, if_false] using hr
      obtain ⟨turns, hscan, hf⟩ := ih hrest
      have hfair : (⟨id, s, none, s⟩ : Turn B σ).Fair run := by
        refine ⟨?_, nofun, fun _ => rfl⟩
        show false = (s.graph.ready id && _)
        have hready : s.graph.ready id = false := by
          unfold Engine.isAlways at ha
          unfold Graph.ready
          cases hn : s.graph.nodes.get? id with
          | none => rfl
          | some n =>
            rw [hn] at ha
            show (n.canExecute && decide (n.mode = .always)) = false
            rw [show decide (n.mode = .always) = false from ha, Bool.and_false]
        rw [hready, Bool.false_and]
      exact ⟨_ :: turns, hscan.cons hfair rfl, hf⟩
    | true =>
      unfold Engine.runNodes at hr
      rw [Engine.get_bind_apply, if_pos ha] at hr
      obtain ⟨⟨ran, t⟩, hrun, hnext⟩ := Option.bind_eq_some_iff.1
        (show (Engine.runBody run id none s).bind _ = _ from hr)
      obtain ⟨ending, hfair, hfailure⟩ := exists_turn ha hrun
      cases ran with
      | error e =>
        cases hnext
        refine ⟨[_], .failed hfair hfailure ids, ?_⟩
        rw [List.findSome?_cons, hfailure]
        rfl
      | ok ran =>
        obtain ⟨turns, hscan, hf⟩ := ih hnext
        refine ⟨_ :: turns, hscan.cons hfair hfailure, ?_⟩
        rw [List.findSome?_cons, hfailure]
        exact hf

end Runs

/-! ## Along a history

What holds between the sessions before and after each turn holds between those before and after all
of them. -/

section Along

variable {R : Session B σ → Session B σ → Prop}

theorem Joins.along (hrefl : ∀ s, R s s) (htrans : ∀ {s t u}, R s t → R t u → R s u)
    {turns : List (Turn B σ)} {s s' : Session B σ} (hj : Joins s turns s')
    (h : ∀ t ∈ turns, R t.before t.after) : R s s' ∧ ∀ t ∈ turns, R s t.before := by
  induction turns generalizing s with
  | nil => exact ⟨hj ▸ hrefl s, List.forall_mem_nil _⟩
  | cons u turns ih =>
    obtain ⟨rfl, hj⟩ := hj
    obtain ⟨hu, h⟩ := List.forall_mem_cons.1 h
    obtain ⟨hlast, hrest⟩ := ih hj h
    exact ⟨htrans hu hlast, List.forall_mem_cons.2 ⟨hrefl _, fun t ht => htrans hu (hrest t ht)⟩⟩

end Along

section Fares

variable [Behavior B σ] {run : Runner B σ} {whole timed : Prop}
  (hrun : ∀ b id task s, Ensures (run (Behavior.body b id task)) s fun _ s' =>
    s.Fares whole timed s')
include hrun

theorem Turn.Fair.fares {t : Turn B σ} (ht : t.Fair run) : t.before.Fares whole timed t.after := by
  cases he : t.ending with
  | none => exact ht.idle he ▸ .refl _
  | some e => exact Engine.fares_enter hrun _ _ _ _ _ (ht.entered e he)

theorem Scan.fares {ids : List NodeId} {turns : List (Turn B σ)} {s s' : Session B σ}
    (h : Scan run ids s turns s') :
    s.Fares whole timed s' ∧ ∀ t ∈ turns, s.Fares whole timed t.before :=
  h.joined.along .refl .trans fun t ht => (h.fair t ht).fares hrun

theorem Turn.Fair.starts {t : Turn B σ} (ht : t.Fair run) :
    t.before.Starts (if t.ending.isSome then [t.id] else []) t.after := by
  cases he : t.ending with
  | none => exact ht.idle he ▸ .silent rfl
  | some e => exact Engine.starts_enter hrun _ _ _ _ _ (ht.entered e he)

theorem Scan.starts {ids : List NodeId} {turns : List (Turn B σ)} {s s' : Session B σ}
    (h : Scan run ids s turns s') :
    s.Starts (turns.filterMap fun t => t.ending.map fun _ => t.id) s' := by
  obtain ⟨hj, hfair⟩ : Joins s turns s' ∧ ∀ t ∈ turns, t.Fair run := ⟨h.joined, h.fair⟩
  clear h
  induction turns generalizing s with
  | nil => exact .silent (congrArg Session.events hj)
  | cons u turns ih =>
    obtain ⟨rfl, hj⟩ := hj
    obtain ⟨hu, hfair⟩ := List.forall_mem_cons.1 hfair
    have hone := hu.starts hrun
    have hrest := ih hj hfair
    rw [List.filterMap_cons]
    cases he : u.ending with
    | none =>
      rw [he] at hone
      exact hone.trans hrest
    | some e =>
      rw [he] at hone
      exact hone.trans hrest

end Fares

/-! ## Passes that follow one on the other -/

namespace Session

theorem starts_tock (s : Session B σ) : s.Starts [] s.tock :=
  .of_news ⟨[.passed], rfl, fun _ he => List.mem_singleton.1 he ▸ rfl⟩

theorem fares_tock {whole timed : Prop} (ht : ¬timed) (s : Session B σ) :
    s.Fares whole timed s.tock := by
  have hq : s.Quiet (fun _ => False) s.tock := .trans (.aside rfl) (.log rfl)
  exact .untimed ht hq id

end Session

section Steps

variable [Behavior B σ] {run : Runner B σ}

/-- The passes of a step are there, each with the turns that its list gives. -/
theorem exists_passes (hrun : ∀ b id task s, Ensures (run (Behavior.body b id task)) s fun _ s' =>
      s.Fares False False s') (n : Nat) {s t : Session B σ} {result : Except GraphError Unit}
    (ho : s.graph.executable.Nodup) (hr : Engine.runPasses run n s = some (result, t)) :
    ∃ completed broken, Stepped run n s completed broken result t := by
  induction n generalizing s with
  | zero =>
    cases hr
    exact ⟨[], none, .whole (.none _) rfl⟩
  | succ n ih =>
    obtain ⟨⟨answer, last⟩, hnodes, hnext⟩ := Option.bind_eq_some_iff.1
      (show (Engine.runNodes run s.graph.executable s).bind _ = _ from hr)
    obtain ⟨turns, hscan, hf⟩ := exists_scan _ hnodes
    let p : Pass B σ := ⟨s, turns, last⟩
    have hp : p.Scheduled run := ⟨hscan, ho⟩
    cases answer with
    | error e =>
      cases hnext
      exact ⟨[], some p, .broken (.none _) (Nat.succ_pos n) hp hf⟩
    | ok done =>
      have hlast : last.tock.graph.executable.Nodup := (hscan.fares hrun).1.once ho
      obtain ⟨completed, broken, hrest⟩ := ih hlast hnext
      refine ⟨p :: completed, broken, ?_⟩
      cases hrest with
      | whole h hn => exact .whole (.pass hp hf h) (congrArg Nat.succ hn)
      | broken h hn hp' he => exact .broken (.pass hp hf h) (Nat.succ_lt_succ hn) hp' he

variable {n : Nat} {s t : Session B σ} {completed : List (Pass B σ)} {broken : Option (Pass B σ)}
  {result : Except GraphError Unit}

section Any

variable (hrun : ∀ b id task s, Ensures (run (Behavior.body b id task)) s fun _ s' =>
  s.Fares False False s')
include hrun

theorem Completed.starts (h : Completed run s completed t) :
    s.Starts (completed.flatMap Pass.started) t := by
  induction h with
  | none s => exact .silent rfl
  | @pass p ps t hp _ _ ih =>
    have hone := (hp.toScan.starts hrun).trans p.last.starts_tock
    rw [List.append_nil] at hone
    exact hone.trans ih

/-- The events show that the nodes started in the turns were started, and no others from outside. -/
theorem Stepped.starts (h : Stepped run n s completed broken result t) :
    s.Starts ((completed ++ broken.toList).flatMap Pass.started) t := by
  cases h with
  | whole h hn =>
    rw [Option.toList_none, List.append_nil]
    exact h.starts hrun
  | @broken p e h hn hp he =>
    have hall := (h.starts hrun).trans (hp.toScan.starts hrun)
    rw [Option.toList_some, List.flatMap_append, List.flatMap_singleton]
    exact hall

end Any

section Whole

variable (hrun : ∀ b id task s, Ensures (run (Behavior.body b id task)) s fun _ s' =>
  s.Fares True False s')
include hrun

theorem Completed.fares (h : Completed run s completed t) :
    s.Fares True False t ∧ ∀ p ∈ completed, ∀ u ∈ p.turns, s.Fares True False u.before := by
  induction h with
  | none s => exact ⟨.refl s, List.forall_mem_nil _⟩
  | @pass p ps t hp _ _ ih =>
    obtain ⟨hlast, hturns⟩ := hp.toScan.fares hrun
    have htock : p.first.Fares True False p.last.tock := hlast.trans (p.last.fares_tock id)
    refine ⟨htock.trans ih.1, List.forall_mem_cons.2 ⟨hturns, fun q hq u hu => ?_⟩⟩
    exact htock.trans (ih.2 q hq u hu)

/-- Where every node has its behaviour, none is passed over for want of it: at no turn is a body
running. -/
theorem Stepped.due_eq_ready (h : Stepped run n s completed broken result t)
    (hs : ∀ i, s.graph.awaitsBehavior i = false) :
    ∀ p ∈ completed ++ broken.toList, ∀ u ∈ p.turns,
      u.before.graph.due u.id = u.before.graph.ready u.id := by
  have hall : ∀ p ∈ completed ++ broken.toList, ∀ u ∈ p.turns, s.Fares True False u.before := by
    cases h with
    | whole h hn =>
      rw [Option.toList_none, List.append_nil]
      exact (h.fares hrun).2
    | @broken p e h hn hp he =>
      obtain ⟨hfirst, hturns⟩ := h.fares hrun
      rw [Option.toList_some]
      refine List.forall_mem_append.2 ⟨hturns, List.forall_mem_singleton.2 fun u hu => ?_⟩
      exact hfirst.trans ((hp.toScan.fares hrun).2 u hu)
  intro p hp u hu
  have hmanned := (hall p hp u hu).manned trivial u.id
  rw [hs] at hmanned
  unfold Graph.due Graph.ready Graph.behavior?
  cases hn : u.before.graph.nodes.get? u.id with
  | none => rfl
  | some n =>
    have hb : n.behavior ≠ none := fun hb => nomatch hmanned (Graph.awaits_iff.2 ⟨n, hn, hb⟩)
    show ((_ && _) && n.behavior.isSome) = _
    rw [Option.isSome_iff_ne_none.2 hb, Bool.and_true]
    rfl

end Whole

section Timed

variable (hrun : ∀ b id task s, Ensures (run (Behavior.body b id task)) s fun _ s' =>
  s.Fares False True s')
include hrun

theorem Completed.clock (h : Completed run s completed t) :
    t.graph.iteration = s.graph.iteration ∧ t.graph.fixedTime = completed.foldl
      (fun time p => time + p.last.graph.settings.fixedTimeLapse.toFloat) s.graph.fixedTime := by
  induction h with
  | none s => exact ⟨rfl, rfl⟩
  | @pass p ps t hp _ _ ih =>
    obtain ⟨htime, hcount⟩ := (hp.toScan.fares hrun).1.clock trivial
    refine ⟨ih.1.trans hcount, ih.2.trans ?_⟩
    rw [List.foldl_cons, ← htime]
    rfl

/-- Each completed pass takes its lapse; a pass that is broken off takes none. -/
theorem Stepped.clock (h : Stepped run n s completed broken result t) :
    t.graph.iteration = s.graph.iteration ∧ t.graph.fixedTime = completed.foldl
      (fun time p => time + p.last.graph.settings.fixedTimeLapse.toFloat) s.graph.fixedTime := by
  cases h with
  | whole h hn => exact h.clock hrun
  | broken h hn hp he =>
    obtain ⟨hcount, htime⟩ := h.clock hrun
    obtain ⟨htime', hcount'⟩ := (hp.toScan.fares hrun).1.clock trivial
    exact ⟨hcount'.trans hcount, htime'.trans htime⟩

end Timed

end Steps

end Dataflow
