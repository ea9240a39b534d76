/-
  Graphs that grow from nodes of their registry.

  A session grows from an empty graph when it is edited, stepped, and loaded into; the nodes that
  are added to it are made by the registry, or were handed out before by the graph itself.  One call
  keeps such a graph sound and its nodes faithful (`sound_perform`), so it always is and they always
  are (`Grown.sound`).

  Then what is recorded of it can be loaded in the place of any graph that has the same types and
  enough room, and comes back as it was.
-/

import Dataflow.Proofs.Agreement
import Dataflow.Proofs.Restoring

namespace Dataflow

/-! ## The registry of the standard nodes -/

/-- A type that is found was registered under the name, or was there before. -/
theorem Registry.mem_of_registerAll {B : Type} {ts : List (NodeType B)} {r : Registry B}
    {name : String} {t : NodeType B} (h : (ts.foldl Registry.register r).get? name = some t) :
    t ∈ ts ∨ r.get? name = some t := by
  induction ts generalizing r with
  | nil => exact .inr h
  | cons t' ts ih =>
    rcases ih h with hm | hr
    · exact .inl (List.mem_cons_of_mem t' hm)
    · have he : (r.register t').get? name = if name = t'.id then some t' else r.get? name :=
        Assoc.get?_insert ..
      rw [he] at hr
      split at hr
      · cases hr
        exact .inl (List.mem_cons_self ..)
      · exact .inr hr

namespace Catalog

theorem keyed_registry : (registry id : Registry Catalog).Keyed :=
  Registry.Keyed.registerAll fun _ _ h => by cases h

/-- Bridges of the catalog have a name from the start. -/
theorem named_registry : (registry id : Registry Catalog).Named := by
  have ht : ∀ t ∈ (types id : List (NodeType Catalog)),
      ¬t.behavior.IsTame → "name" ∈ t.initialProperties.keys := of_decide_eq_true rfl
  intro name t h
  rcases Registry.mem_of_registerAll h with hm | hr
  · exact ht t hm
  · cases hr

end Catalog

/-! ## Calls -/

/-- What is asked of a call so that nodes stay as their registry makes them.  Stand-ins keep their
slots and their priority, nodes that are added are among those at hand, and a snapshot repeats no
link within one output. -/
def Call.Fits (g : Graph Catalog) (held : List (Node Catalog)) : Call Catalog → Prop
  | .edit e => ∀ id n, g.nodes.get? id = some n → n.standsFor.isSome = true → ¬e.Reshapes id
  | .add n => n ∈ held
  | .load snapshot _ => snapshot.Plain
  | _ => True

/-- The node that a call hands out, if it does. -/
def Call.handed {B : Type} : (c : Call B) → c.Answer → Option (Node B)
  | .edit (.remove _), taken => taken
  | .edit (.cloneNode _), copy => copy
  | _, _ => none

/-- A node may be added to graphs over given types, and will be recorded in full. -/
structure Node.Sane (r : Registry Catalog) (n : Node Catalog) : Prop where
  loose : n.Loose
  faithful : n.Faithful r

variable {r : Registry Catalog} {held : List (Node Catalog)}

theorem Edit.sane_handed (hkeyed : r.Keyed) (hfresh : r.Fresh) {s : Session Catalog Unit}
    (hs : s.graph.Sound r) (hf : s.graph.Faithful r) (e : Edit) :
    ∀ n ∈ (Call.edit e).handed (e.apply s).1, n.Sane r := by
  cases e with
  | remove id =>
    intro n hn
    exact ⟨(Session.upkeep_remove (Graph.upkeep_sound r) hs id).2 n hn, faithful_removed hf id n hn⟩
  | cloneNode id =>
    intro n hn
    obtain ⟨m, -, rfl⟩ := Session.exists_of_cloneNode hn
    rw [hs.registry]
    exact ⟨hfresh.loose_copy m, Node.faithful_copy hkeyed m⟩
  | _ => exact fun n hn => nomatch hn

namespace Engine

/-- One call keeps a graph sound and its nodes faithful, and so are the nodes that it hands out.
The counter for links must not run over. -/
theorem sound_perform (hkeyed : r.Keyed) (hfresh : r.Fresh) {s : Session Catalog Unit}
    (hs : s.graph.Sound r) (hf : s.graph.Faithful r) (hheld : ∀ n ∈ held, n.Sane r) {c : Call Catalog}
    (hc : c.Fits s.graph held) (depth : Nat) : Ensures (perform (runner depth) c) s fun a s' =>
      s'.graph.nextLink ≤ idLimit →
        s'.graph.Sound r ∧ s'.graph.Faithful r ∧ ∀ n ∈ c.handed a, n.Sane r := by
  have hnone : ∀ n ∈ (none : Option (Node Catalog)), n.Sane r := fun n hn => nomatch hn
  cases c with
  | edit e =>
    apply Ensures.total
    intro hcount
    have hbelow : s.graph.nextLink < (e.apply s).2.graph.nextLink → s.graph.LinksBelow :=
      fun h => hs.linksBelow (Nat.lt_of_lt_of_le h hcount)
    exact ⟨e.upkeep_apply (Graph.upkeep_sound r) hs hbelow, e.faithful_apply hf hc,
      e.sane_handed hkeyed hfresh hs hf⟩
  | add n =>
    have hn := hheld n hc
    refine (insertNode_trails depth n true s).mono ?_
    rintro answer s' (⟨-, rfl⟩ | ⟨-, ht⟩) -
    · exact ⟨hs, hf, hnone⟩
    · have hplaced := hs.place hn.loose.inputs hn.loose.outputs (s.graph.claimNode_fresh n.id)
      refine ⟨hplaced.of_wiring ht.wiring, fun i n' hn' => ?_, hnone⟩
      rcases node_of_trails ht hn' with ⟨-, pos, hl⟩ | ⟨-, m, hm, hl⟩
      · exact (hn.faithful.placed (some i) pos).follows hl
      · exact (hf i m hm).follows hl
  | load snapshot keepOld =>
    refine (load_sound hkeyed hfresh depth hc keepOld hs.registry fun _ => ⟨hs, hf⟩).mono ?_
    exact fun _ s' h _ => ⟨h.1, h.2.1, hnone⟩
  | _ =>
    refine (trails_perform depth (by trivial) s).mono fun _ s' ht _ =>
      ⟨hs.of_wiring ht.wiring, fun i n' hn' => ?_, hnone⟩
    obtain ⟨m, hm, hl⟩ := ht.nodes i n' hn'
    exact (hf i m hm).follows hl

end Engine

/-! ## Sessions -/

/-- A session grows from an empty graph, with some nodes at hand that may be added to it: nodes made
by the registry, and nodes that the graph handed out.  The counter for links has 32 bits, and no call
can take it beyond. -/
inductive Grown (r : Registry Catalog) : Session Catalog Unit → List (Node Catalog) → Prop where
  | start (settings : Settings) (events : List (Event Catalog)) :
    Grown r ⟨Graph.empty r settings, events, ()⟩ []
  | create {s : Session Catalog Unit} {held : List (Node Catalog)} (type : String)
    (title : Option String) (hs : Grown r s held) :
    Grown r s (r.createOrStandIn type title :: held)
  | call {s s' : Session Catalog Unit} {held : List (Node Catalog)} {c : Call Catalog} {a : c.Answer}
    (depth : Nat) (hs : Grown r s held) (hc : c.Fits s.graph held)
    (hr : Engine.perform (Engine.runner depth) c s = some (a, s'))
    (hcount : s'.graph.nextLink ≤ idLimit) : Grown r s' ((c.handed a).toList ++ held)
  | aside {s : Session Catalog Unit} {held : List (Node Catalog)} (events : List (Event Catalog))
    (hs : Grown r s held) : Grown r { s with events } held

theorem Grown.sound (hkeyed : r.Keyed) (hfresh : r.Fresh) {s : Session Catalog Unit}
    (h : Grown r s held) :
    s.graph.Sound r ∧ s.graph.Faithful r ∧ ∀ n ∈ held, n.Sane r := by
  induction h with
  | start settings events =>
    exact ⟨Graph.sound_empty r settings, fun id n hn => (nomatch hn), fun n hn => (nomatch hn)⟩
  | create type title _ ih =>
    obtain ⟨hs, hf, hheld⟩ := ih
    refine ⟨hs, hf, fun n hn => ?_⟩
    rcases List.mem_cons.1 hn with rfl | hn
    · exact ⟨Registry.loose_createOrStandIn (hfresh type) title,
        Registry.faithful_createOrStandIn hkeyed type title⟩
    · exact hheld n hn
  | call depth _ hc hr hcount ih =>
    obtain ⟨hs, hf, hheld⟩ := ih
    obtain ⟨hs', hf', hhanded⟩ :=
      Engine.sound_perform hkeyed hfresh hs hf hheld hc depth _ _ hr hcount
    refine ⟨hs', hf', fun n hn => ?_⟩
    rcases List.mem_append.1 hn with hn | hn
    · exact hhanded n (Option.mem_toList.1 hn)
    · exact hheld n hn
  | aside events _ ih => exact ih

/-! ## Recording and loading -/

/-- A snapshot with faults: a node of a type that nobody knows names a link that is not there, and
one of two links leads to a node that was not recorded. -/
def faultySnapshot : Snapshot :=
  let ghost : NodeRecord :=
    { NodeRecord.new "ghost" with
      id := some ⟨1⟩, inputs := some [⟨"in", .any, some ⟨5⟩, none⟩] }
  let shown : NodeRecord :=
    { NodeRecord.new "basic/watch" with
      id := some ⟨2⟩, inputs := some [⟨"value", .any, some ⟨7⟩, none⟩] }
  let number : NodeRecord :=
    { NodeRecord.new "basic/const_number" with
      id := some ⟨3⟩, outputs := some [⟨"value", .any, [⟨7⟩], none, none⟩] }
  { nextNode := 1, nextLink := 1, nodes := [ghost, shown, number]
    links := [⟨⟨7⟩, ⟨3⟩, 0, ⟨2⟩, 0, .any⟩, ⟨⟨8⟩, ⟨3⟩, 0, ⟨9⟩, 0, .any⟩]
    groups := [], config := ∅ }

end Dataflow
