/-
  Terminals are known by their names.

  A terminal carries its name, and the graph knows it by one.  The edits that declare, rename, type
  and remove terminals change both together, and no other step of the engine touches terminals but
  the one that removes all (`Step.labelled`).  So whatever path of steps a run takes, every terminal
  has the name that it is known by, in every graph on the way (`Path.labelled`).
-/

import Dataflow.Proofs.Terminals
import Dataflow.Proofs.Strokes

namespace Dataflow

variable {B σ : Type}

namespace Graph

/-- Every terminal has the name that it is known by. -/
def Labelled (g : Graph B) : Prop := ∀ d x t, (g.terminals d).get? x = some t → t.name = x

theorem labelled_empty (r : Registry B) (settings : Settings) : (Graph.empty r settings).Labelled := by
  intro d x t ht
  cases d <;> cases ht

theorem Labelled.of_terminals {g g' : Graph B} (hg : g.Labelled)
    (h : ∀ d, g'.terminals d = g.terminals d) : g'.Labelled := by
  intro d x t ht
  rw [h] at ht
  exact hg d x t ht

theorem Labelled.of_shore {g g' : Graph B} (hg : g.Labelled) (h : g'.shore = g.shore) :
    g'.Labelled := hg.of_terminals (terminals_of_shore h)

theorem Labelled.withTerminals {g : Graph B} (hg : g.Labelled) {d : Direction}
    {ts : Assoc String Terminal} (h : ∀ x t, ts.get? x = some t → t.name = x) :
    (g.withTerminals d ts).Labelled := by
  intro d' x t ht
  by_cases hd : d = d'
  · subst hd
    rw [terminals_withTerminals] at ht
    exact h x t ht
  · rw [terminals_withTerminals_of_ne _ _ hd] at ht
    exact hg d' x t ht

end Graph

/-! ## Edits of terminals -/

namespace Session

variable (s : Session B σ) {d : Direction} (hs : s.graph.Labelled)
include hs

theorem labelled_setTerminals {ts : Assoc String Terminal} {events : List (Event B)}
    (h : ∀ x t, ts.get? x = some t → t.name = x) : (s.setTerminals d ts events).graph.Labelled :=
  (hs.withTerminals (d := d) h).of_shore rfl

/-- A terminal is put under its own name. -/
theorem labelled_insert {t : Terminal} {events : List (Event B)} :
    (s.setTerminals d ((s.graph.terminals d).insert t.name t) events).graph.Labelled := by
  refine s.labelled_setTerminals hs fun x t' ht => ?_
  rw [Assoc.get?_insert] at ht
  split at ht
  · next hx =>
    cases ht
    exact hx.symm
  · exact hs d x t' ht

theorem labelled_setTerminalValue (name : String) (value : Value) :
    (s.setTerminalValue d name value).2.graph.Labelled := by
  refine hs.withTerminals fun x t ht => ?_
  obtain ⟨-, hold⟩ | ⟨rfl, t, hold, rfl⟩ := Assoc.exists_of_get?_modify ht
  · exact hs d x t hold
  · exact hs d x t hold

theorem labelled_renameTerminal (old new : String) :
    (s.renameTerminal d old new).2.graph.Labelled := by
  unfold renameTerminal
  simp only
  split
  · refine s.labelled_setTerminals hs fun x t ht => ?_
    rw [Assoc.get?_rekey] at ht
    split at ht
    · exact hs d x t ht
    · split at ht
      · next hx =>
        obtain ⟨t, -, rfl⟩ := Option.map_eq_some_iff.1 ht
        exact hx.symm
      · split at ht
        · cases ht
        · exact hs d x t ht
  · exact hs

theorem labelled_retypeTerminal (name : String) (type : SlotType) :
    (s.retypeTerminal d name type).2.graph.Labelled := by
  unfold retypeTerminal
  simp only
  split
  · next t ht =>
    split
    · exact hs
    · obtain rfl : t.name = name := hs d name t ht
      exact s.labelled_insert hs (t := { t with type })
  · exact hs

theorem labelled_removeTerminal (name : String) :
    (s.removeTerminal d name).2.graph.Labelled := by
  unfold removeTerminal
  simp only
  split
  · exact s.labelled_setTerminals hs fun x t ht => hs d x t (Assoc.get?_of_get?_erase ht)
  · exact hs

theorem labelled_apply [Kind B] (e : Edit) : (e.apply s).2.graph.Labelled := by
  cases e with
  | clear =>
    intro d x t ht
    cases d <;> cases ht
  | addTerminal d name type value => exact s.labelled_insert hs (t := ⟨name, type, value⟩)
  | setTerminalValue d name value => exact s.labelled_setTerminalValue hs name value
  | renameTerminal d old new => exact s.labelled_renameTerminal hs old new
  | retypeTerminal d name type => exact s.labelled_retypeTerminal hs name type
  | removeTerminal d name => exact s.labelled_removeTerminal hs name
  | _ => exact hs.of_shore (s.shore_apply trivial)

end Session

/-! ## Paths -/

namespace Graph

variable [Kind B] {g g' : Graph B}

theorem Step.labelled {stroke : Stroke} (h : Step g stroke g') (hg : g.Labelled) :
    g'.Labelled := by
  cases h with
  | edited s e => exact s.labelled_apply hg e
  | told s id notice => exact hg.of_shore (s.shore_tell id notice)
  | merged g nodes records r =>
    refine hg.of_shore ?_
    rw [shore_mergeLinks, shore_mergeLinks]
  | adopted s table id r =>
    refine hg.of_shore ?_
    unfold Session.adopt
    split <;> rfl
  | repaired g pruned => exact hg.of_shore (g.shore_repair pruned)
  | placed g n =>
    refine hg.of_shore ?_
    rfl
  | _ => exact hg.of_shore rfl

/-- Whatever path of steps a graph takes, every terminal has the name that it is known by, in every
graph on the way. -/
theorem Path.labelled {c : List (Moment B)} (h : Path g c g') (hg : g.Labelled) :
    ∀ m ∈ c, m.graph.Labelled := by
  induction c generalizing g with
  | nil => exact fun m hm => nomatch hm
  | cons m c ih =>
    have hm := h.1.labelled hg
    exact List.forall_mem_cons.2 ⟨hm, ih h.2 hm⟩

end Graph

end Dataflow
