/-
  Edits do not ask for the cached order.

  Two sessions are `Abreast` when they differ in the schedule of their graphs only.  Whatever is done
  to both of them leaves them abreast, and answers the same: a step of one session is matched by the
  same step of the other, however many batches are open in either (`Edit.Matched`).  Steps that leave
  the schedule alone do the same under every schedule; the others may bring the order up to date in
  one session and not in the other, but that is a matter of the schedule again.

  How many batches are open is part of being abreast, so it is known after every step.
-/

import Dataflow.Proofs.Schedule

namespace Dataflow

variable {B σ α : Type}

namespace Session

/-! ## Sessions under a schedule -/

/-- The session with another schedule of its graph. -/
def under (s : Session B σ) (c : Schedule) : Session B σ := s.edit (·.under c)

/-- Changes that agree on the graph agree on the session. -/
theorem edit_congr {s : Session B σ} {f u : Graph B → Graph B} (h : f s.graph = u s.graph) :
    s.edit f = s.edit u :=
  congrArg (fun g : Graph B => (⟨g, s.events, s.host⟩ : Session B σ)) h

theorem edit_under {s : Session B σ} {c : Schedule} {f f' : Graph B → Graph B}
    (h : f' (s.graph.under c) = (f s.graph).under c) : (s.under c).edit f' = (s.edit f).under c :=
  congrArg (fun g : Graph B => (⟨g, s.events, s.host⟩ : Session B σ)) h

theorem restructure_under {s : Session B σ} {c : Schedule} {f f' : Graph B → Graph B}
    (h : f' (s.graph.under c) = (f s.graph).under c) :
    (s.under c).restructure f' = (s.restructure f).under c := by
  have he : (s.under c).edit (fun g => (f' g).bump) = (s.edit fun g => (f g).bump).under c :=
    edit_under (congrArg Graph.bump h)
  exact congrArg changed he

/-- The answer of a step, and the session after it with another schedule. -/
def rescheduled (c : Schedule) (r : α × Session B σ) : α × Session B σ := (r.1, r.2.under c)

theorem foldl_under {ι : Type} {c : Schedule} {f : Session B σ → ι → Session B σ}
    (h : ∀ s i, f (s.under c) i = (f s i).under c) (is : List ι) (s : Session B σ) :
    is.foldl f (s.under c) = (is.foldl f s).under c :=
  List.foldl_hom (fun s : Session B σ => s.under c) h

/-! ## Steps that leave the schedule alone -/

variable (s : Session B σ) (c : Schedule)

theorem get?_under (id : NodeId) : (s.under c).graph.nodes.get? id =
    (s.graph.nodes.get? id).map (Node.noting (c.place id)) := s.graph.get?_under c id

theorem contains_under (id : NodeId) :
    (s.under c).graph.nodes.contains id = s.graph.nodes.contains id := s.graph.contains_under c id

theorem storeProperty_under (id : NodeId) (name : String) (value : Value) :
    (s.under c).storeProperty id name value = (s.storeProperty id name value).under c := by
  unfold storeProperty
  rw [contains_under]
  split
  · exact restructure_under (Graph.modifyNode_under rfl fun _ _ => rfl)
  · rfl

theorem addInput_under (id : NodeId) (name : String) (type : SlotType) :
    (s.under c).addInput id name type = rescheduled c (s.addInput id name type) := by
  unfold addInput
  rw [get?_under]
  cases s.graph.nodes.get? id with
  | none => rfl
  | some n =>
    exact congrArg (Prod.mk _) (restructure_under (Graph.modifyNode_under rfl fun _ _ => rfl))

theorem addOutput_under (id : NodeId) (name : String) (type : SlotType) :
    (s.under c).addOutput id name type = rescheduled c (s.addOutput id name type) := by
  unfold addOutput
  rw [get?_under]
  cases s.graph.nodes.get? id with
  | none => rfl
  | some n =>
    exact congrArg (Prod.mk _) (restructure_under (Graph.modifyNode_under rfl fun _ _ => rfl))

theorem setTerminals_under (d : Direction) (ts : Assoc String Terminal) (es : List (Event B)) :
    (s.under c).setTerminals d ts es = (s.setTerminals d ts es).under c := by
  have he : (s.under c).edit (fun g => (g.withTerminals d ts).bump) =
      (s.edit fun g => (g.withTerminals d ts).bump).under c :=
    edit_under (congrArg Graph.bump (s.graph.withTerminals_under c d ts))
  unfold setTerminals
  rw [he]
  rfl

theorem terminals_under (d : Direction) :
    (s.under c).graph.terminals d = s.graph.terminals d := s.graph.terminals_under c d

theorem setTerminalValue_under (d : Direction) (name : String) (value : Value) :
    (s.under c).setTerminalValue d name value =
      rescheduled c (s.setTerminalValue d name value) := by
  cases d <;> rfl

theorem renameTerminal_under (d : Direction) (old new : String) :
    (s.under c).renameTerminal d old new = rescheduled c (s.renameTerminal d old new) := by
  unfold renameTerminal
  simp only [terminals_under]
  split
  · exact congrArg (Prod.mk true) (s.setTerminals_under c d _ _)
  · rfl

theorem retypeTerminal_under (d : Direction) (name : String) (type : SlotType) :
    (s.under c).retypeTerminal d name type = rescheduled c (s.retypeTerminal d name type) := by
  unfold retypeTerminal
  simp only [terminals_under]
  cases (s.graph.terminals d).get? name with
  | none => rfl
  | some t =>
    dsimp only
    split
    · rfl
    · exact congrArg (Prod.mk true) (s.setTerminals_under c d _ _)

theorem removeTerminal_under (d : Direction) (name : String) :
    (s.under c).removeTerminal d name = rescheduled c (s.removeTerminal d name) := by
  unfold removeTerminal
  simp only [terminals_under]
  split
  · exact congrArg (Prod.mk true) (s.setTerminals_under c d _ _)
  · rfl

section Kind

variable [Kind B]

theorem tell_under (id : NodeId) (notice : Notice) :
    (s.under c).tell id notice = (s.tell id notice).under c := by
  unfold tell
  rw [get?_under]
  cases hn : s.graph.nodes.get? id with
  | none => rfl
  | some n =>
    have he : (s.under c).edit (·.modifyNode id fun _ => ((n.tell notice).1).noting (c.place id)) =
        (s.edit (·.modifyNode id fun _ => (n.tell notice).1)).under c :=
      edit_under (Graph.modifyNode_under rfl fun _ _ => rfl)
    simp only [Option.map_some, Node.tell_noting, Prod.map_fst, Prod.map_snd]
    exact congrArg (·.logAll (n.tell notice).2) he

theorem tellAll_under (ids : List NodeId) (notice : Notice) :
    (s.under c).tellAll ids notice = (s.tellAll ids notice).under c :=
  foldl_under (fun s id => s.tell_under c id notice) ids s

theorem tellEvery_under (notice : Notice) : (s.under c).tellAll (s.under c).graph.nodes.keys notice =
    (s.tellAll s.graph.nodes.keys notice).under c := by
  rw [tellAll_under, show (s.under c).graph.nodes.keys = _ from s.graph.keys_under c]

theorem tellEnd_under (d : Direction) (id : NodeId) (slot : Nat) (connected : Bool) (link : Link) :
    (s.under c).tellEnd d id slot connected link =
      (s.tellEnd d id slot connected link).under c := by
  unfold tellEnd
  rw [show (s.under c).graph.slotName? d id slot = _ from s.graph.slotName?_under c d id slot]
  split
  · exact s.tell_under c id _
  · rfl

theorem announce_under (link : Link) (connected : Bool) :
    (s.under c).announce link connected = (s.announce link connected).under c := by
  unfold announce
  simp only [tellEnd_under]
  rfl

theorem start_under : (s.under c).start = s.start.under c := by
  show (if s.graph.running then _ else _) = _
  unfold start
  split
  · rfl
  · exact tellEvery_under ((s.edit fun g => { g with running := true }).log .started) c .started

theorem stop_under : (s.under c).stop = s.stop.under c := by
  show (if s.graph.running then _ else _) = _
  unfold stop
  split
  · exact tellEvery_under ((s.edit fun g => { g with running := false }).log .stopped) c .stopped
  · rfl

theorem setProperty_under (id : NodeId) (name : String) (value : Value) :
    (s.under c).setProperty id name value = rescheduled c (s.setProperty id name value) := by
  unfold setProperty
  rw [contains_under, show (s.under c).graph.behavior? id = _ from s.graph.behavior?_under c id]
  split
  · simp only [tell_under, storeProperty_under]
    rw [← apply_ite (Session.under · c)]
    rfl
  · rfl

theorem cloneNode_under (id : NodeId) :
    (s.under c).cloneNode id = rescheduled c (s.cloneNode id) := by
  unfold cloneNode
  rw [get?_under]
  cases s.graph.nodes.get? id <;> rfl

/-! ### Loaded nodes -/

theorem adopt_under (table : Renaming LinkId) (id : NodeId) (r : NodeRecord) :
    (s.under c).adopt table id r = rescheduled c (s.adopt table id r) := by
  unfold adopt
  rw [get?_under]
  cases s.graph.nodes.get? id with
  | none => rfl
  | some n =>
    let known (_ : Direction) (_ : Nat) (l : LinkId) : Option LinkId := table.get? l
    have he : (s.under c).edit (·.modifyNode id fun _ =>
          ((n.applyRecord r).1.noting (c.place id)).relink known) =
        (s.edit (·.modifyNode id fun _ => (n.applyRecord r).1.relink known)).under c :=
      edit_under (Graph.modifyNode_under rfl fun _ _ => rfl)
    simp only [Option.map_some, Node.applyRecord_noting, Prod.map_fst, Prod.map_snd]
    exact congrArg (fun t : Session B σ => (_, t.logAll _)) he

theorem adoptAll_under (table : Renaming LinkId) (placed : List (NodeId × NodeRecord)) :
    (s.under c).adoptAll table placed = rescheduled c (s.adoptAll table placed) := by
  have hnext : ∀ (r : Bool × Session B σ) (e : NodeId × NodeRecord),
      adoptNext table (rescheduled c r) e = rescheduled c (adoptNext table r e) := by
    intro r e
    show (_ || ((r.2.under c).adopt _ _ _).1, ((r.2.under c).adopt _ _ _).2) = _
    rw [r.2.adopt_under]
    rfl
  have hfold : ∀ r : Bool × Session B σ, placed.foldl (adoptNext table) (rescheduled c r) =
      rescheduled c (placed.foldl (adoptNext table) r) := fun r => List.foldl_hom (rescheduled c) hnext
  exact hfold (false, s)

theorem introduce_under (id : NodeId) (r : NodeRecord) :
    (s.under c).introduce id r = (s.introduce id r).under c := by
  have hl : (((s.under c).graph.nodes.get? id).map (s.under c).graph.slotLinks).getD [] =
      ((s.graph.nodes.get? id).map s.graph.slotLinks).getD [] := by
    rw [get?_under]
    cases s.graph.nodes.get? id <;> rfl
  have hends : ∀ (links : List (Direction × Nat × Link)) (s : Session B σ), links.foldl
      (fun s e => s.tellEnd e.1 id e.2.1 true e.2.2) (s.under c) =
        (links.foldl (fun s e => s.tellEnd e.1 id e.2.1 true e.2.2) s).under c :=
    foldl_under fun s _ => s.tellEnd_under c ..
  unfold introduce
  simp only [hl, hends, tell_under]

/-- A load, up to the point where behaviours have been told what was loaded. -/
def takeIn (s : Session B σ) (snapshot : Snapshot) (placed : List (NodeId × NodeRecord))
    (nodes : Renaming NodeId) (report : LoadReport) : LoadReport × Session B σ :=
  let load := s.graph.mergeLinks nodes snapshot.links
  let (lost, s) := (s.edit fun _ => { load.graph with
    nextLink := max load.graph.nextLink snapshot.nextLink }).adoptAll load.table placed
  let repair := s.graph.repair (report.prunedLinks ++ load.pruned)
  ({ report with
      hadErrors := report.hadErrors || !load.pruned.isEmpty || lost || repair.repaired
      prunedLinks := repair.pruned },
    placed.foldl (fun s e => s.introduce e.1 e.2) (s.edit fun _ => repair.graph))

theorem takeIn_under (snapshot : Snapshot) (placed : List (NodeId × NodeRecord))
    (nodes : Renaming NodeId) (report : LoadReport) :
    (s.under c).takeIn snapshot placed nodes report =
      rescheduled c (s.takeIn snapshot placed nodes report) := by
  have hload : (s.under c).graph.mergeLinks nodes snapshot.links = _ :=
    s.graph.mergeLinks_under c nodes snapshot.links
  have hmerged : ∀ load : LinkLoad B, (s.under c).edit (fun _ => { (load.under c).graph with
      nextLink := max (load.under c).graph.nextLink snapshot.nextLink }) =
        (s.edit fun _ => { load.graph with
          nextLink := max load.graph.nextLink snapshot.nextLink }).under c := fun _ => rfl
  have hrepair : ∀ (s : Session B σ) (pruned : List LinkId),
      (s.under c).graph.repair pruned = (s.graph.repair pruned).under c :=
    fun s pruned => s.graph.repair_under c pruned
  have hrepaired : ∀ (s : Session B σ) (r : Graph.Repair B),
      ((s.under c).edit fun _ => (r.under c).graph) = (s.edit fun _ => r.graph).under c :=
    fun _ _ => rfl
  have hintroduce : ∀ s : Session B σ, placed.foldl (fun s e => s.introduce e.1 e.2) (s.under c) =
      (placed.foldl (fun s e => s.introduce e.1 e.2) s).under c :=
    foldl_under (fun s e => s.introduce_under c e.1 e.2) placed
  have htable : ∀ load : LinkLoad B, (load.under c).table = load.table := fun _ => rfl
  unfold takeIn
  simp only [hload, hmerged, htable, adoptAll_under, rescheduled, hrepair, hrepaired, hintroduce]
  rfl

end Kind

end Session

/-! ### Edits that leave the schedule alone -/

namespace Edit

theorem silent_under {s : Session B σ} {c : Schedule} {f f' : Graph B → Graph B}
    (h : f' (s.graph.under c) = (f s.graph).under c) :
    (((), (s.under c).edit f') : Unit × Session B σ) = Session.rescheduled c ((), s.edit f) :=
  congrArg (Prod.mk ()) (Session.edit_under h)

/-- An edit that leaves the skeleton alone does the same under every schedule. -/
theorem apply_under [Kind B] {e : Edit} (h : e.light = true) (s : Session B σ) (c : Schedule) :
    e.apply (s.under c) = Session.rescheduled c (e.apply s) := by
  cases e with
  | renameSlot d id slot name =>
    exact silent_under (Graph.modifyNode_under rfl fun _ _ => by cases d <;> rfl)
  | setProperty id name value => exact s.setProperty_under c id name value
  | storeProperty id name value => exact congrArg (Prod.mk ()) (s.storeProperty_under c id name value)
  | declareProperty id info =>
    refine congrArg₂ Prod.mk (s.contains_under c id) (Session.edit_under ?_)
    exact Graph.modifyNode_under rfl fun _ _ => rfl
  | align id grid =>
    refine silent_under (Graph.modifyNode_under rfl fun n _ => ?_)
    unfold Node.alignToGrid
    split <;> rfl
  | setOutputData id slot value =>
    refine congrArg₂ Prod.mk ?_ (Session.edit_under (s.graph.setOutputData_under c id slot value))
    exact congrArg Option.isSome (s.graph.output?_under c id slot)
  | clearTriggered id slot only => exact silent_under (s.graph.clearTriggered_under c id slot only)
  | clearAllTriggered => rfl
  | addGroup group => rfl
  | removeGroup i =>
    have hg : takeGroup (s.under c).graph.groups i = takeGroup s.graph.groups i := rfl
    unfold apply
    simp only [hg]
    cases takeGroup s.graph.groups i <;> rfl
  | arrange margin =>
    exact congrArg (Prod.mk ()) (Session.restructure_under (s.graph.arrange_under c margin))
  | start => exact congrArg (Prod.mk ()) (s.start_under c)
  | stop => exact congrArg (Prod.mk ()) (s.stop_under c)
  | addTerminal d name type value =>
    have hs := s.setTerminals_under c d ((s.graph.terminals d).insert name ⟨name, type, value⟩)
      [.terminalAdded d name type, .terminalsChanged]
    rw [← s.terminals_under c d] at hs
    exact congrArg (Prod.mk ()) hs
  | setTerminalValue d name value => exact s.setTerminalValue_under c d name value
  | renameTerminal d old new => exact s.renameTerminal_under c d old new
  | retypeTerminal d name type => exact s.retypeTerminal_under c d name type
  | removeTerminal d name => exact s.removeTerminal_under c d name
  | setConfig key value => rfl
  | removeConfig key => rfl
  | setSettings settings => rfl
  | cloneNode id => exact s.cloneNode_under c id
  | _ => cases h

end Edit

/-! ## Two sessions abreast -/

/-- Two nodes are the same but for the place noted in them. -/
def Node.Renumbered (n n' : Node B) : Prop := n' = n.noting n'.order

theorem Node.renumbered_refl (n : Node B) : n.Renumbered n := rfl

theorem Node.renumbered_noting (n : Node B) (k : Nat) : n.Renumbered (n.noting k) := rfl

namespace Session

/-- Two sessions differ in the schedule only, and have `j` and `k` batches open. -/
structure Abreast (j k : Nat) (s t : Session B σ) : Prop where
  left : s.graph.batchDepth = j
  right : t.graph.batchDepth = k
  under : ∃ c, t = s.under c

/-- Two steps answered what belongs together, and left their sessions abreast. -/
structure Matched {β : Type} (R : α → β → Prop) (j k : Nat) (r : α × Session B σ)
    (r' : β × Session B σ) : Prop where
  answer : R r.1 r'.1
  after : Abreast j k r.2 r'.2

/-- A session differs from another in the schedule only, and has `k` batches open. -/
def Rescheduled (k : Nat) (s t : Session B σ) : Prop := ∃ c, c.batchDepth = k ∧ t = s.under c

theorem under_schedule (s : Session B σ) : s.under s.graph.schedule = s :=
  edit_congr (u := fun g => g) s.graph.under_schedule

theorem under_under (s : Session B σ) (c d : Schedule) : (s.under c).under d = s.under d :=
  edit_congr (f := fun g => (g.under c).under d) (s.graph.under_under c d)

section Schedule

variable (s : Session B σ)

theorem rescheduled_batches (f : Nat → Nat) :
    Rescheduled (f s.graph.batchDepth) s (s.edit fun g => { g with batchDepth := f g.batchDepth }) := by
  refine ⟨⟨s.graph.schedule.place, s.graph.order, s.graph.executable, s.graph.stale, _⟩, rfl, ?_⟩
  exact (edit_congr (s.graph.under_places _ _ _ _)).symm

theorem rescheduled_markStale : Rescheduled s.graph.batchDepth s s.markStale := by
  refine ⟨⟨s.graph.schedule.place, s.graph.order, s.graph.executable, true, _⟩, rfl, ?_⟩
  exact (edit_congr (s.graph.under_places _ _ _ _)).symm

theorem rescheduled_updateOrder :
    Rescheduled s.graph.batchDepth s (s.edit Graph.updateOrder) := by
  obtain ⟨place, h⟩ := s.graph.updateOrder_eq
  exact ⟨⟨place, _, _, false, _⟩, rfl, edit_congr h⟩

theorem rescheduled_refresh : Rescheduled s.graph.batchDepth s s.refresh := by
  unfold refresh
  split
  · exact s.rescheduled_updateOrder
  · exact ⟨s.graph.schedule, rfl, s.under_schedule.symm⟩

end Schedule

namespace Abreast

variable {j k : Nat} {s t : Session B σ}

/-- A step that does the same under every schedule leaves the schedule alone. -/
theorem step {f : Session B σ → Session B σ} (hf : ∀ s c, f (s.under c) = (f s).under c)
    (h : Abreast j k s t) : Abreast j k (f s) (f t) := by
  obtain ⟨hl, hr, c, rfl⟩ := h
  refine ⟨?_, ?_, c, hf s c⟩
  · have hs := hf s s.graph.schedule
    rw [under_schedule] at hs
    rw [hs]
    exact hl
  · rw [hf]
    exact hr

/-- So does a step with an answer. -/
theorem answered {f : Session B σ → α × Session B σ}
    (hf : ∀ s c, f (s.under c) = rescheduled c (f s)) (h : Abreast j k s t) :
    Matched Eq j k (f s) (f t) := by
  refine ⟨?_, h.step (f := fun s => (f s).2) fun s c => congrArg Prod.snd (hf s c)⟩
  obtain ⟨-, -, c, rfl⟩ := h
  rw [hf]
  rfl

/-- Each session may change its schedule in a way of its own. -/
theorem reschedule (h : Abreast j k s t) {i l : Nat} {s' t' : Session B σ} (hs : Rescheduled i s s')
    (ht : Rescheduled l t t') : Abreast i l s' t' := by
  obtain ⟨-, -, e, rfl⟩ := h
  obtain ⟨c, rfl, rfl⟩ := hs
  obtain ⟨d, rfl, rfl⟩ := ht
  exact ⟨rfl, rfl, d, by rw [under_under, under_under]⟩

theorem foldl {ι : Type} {f : Session B σ → ι → Session B σ}
    (hf : ∀ {s t} i, Abreast j k s t → Abreast j k (f s i) (f t i)) (is : List ι)
    (h : Abreast j k s t) : Abreast j k (is.foldl f s) (is.foldl f t) := by
  induction is generalizing s t with
  | nil => exact h
  | cons i is ih => exact ih (hf i h)

/-- A change of the graph that leaves the number of open batches alone. -/
theorem edit (h : Abreast j k s t) {f f' : Graph B → Graph B}
    (hd : (f s.graph).batchDepth = s.graph.batchDepth)
    (hf : ∀ c, t = s.under c → ∃ d, d.batchDepth = c.batchDepth ∧
      f' (s.graph.under c) = (f s.graph).under d) : Abreast j k (s.edit f) (t.edit f') := by
  obtain ⟨hl, hr, c, rfl⟩ := h
  obtain ⟨d, hd', he⟩ := hf c rfl
  have ht : (s.under c).edit f' = (s.edit f).under d := by
    show (⟨f' (s.graph.under c), _, _⟩ : Session B σ) = _
    rw [he]
    rfl
  exact ⟨hd.trans hl, by rw [ht]; exact hd'.trans hr, d, ht⟩

theorem log (h : Abreast j k s t) (e : Event B) : Abreast j k (s.log e) (t.log e) :=
  h.step (f := (·.log e)) fun _ _ => rfl

theorem changed (h : Abreast j k s t) : Abreast j k s.changed t.changed :=
  h.step (f := Session.changed) fun _ _ => rfl

/-! ### The schedule -/

theorem markStale (h : Abreast j k s t) : Abreast j k s.markStale t.markStale := by
  rw [← h.left, ← h.right]
  exact h.reschedule s.rescheduled_markStale t.rescheduled_markStale

theorem updateOrder (h : Abreast j k s t) :
    Abreast j k (s.edit Graph.updateOrder) (t.edit Graph.updateOrder) := by
  rw [← h.left, ← h.right]
  exact h.reschedule s.rescheduled_updateOrder t.rescheduled_updateOrder

/-- One session may bring its order up to date while the other does not. -/
theorem refresh (h : Abreast j k s t) : Abreast j k s.refresh t.refresh := by
  rw [← h.left, ← h.right]
  exact h.reschedule s.rescheduled_refresh t.rescheduled_refresh

theorem invalidate (h : Abreast j k s t) : Abreast j k s.invalidate t.invalidate := h.markStale.refresh

theorem beginBatch (h : Abreast j k s t) : Abreast (j + 1) (k + 1) s.beginBatch t.beginBatch := by
  rw [← h.left, ← h.right]
  exact h.reschedule (s.rescheduled_batches (· + 1)) (t.rescheduled_batches (· + 1))

theorem endBatch (h : Abreast (j + 1) (k + 1) s t) : Abreast j k s.endBatch t.endBatch := by
  have hs := s.rescheduled_batches (· - 1)
  have ht := t.rescheduled_batches (· - 1)
  rw [h.left] at hs
  rw [h.right] at ht
  exact (h.reschedule hs ht).refresh

/-! ### Links -/

variable [Kind B]

theorem unlink (h : Abreast j k s t) (id : LinkId) : Abreast j k (s.unlink id) (t.unlink id) := by
  have hl : t.graph.links = s.graph.links := by
    obtain ⟨-, -, c, rfl⟩ := h
    rfl
  unfold Session.unlink
  rw [hl]
  cases s.graph.links.get? id with
  | none => exact h
  | some l =>
    have hd : Abreast j k (s.edit fun g => (g.dropLink id l).bump)
        (t.edit fun g => (g.dropLink id l).bump) := by
      refine h.edit rfl fun c _ => ⟨{ c with stale := true }, rfl, ?_⟩
      rw [Graph.dropLink_under]
      rfl
    exact hd.step (f := (·.announce l false)) fun s c => s.announce_under c l false

theorem disconnectInput (h : Abreast j k s t) (id : NodeId) (slot : Nat) :
    Matched Eq j k (s.disconnectInput id slot) (t.disconnectInput id slot) := by
  have hi : t.graph.input? id slot = s.graph.input? id slot := by
    obtain ⟨-, -, c, rfl⟩ := h
    exact s.graph.input?_under c id slot
  unfold Session.disconnectInput
  rw [hi]
  cases (s.graph.input? id slot).bind Input.link with
  | none => exact ⟨rfl, h⟩
  | some l => exact ⟨rfl, (h.unlink l).invalidate.changed⟩

theorem disconnectOutput (h : Abreast j k s t) (id : NodeId) (slot : Nat) (target : Option NodeId) :
    Matched Eq j k (s.disconnectOutput id slot target) (t.disconnectOutput id slot target) := by
  have hl : leaving t.graph id slot target = leaving s.graph id slot target := by
    obtain ⟨-, -, c, rfl⟩ := h
    unfold leaving
    rw [show (s.under c).graph.output? id slot = _ from s.graph.output?_under c id slot]
    rfl
  unfold Session.disconnectOutput
  rw [hl]
  cases leaving s.graph id slot target with
  | nil => exact ⟨rfl, h⟩
  | cons l ls => exact ⟨rfl, (h.foldl (fun l h => h.unlink l) (l :: ls)).invalidate.changed⟩

theorem removeLink (h : Abreast j k s t) (id : LinkId) :
    Matched Eq j k (s.removeLink id) (t.removeLink id) := by
  have hl : t.graph.links = s.graph.links := by
    obtain ⟨-, -, c, rfl⟩ := h
    rfl
  unfold Session.removeLink
  rw [hl]
  split
  · exact ⟨rfl, (h.unlink id).invalidate.changed⟩
  · exact ⟨rfl, h⟩

theorem link (h : Abreast j k s t) (origin : NodeId) (originSlot : Nat) (target : NodeId)
    (targetSlot : Nat) (input : Input) : Matched Eq j k
      (s.link origin originSlot target targetSlot input)
      (t.link origin originSlot target targetSlot input) := by
  -- once the input is free, the two links get the same number
  have hfree : ∀ {s t : Session B σ}, Abreast j k s t →
      let new (s : Session B σ) := Link.new ⟨s.graph.nextLink⟩ input.type origin originSlot target
        targetSlot
      let made (s : Session B σ) : LinkId × Session B σ := ((new s).id,
        ((s.edit fun g => (g.addLink (new s)).bump).announce (new s) true).invalidate.changed)
      Matched Eq j k (made s) (made t) := by
    intro s t h new made
    have hn : new t = new s := by
      obtain ⟨-, -, c, rfl⟩ := h
      rfl
    have ha : Abreast j k (s.edit fun g => (g.addLink (new s)).bump)
        (t.edit fun g => (g.addLink (new t)).bump) := by
      refine h.edit rfl fun c _ => ⟨c, rfl, ?_⟩
      rw [hn, Graph.addLink_under]
      rfl
    refine ⟨congrArg Link.id hn.symm, ?_⟩
    show Abreast j k ((_ : Session B σ).announce (new s) true).invalidate.changed
      ((_ : Session B σ).announce (new t) true).invalidate.changed
    rw [hn] at ha ⊢
    have hannounced := ha.step (f := (·.announce (new s) true)) fun s c => s.announce_under c _ true
    exact hannounced.invalidate.changed
  unfold Session.link
  cases input.link with
  | none => exact hfree h
  | some replaced => exact hfree (h.unlink replaced)

theorem tryConnect (h : Abreast j k s t) (origin : NodeId) (originSlot : Nat) (target : NodeId)
    (targetSlot : Nat) : Matched Eq j k (s.tryConnect origin originSlot target targetSlot)
      (t.tryConnect origin originSlot target targetSlot) := by
  have he : t.graph.endpoints? origin originSlot target targetSlot =
      s.graph.endpoints? origin originSlot target targetSlot := by
    obtain ⟨-, -, c, rfl⟩ := h
    exact s.graph.endpoints?_under c origin originSlot target targetSlot
  have ha : ∀ type, t.graph.acceptsLink target targetSlot type =
      s.graph.acceptsLink target targetSlot type := by
    obtain ⟨-, -, c, rfl⟩ := h
    exact s.graph.acceptsLink_under c target targetSlot
  unfold Session.tryConnect
  rw [he]
  cases s.graph.endpoints? origin originSlot target targetSlot with
  | error e => exact ⟨rfl, h⟩
  | ok ends =>
    obtain ⟨output, input⟩ := ends
    have ht := h.step (f := (·.tell target (.linkOffered targetSlot output.type)))
      fun s c => s.tell_under c target _
    simp only [ha]
    split
    · exact ⟨rfl, ht⟩
    · split
      · exact ⟨rfl, ht⟩
      · obtain ⟨hanswer, hafter⟩ := ht.link origin originSlot target targetSlot input
        exact ⟨congrArg Except.ok hanswer, hafter⟩

theorem connectByName (h : Abreast j k s t) (origin : NodeId) (output : String) (target : NodeId)
    (input : String) : Matched Eq j k (s.connectByName origin output target input)
      (t.connectByName origin output target input) := by
  have he : t.graph.slotsNamed? origin output target input =
      s.graph.slotsNamed? origin output target input := by
    obtain ⟨-, -, c, rfl⟩ := h
    exact s.graph.slotsNamed?_under c origin output target input
  unfold Session.connectByName
  rw [he]
  cases s.graph.slotsNamed? origin output target input with
  | error e => exact ⟨rfl, h⟩
  | ok slots => exact h.tryConnect origin slots.1 target slots.2

/-! ### Slots and nodes -/

omit [Kind B] in
theorem change (h : Abreast j k s t) (id : NodeId) (c : NodeChange) :
    Matched Eq j k (s.change id c) (t.change id c) := by
  have hn : t.graph.nodes.contains id = s.graph.nodes.contains id := by
    obtain ⟨-, -, c, rfl⟩ := h
    exact s.graph.contains_under c id
  have hc := h.step (f := (·.restructure fun g => g.modifyNode id c.apply)) fun s d =>
    restructure_under (Graph.modifyNode_under rfl fun _ _ => by cases c <;> rfl)
  unfold Session.change
  rw [hn]
  split
  · refine ⟨rfl, ?_⟩
    show Abreast j k (ite _ _ _) (ite _ _ _)
    split
    · exact hc.invalidate
    · exact hc
  · exact ⟨rfl, h⟩

omit [Kind B] in
/-- The end of every operation that works in a batch of its own. -/
theorem close (h : Abreast (j + 1) (k + 1) s t) :
    Abreast j k s.markStale.endBatch t.markStale.endBatch := h.markStale.endBatch

theorem removeInput (h : Abreast j k s t) (id : NodeId) (slot : Nat) :
    Matched Eq j k (s.removeInput id slot) (t.removeInput id slot) := by
  have hi : t.graph.input? id slot = s.graph.input? id slot := by
    obtain ⟨-, -, c, rfl⟩ := h
    exact s.graph.input?_under c id slot
  unfold Session.removeInput
  rw [hi]
  cases s.graph.input? id slot with
  | none => exact ⟨rfl, h⟩
  | some input =>
    have hd := (h.beginBatch.disconnectInput id slot).after
    have he := hd.step (f := (·.edit fun g => (g.eraseInput id slot).bump)) fun s c =>
      edit_under (congrArg Graph.bump (s.graph.eraseInput_under c id slot))
    exact ⟨rfl, he.close.changed⟩

theorem removeOutput (h : Abreast j k s t) (id : NodeId) (slot : Nat) :
    Matched Eq j k (s.removeOutput id slot) (t.removeOutput id slot) := by
  have ho : t.graph.output? id slot = s.graph.output? id slot := by
    obtain ⟨-, -, c, rfl⟩ := h
    exact s.graph.output?_under c id slot
  unfold Session.removeOutput
  rw [ho]
  cases s.graph.output? id slot with
  | none => exact ⟨rfl, h⟩
  | some output =>
    have hd := (h.beginBatch.disconnectOutput id slot none).after
    have he := hd.step (f := (·.edit fun g => (g.eraseOutput id slot).bump)) fun s c =>
      edit_under (congrArg Graph.bump (s.graph.eraseOutput_under c id slot))
    exact ⟨rfl, he.close.changed⟩

theorem isolate (h : Abreast j k s t) (id : NodeId) (n : Node B) (p : Nat) :
    Abreast j k (s.isolate id n) (t.isolate id (n.noting p)) := by
  have hin := h.foldl (f := fun s slot => (s.disconnectInput id slot).2)
    (fun slot h => (h.disconnectInput id slot).after) (linkedInputs n)
  exact hin.foldl (f := fun s slot => (s.disconnectOutput id slot none).2)
    (fun slot h => (h.disconnectOutput id slot none).after) (linkedOutputs n)

omit [Kind B] in
/-- The nodes under an identity are the same but for their places. -/
theorem node (h : Abreast j k s t) (id : NodeId) : ∃ p : Nat,
    t.graph.nodes.get? id = (s.graph.nodes.get? id).map (Node.noting p) := by
  obtain ⟨-, -, c, rfl⟩ := h
  exact ⟨c.place id, s.get?_under c id⟩

theorem extract (h : Abreast j k s t) (id : NodeId) :
    Matched (Option.Rel Node.Renumbered) j k (s.extract id) (t.extract id) := by
  have ht := h.step (f := (·.tell id .removed)) fun s c => s.tell_under c id .removed
  obtain ⟨p, hp⟩ := ht.node id
  have he := ht.step (f := (·.edit fun g => { g with nodes := g.nodes.erase id }.bump)) fun s c =>
    edit_under (congrArg Graph.bump (s.graph.eraseNode_under c id))
  unfold Session.extract
  simp only [hp]
  cases (s.tell id .removed).graph.nodes.get? id with
  | none => exact ⟨.none, ht⟩
  | some n => exact ⟨.some (Node.renumbered_noting _ p), he⟩

theorem remove (h : Abreast j k s t) (id : NodeId) :
    Matched (Option.Rel Node.Renumbered) j k (s.remove id) (t.remove id) := by
  obtain ⟨p, hp⟩ := h.node id
  unfold Session.remove
  rw [hp]
  cases s.graph.nodes.get? id with
  | none => exact ⟨.none, h⟩
  | some n =>
    obtain ⟨hanswer, hafter⟩ := (h.beginBatch.isolate id n p).extract id
    exact ⟨hanswer, (hafter.close.log (.nodeRemoved id)).changed⟩

theorem clear (h : Abreast j k s t) : Abreast j k s.clear t.clear := by
  have hstop := h.step (f := Session.stop) fun s c => s.stop_under c
  have htold := hstop.step (f := fun s => s.tellAll s.graph.nodes.keys .removed)
    fun s c => s.tellEvery_under c .removed
  -- what is left of the old schedule is the number of open batches
  refine Abreast.changed (htold.edit rfl fun c _ => ?_)
  exact ⟨⟨fun _ => 0, [], [], false, c.batchDepth⟩, rfl, rfl⟩

/-! ### Loading -/

omit [Kind B] in
theorem finishLoad (h : Abreast (j + 1) (k + 1) s t) (snapshot : Snapshot) :
    Abreast j k (s.finishLoad snapshot) (t.finishLoad snapshot) := by
  have he := h.step (f := (·.edit fun g => { g with
    groups := snapshot.groups, nextNode := max g.nextNode snapshot.nextNode })) fun _ _ => rfl
  exact he.close.step (f := (·.restructure fun g => g)) fun _ _ => rfl

theorem settleLoad (h : Abreast (j + 1) (k + 1) s t) (snapshot : Snapshot)
    (placed : List (NodeId × NodeRecord)) (nodes : Renaming NodeId) (report : LoadReport) :
    Matched Eq j k (s.settleLoad snapshot placed nodes report)
      (t.settleLoad snapshot placed nodes report) := by
  have hi := h.answered (f := (·.takeIn snapshot placed nodes report)) fun s c =>
    s.takeIn_under c snapshot placed nodes report
  exact ⟨hi.answer, hi.after.finishLoad snapshot⟩

end Abreast

end Session

/-! ## Edits -/

namespace Edit

variable {j k : Nat} {s t : Session B σ}

/-- Answers of an edit that belong together: the same, or the same node but for its place. -/
def Agree : (e : Edit) → e.Answer B → e.Answer B → Prop
  | remove _ => Option.Rel Node.Renumbered
  | _ => Eq

/-- Edits but those that open and close batches leave two sessions abreast, and answer what belongs
together. -/
theorem matched [Kind B] (h : s.Abreast j k t) {e : Edit} (hb : e ≠ beginBatch) (he : e ≠ endBatch) :
    Session.Matched e.Agree j k (e.apply s) (e.apply t) := by
  have hlight : ∀ e : Edit, e.light = true → Session.Matched Eq j k (e.apply s) (e.apply t) :=
    fun e he => h.answered (f := (e.apply ·)) (apply_under he)
  cases e with
  | remove id => exact h.remove id
  | clear => exact ⟨rfl, h.clear⟩
  | tryConnect origin originSlot target targetSlot =>
    exact h.tryConnect origin originSlot target targetSlot
  | connectByName origin output target input => exact h.connectByName origin output target input
  | disconnectInput id slot => exact h.disconnectInput id slot
  | disconnectOutput id slot target => exact h.disconnectOutput id slot target
  | removeLink id => exact h.removeLink id
  | addInput id name type =>
    exact h.answered (f := (·.addInput id name type)) fun s c => s.addInput_under c id name type
  | addOutput id name type =>
    exact h.answered (f := (·.addOutput id name type)) fun s c => s.addOutput_under c id name type
  | removeInput id slot => exact h.removeInput id slot
  | removeOutput id slot => exact h.removeOutput id slot
  | change id c => exact h.change id c
  | beginBatch => exact absurd rfl hb
  | endBatch => exact absurd rfl he
  | updateOrder => exact ⟨rfl, h.updateOrder⟩
  | _ => exact hlight _ rfl

end Edit

end Dataflow
