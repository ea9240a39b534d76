/-
  What a bridge does to the terminals of its graph.

  Bringing a terminal in step takes a few edits, and what they come to can be written down
  (`Session.docked`).  Of the terminals in the direction of the bridge two are handled: the one of the
  name that the node asks for, and the one that the bridge registered before, which gives up its name
  if the new one is free (`Catalog.InStep`).  The terminals of the other direction stay as they are.
  The node asks for the name of the terminal then, and its first slot inside has that name
  (`Node.Docked`).
-/

import Dataflow.Catalog.Bridge
import Dataflow.Proofs.Slots
import Dataflow.Proofs.Terminals

namespace Dataflow

variable {B σ : Type}

/-! ## What a node asks for -/

theorem Value.eq_of_str? {v : Option Value} {text : String} (h : v.bind Value.str? = some text) :
    v = some (.str text) := by
  obtain ⟨w, rfl, hw⟩ := Option.bind_eq_some_iff.1 h
  cases w with
  | str t => rw [Option.some.inj hw]
  | _ => cases hw

namespace Catalog

/-- The name that a node asks for; an empty one if it asks for none. -/
def askedName (n : Node B) : String := ((n.property? "name").bind Value.str?).getD ""

/-- The type that a node asks for. -/
def askedType (n : Node B) : SlotType :=
  (((n.property? "type").bind Value.str?).map SlotType.ofName).getD .any

/-- The name of the terminal of a node. -/
def terminalName (d : Direction) (id : NodeId) (n : Node B) : String :=
  if (askedName n).isEmpty then defaultName d id else askedName n

theorem wanted?_eq {g : Graph B} {id : NodeId} {n : Node B} (hn : g.nodes.get? id = some n) :
    wanted? g id = some (askedName n, askedType n) := by
  unfold wanted?
  rw [hn]
  rfl

theorem terminalName_ne_empty (d : Direction) (id : NodeId) (n : Node B) :
    terminalName d id n ≠ "" := by
  unfold terminalName
  split
  · intro h
    have hlist := congrArg String.toList h
    cases d <;> simp [defaultName] at hlist
  · next hname => exact fun h => hname (h ▸ rfl)

/-! ## Terminals in step -/

/-- What bringing a terminal in step with a node makes of the terminals of a direction.  The node
asks for a name and a type; `registered` is the name that it registered before, and `brought` the
value that it brings. -/
structure InStep (registered : Option String) (name : String) (type : SlotType)
    (brought : Option Value) (ts ts' : Assoc String Terminal) : Prop where
  /-- There is a terminal of the name, with the type.  Unless a value was brought it has the one that
  it had, under this name or under the one that it gave up. -/
  own : ∃ t, ts'.get? name = some t ∧ t.type.readsAs type = true ∧
    t.value = brought.or (((ts.get? name).or (registered.bind ts.get?)).bind Terminal.value)
  /-- A registered terminal gives up its name in its place, if it is there and the new name is
  free. -/
  moved : ∀ old, registered = some old → old ∈ ts.keys → name ∉ ts.keys →
    ts'.keys = ts.keys.map fun x => if x = old then name else x
  /-- Otherwise no terminal gives up its name, and a new one comes last. -/
  stayed : (∀ old, registered = some old → old ∈ ts.keys → name ∈ ts.keys) →
    ts'.keys = if name ∈ ts.keys then ts.keys else ts.keys ++ [name]
  /-- All other terminals stay as they were, a registered one that kept its name among them. -/
  others : ∀ x, x ≠ name → (registered = some x → x ∈ ts.keys → name ∈ ts.keys) →
    ts'.get? x = ts.get? x

end Catalog

namespace Session

variable (s : Session B σ) (d : Direction) (registered : Option String) (id : NodeId)
  (name : String) (type : SlotType)

/-- The session after the terminal that a bridge registered was renamed, if that is possible. -/
def handedOver : Session B σ :=
  match registered with
  | some old => (s.renameTerminal d old name).2
  | none => s

/-- The session after a terminal was declared, if there was none of its name. -/
def declared : Session B σ :=
  if (s.graph.terminals d).contains name then s else s.addTerminal d name type none

/-- The session after the terminal of a bridge was brought in step, and a slot of its node named like
it. -/
def docked : Session B σ :=
  (((s.handedOver d registered name).declared d name type).retypeTerminal d name type).2.renameSlot
    (Catalog.inside d) id 0 name

/-- The session after a node without a name was given one. -/
def settled (asked : String) : Session B σ :=
  if asked.isEmpty then s.storeProperty id "name" (.str (Catalog.defaultName d id)) else s

/-- The session after the value of a terminal was carried. -/
def carried : Session B σ :=
  match d with
  | .input =>
    match s.graph.terminalValue? .input name with
    | some v => (s.setOutputData id 0 v).2
    | none => s
  | .output =>
    match s.graph.inputData? id 0 with
    | some v => (s.setTerminalValue .output name v).2
    | none => s

/-- A terminal that was renamed is the old one in the same place. -/
theorem terminals_handedOver :
    let ts := s.graph.terminals d
    let ts' := (s.handedOver d registered name).graph.terminals d
    (∃ old, registered = some old ∧ old ∈ ts.keys ∧ name ∉ ts.keys ∧
      ts' = ts.rekey old name fun t => { t with name }) ∨
    (∀ old, registered = some old → old ∈ ts.keys → name ∈ ts.keys) ∧ ts' = ts := by
  unfold handedOver
  cases registered with
  | none => exact .inr ⟨nofun, rfl⟩
  | some old =>
    unfold renameTerminal
    simp only
    split
    · next h =>
      obtain ⟨-, hfree, hold⟩ := h
      have hname : name ∉ (s.graph.terminals d).keys := by
        rw [← Assoc.contains_iff, hfree]
        exact Bool.false_ne_true
      exact .inl ⟨old, rfl, (Assoc.contains_iff ..).1 hold, hname, terminals_setTerminals ..⟩
    · next h =>
      refine .inr ⟨fun old' hold' hold => ?_, rfl⟩
      cases hold'
      -- it is there and was not renamed, so the new name is taken, be it by the terminal itself
      by_contra hname
      refine h ⟨?_, ?_, (Assoc.contains_iff ..).2 hold⟩
      · rintro rfl
        exact hname hold
      · rw [Bool.eq_false_iff]
        exact fun hc => hname ((Assoc.contains_iff ..).1 hc)

/-- There is a terminal of the name then, and what was there stays. -/
theorem terminals_declared :
    let ts := s.graph.terminals d
    let ts' := (s.declared d name type).graph.terminals d
    (∃ t, ts'.get? name = some t ∧ t.value = (ts.get? name).bind Terminal.value) ∧
    ts'.keys = (if name ∈ ts.keys then ts.keys else ts.keys ++ [name]) ∧
    ∀ x, x ≠ name → ts'.get? x = ts.get? x := by
  unfold declared
  cases hc : (s.graph.terminals d).contains name with
  | true =>
    have hmem : name ∈ (s.graph.terminals d).keys := (Assoc.contains_iff ..).1 hc
    obtain ⟨t, ht⟩ := Assoc.mem_keys_iff.1 hmem
    simp only [if_true, if_pos hmem, ht, implies_true, and_true]
    exact ⟨t, rfl, rfl⟩
  | false =>
    have hmem : name ∉ (s.graph.terminals d).keys := by
      rw [← Assoc.contains_iff, hc]
      exact Bool.false_ne_true
    have hget : (s.graph.terminals d).get? name = none := (Assoc.get?_eq_none_iff ..).2 hmem
    simp only [Bool.false_eq_true, if_false, if_neg hmem, hget]
    unfold addTerminal
    rw [terminals_setTerminals]
    refine ⟨⟨_, Assoc.get?_insert_self .., rfl⟩, ?_, fun x hx => Assoc.get?_insert_of_ne _ _ hx⟩
    rw [Assoc.keys_insert]
    exact if_neg hmem

/-- The terminal has the type then. -/
theorem terminals_retyped {t : Terminal} (ht : (s.graph.terminals d).get? name = some t) :
    let ts := s.graph.terminals d
    let ts' := (s.retypeTerminal d name type).2.graph.terminals d
    (∃ t', ts'.get? name = some t' ∧ t'.type.readsAs type = true ∧ t'.value = t.value) ∧
    ts'.keys = ts.keys ∧ ∀ x, x ≠ name → ts'.get? x = ts.get? x := by
  cases hreads : t.type.readsAs type with
  | true =>
    rw [s.retypeTerminal_kept d name type ht hreads]
    exact ⟨⟨t, ht, hreads, rfl⟩, rfl, fun _ _ => rfl⟩
  | false =>
    rw [s.retypeTerminal_changed d name type ht hreads]
    simp only [terminals_setTerminals]
    refine ⟨⟨{ t with type }, Assoc.get?_insert_self .., decide_eq_true rfl, rfl⟩, ?_, fun x hx =>
      Assoc.get?_insert_of_ne _ _ hx⟩
    rw [Assoc.keys_insert, if_pos (Assoc.mem_keys_of_get? ht)]

/-- Bringing a terminal in step handles no terminal but its own and the one that was registered. -/
theorem inStep_docked : Catalog.InStep registered name type none (s.graph.terminals d)
    ((s.docked d registered id name type).graph.terminals d) := by
  unfold docked
  rw [terminals_renameSlot]
  obtain ⟨⟨t, ht, hvalue⟩, hkeys, hothers⟩ :=
    (s.handedOver d registered name).terminals_declared d name type
  obtain ⟨⟨t', ht', htype, hsame⟩, hkeys', hothers'⟩ :=
    ((s.handedOver d registered name).declared d name type).terminals_retyped d name type ht
  rcases s.terminals_handedOver d registered name with
    ⟨old, rfl, hold, hfree, hts⟩ | ⟨hstay, hts⟩
  · have hkeys₁ : ((s.handedOver d (some old) name).graph.terminals d).keys =
        (s.graph.terminals d).keys.map fun x => if x = old then name else x := by
      rw [hts, Assoc.keys_rekey, if_neg hfree]
    have hmem : name ∈ ((s.handedOver d (some old) name).graph.terminals d).keys := by
      rw [hkeys₁]
      exact List.mem_map.2 ⟨old, hold, if_pos rfl⟩
    constructor
    · refine ⟨t', ht', htype, ?_⟩
      rw [hsame, hvalue, hts, Assoc.get?_rekey, if_neg hfree, if_pos rfl,
        (Assoc.get?_eq_none_iff ..).2 hfree, Option.none_or, Option.none_or, Option.bind_some]
      cases (s.graph.terminals d).get? old <;> rfl
    · rintro _ ⟨⟩ - -
      rw [hkeys', hkeys, if_pos hmem, hkeys₁]
    · exact fun h => absurd (h old rfl hold) hfree
    · intro x hx hgiven
      rw [hothers' x hx, hothers x hx, hts, Assoc.get?_rekey, if_neg hfree, if_neg hx]
      refine if_neg ?_
      rintro rfl
      exact hfree (hgiven rfl hold)
  · rw [hts] at hvalue hkeys hothers
    constructor
    · refine ⟨t', ht', htype, ?_⟩
      rw [hsame, hvalue, Option.none_or]
      cases hname : (s.graph.terminals d).get? name with
      | some u => rfl
      | none =>
        -- then the registered terminal is not there either
        cases registered with
        | none => rfl
        | some old =>
          have hold : (s.graph.terminals d).get? old = none := by
            rw [Assoc.get?_eq_none_iff] at hname ⊢
            exact fun h => hname (hstay old rfl h)
          rw [Option.bind_some, hold]
          rfl
    · exact fun old hreg hold hfree => absurd (hstay old hreg hold) hfree
    · exact fun _ => hkeys'.trans hkeys
    · exact fun x hx _ => (hothers' x hx).trans (hothers x hx)

end Session

/-! ## The node of a bridge -/

/-- The name of the first slot on a side of a node. -/
def Node.firstName? (n : Node B) : Direction → Option String
  | .input => (n.inputs.map Input.name).head?
  | .output => (n.outputs.map Output.name).head?

/-- A node is in step with a terminal: it asks for its name, and its first slot inside has that
name. -/
structure Node.Docked (d : Direction) (name : String) (type : SlotType) (n : Node B) : Prop where
  asks : n.property? "name" = some (.str name)
  asksType : Catalog.askedType n = type
  slot : ∀ x ∈ n.firstName? (Catalog.inside d), x = name

/-- The graphs differ in terminals, and in how many changes were counted. -/
def Graph.Ashore (g g' : Graph B) : Prop :=
  ∃ inlets outlets version, g' = { g with inlets, outlets, version }

namespace Graph.Ashore

variable {g g' g'' : Graph B}

theorem refl (g : Graph B) : g.Ashore g := ⟨g.inlets, g.outlets, g.version, rfl⟩

theorem trans (h : g.Ashore g') (h' : g'.Ashore g'') : g.Ashore g'' := by
  obtain ⟨_, _, _, rfl⟩ := h
  obtain ⟨inlets, outlets, version, rfl⟩ := h'
  exact ⟨inlets, outlets, version, rfl⟩

theorem nodes (h : g.Ashore g') : g'.nodes = g.nodes := by
  obtain ⟨_, _, _, rfl⟩ := h
  rfl

theorem links (h : g.Ashore g') : g'.links = g.links := by
  obtain ⟨_, _, _, rfl⟩ := h
  rfl

theorem setTerminals (s : Session B σ) (d : Direction) (ts : Assoc String Terminal)
    (events : List (Event B)) : s.graph.Ashore (s.setTerminals d ts events).graph := by
  cases d with
  | input => exact ⟨ts, s.graph.outlets, s.graph.version + 1, rfl⟩
  | output => exact ⟨s.graph.inlets, ts, s.graph.version + 1, rfl⟩

end Graph.Ashore

/-- A value that is written to an output changes no name. -/
theorem Graph.get?_setOutputData {g : Graph B} {id : NodeId} {n : Node B}
    (hn : g.nodes.get? id = some n) (slot : Nat) (value : Value) :
    ∃ outputs, (g.setOutputData id slot value).nodes.get? id = some { n with outputs } ∧
      outputs.map Output.name = n.outputs.map Output.name := by
  unfold setOutputData
  split
  · refine ⟨n.outputs.modify slot fun o => { o with data := some value }, ?_, ?_⟩
    · rw [get?_modifyNode, if_pos rfl, nodes_modifyLinks, hn]
      rfl
    · refine map_modify ?_ n.outputs slot
      exact fun o => rfl
  · exact ⟨n.outputs, hn, rfl⟩

namespace Session

variable (s : Session B σ) (d : Direction) (registered : Option String) (id : NodeId)
  (name : String) (type : SlotType)

theorem ashore_renameTerminal (old new : String) :
    s.graph.Ashore (s.renameTerminal d old new).2.graph := by
  unfold renameTerminal
  simp only
  split
  · exact .setTerminals ..
  · exact .refl _

theorem ashore_retypeTerminal : s.graph.Ashore (s.retypeTerminal d name type).2.graph := by
  unfold retypeTerminal
  simp only
  split
  · split
    · exact .refl _
    · exact .setTerminals ..
  · exact .refl _

theorem ashore_handedOver : s.graph.Ashore (s.handedOver d registered name).graph := by
  cases registered with
  | none => exact .refl _
  | some old => exact s.ashore_renameTerminal d old name

theorem ashore_declared : s.graph.Ashore (s.declared d name type).graph := by
  unfold declared
  split
  · exact .refl _
  · exact .setTerminals ..

/-- Besides terminals, bringing one in step changes the name of a slot. -/
theorem docked_eq : ∃ u : Session B σ, s.graph.Ashore u.graph ∧
    s.docked d registered id name type = u.renameSlot (Catalog.inside d) id 0 name :=
  ⟨_, ((s.ashore_handedOver d registered name).trans (ashore_declared ..)).trans
    (ashore_retypeTerminal ..), rfl⟩

variable {s id}

/-- A node asks for a name then, and for the type that it asked for before. -/
theorem get?_settled {n : Node B} (hn : s.graph.nodes.get? id = some n) :
    ∃ m : Node B, (s.settled d id (Catalog.askedName n)).graph.nodes.get? id = some m ∧
      m.property? "name" = some (.str (Catalog.terminalName d id n)) ∧
      Catalog.askedType m = Catalog.askedType n ∧ m.behavior = n.behavior ∧ m.inputs = n.inputs := by
  unfold settled Catalog.terminalName
  split
  · have hc : s.graph.nodes.contains id = true :=
      (Assoc.contains_iff ..).2 (Assoc.mem_keys_of_get? hn)
    refine ⟨n.setProperty "name" (.str (Catalog.defaultName d id)), ?_, ?_, ?_, rfl, rfl⟩
    · unfold storeProperty
      rw [if_pos hc]
      refine (Graph.get?_modifyNode ..).trans ?_
      rw [if_pos rfl, hn]
      rfl
    · exact Assoc.get?_insert_self ..
    · have htype : (n.setProperty "name" (.str (Catalog.defaultName d id))).property? "type" =
          n.property? "type" := Assoc.get?_insert_of_ne _ _ (by decide)
      unfold Catalog.askedType
      rw [htype]
  · next hasked =>
    refine ⟨n, hn, ?_, rfl, rfl, rfl⟩
    -- only a text can be asked for, so the property is one
    unfold Catalog.askedName at hasked ⊢
    cases hname : (n.property? "name").bind Value.str? with
    | none =>
      rw [hname] at hasked
      exact absurd rfl hasked
    | some asked =>
      exact Value.eq_of_str? hname

/-- Then its first slot has the name of the terminal. -/
theorem get?_docked {m : Node B} (hm : s.graph.nodes.get? id = some m)
    (hname : m.property? "name" = some (.str name)) :
    ∃ m' : Node B, (s.docked d registered id name type).graph.nodes.get? id = some m' ∧
      m'.Docked d name (Catalog.askedType m) ∧ m'.behavior = m.behavior ∧
      m'.inputs.map Input.link = m.inputs.map Input.link := by
  obtain ⟨u, hu, heq⟩ := s.docked_eq d registered id name type
  have hget : ∀ f : Node B → Node B, (u.graph.modifyNode id f).nodes.get? id = some (f m) := by
    intro f
    rw [Graph.get?_modifyNode, if_pos rfl, hu.nodes, hm]
    rfl
  rw [heq]
  refine ⟨_, hget _, ?_⟩
  cases d with
  | input =>
    refine ⟨⟨hname, rfl, ?_⟩, rfl, rfl⟩
    show ∀ x ∈ ((m.outputs.modify 0 _).map Output.name).head?, x = name
    cases m.outputs with
    | nil => exact nofun
    | cons o os => exact fun x hx => (Option.some.inj hx).symm
  | output =>
    have hlinks : ((m.inputs.modify 0 fun i => { i with name }).map Input.link) =
        m.inputs.map Input.link := by
      cases m.inputs <;> rfl
    refine ⟨⟨hname, rfl, ?_⟩, rfl, hlinks⟩
    show ∀ x ∈ ((m.inputs.modify 0 _).map Input.name).head?, x = name
    cases m.inputs with
    | nil => exact nofun
    | cons i is => exact fun x hx => (Option.some.inj hx).symm

/-- Carrying a value leaves the node in step. -/
theorem get?_carried {m : Node B} (hm : s.graph.nodes.get? id = some m)
    (hdocked : m.Docked d name type) :
    ∃ m' : Node B, (s.carried d id name).graph.nodes.get? id = some m' ∧
      m'.Docked d name type ∧ m'.behavior = m.behavior := by
  unfold carried
  cases d with
  | input =>
    cases s.graph.terminalValue? .input name with
    | none => exact ⟨m, hm, hdocked, rfl⟩
    | some v =>
      obtain ⟨outputs, hget, hnames⟩ := s.graph.get?_setOutputData hm 0 v
      refine ⟨_, hget, ⟨hdocked.asks, hdocked.asksType, ?_⟩, rfl⟩
      show ∀ x ∈ (outputs.map Output.name).head?, x = name
      rw [hnames]
      exact hdocked.slot
  | output =>
    cases s.graph.inputData? id 0 with
    | none => exact ⟨m, hm, hdocked, rfl⟩
    | some v => exact ⟨m, hm, hdocked, rfl⟩

end Session

/-! ## Values that are brought -/

theorem Graph.inputData?_congr {g g' : Graph B} {id : NodeId} {n n' : Node B} (slot : Nat)
    (hn : g.nodes.get? id = some n) (hn' : g'.nodes.get? id = some n')
    (hinputs : n'.inputs.map Input.link = n.inputs.map Input.link) (hlinks : g'.links = g.links) :
    g'.inputData? id slot = g.inputData? id slot := by
  have hlink : ∀ m : Node B, ((m.inputs[slot]?).bind fun s => s.link.bind g.links.get?) =
      ((m.inputs.map Input.link)[slot]?).bind fun l => l.bind g.links.get? := by
    intro m
    rw [List.getElem?_map]
    cases m.inputs[slot]? <;> rfl
  show (((g'.nodes.get? id).bind fun m => m.inputs[slot]?).bind fun s =>
    s.link.bind g'.links.get?).bind Link.data = (((g.nodes.get? id).bind fun m =>
      m.inputs[slot]?).bind fun s => s.link.bind g.links.get?).bind Link.data
  rw [hlinks, hn', hn, Option.bind_some, Option.bind_some, hlink, hlink, hinputs]

/-- A terminal in step may be given a value. -/
theorem Catalog.InStep.bring {registered : Option String} {name : String} {type : SlotType}
    {ts ts' : Assoc String Terminal} (h : InStep registered name type none ts ts') (v : Value) :
    InStep registered name type (some v) ts (ts'.modify name fun t => { t with value := some v }) := by
  constructor
  case own =>
    obtain ⟨t, ht, htype, -⟩ := h.own
    refine ⟨{ t with value := some v }, ?_, htype, rfl⟩
    rw [Assoc.get?_modify, if_pos rfl, ht]
    rfl
  case moved =>
    intro old hreg hold hfree
    rw [Assoc.keys_modify]
    exact h.moved old hreg hold hfree
  case stayed =>
    intro hstay
    rw [Assoc.keys_modify]
    exact h.stayed hstay
  case others =>
    intro x hx hgiven
    rw [Assoc.get?_modify, if_neg hx]
    exact h.others x hx hgiven

/-! ## The graph then -/

/-- The value that the body of a bridge brings to its terminal. -/
def Catalog.brought? (d : Direction) (task : Task) (g : Graph B) (id : NodeId) : Option Value :=
  match d, task with
  | .output, .execute _ => g.inputData? id 0
  | _, _ => none

/-- The session after the body of a bridge ran for a task. -/
def Session.bridged (s : Session B σ) (d : Direction) (registered : Option String) (id : NodeId)
    (n : Node B) (task : Task) : Session B σ :=
  let name := Catalog.terminalName d id n
  let s := (s.settled d id (Catalog.askedName n)).docked d registered id name (Catalog.askedType n)
  match task with
  | .execute _ => s.carried d id name
  | _ => s

/-- The node of a bridge is in step with a terminal, and what became of the terminals. -/
structure Graph.Docks (d : Direction) (registered : Option String) (id : NodeId) (n : Node B)
    (brought : Option Value) (b : Option B) (g g' : Graph B) : Prop where
  node : ∃ n' : Node B, g'.nodes.get? id = some n' ∧ n'.behavior = b ∧
    n'.Docked d (Catalog.terminalName d id n) (Catalog.askedType n)
  terminals : Catalog.InStep registered (Catalog.terminalName d id n) (Catalog.askedType n) brought
    (g.terminals d) (g'.terminals d)
  /-- Those of the other direction stay as they were. -/
  beyond : ∀ d', d' ≠ d → g'.terminals d' = g.terminals d'

namespace Session

variable (s : Session B σ) (d : Direction) (registered : Option String) (id : NodeId)
  (name : String) (type : SlotType)

theorem shore_settled (asked : String) : (s.settled d id asked).graph.shore = s.graph.shore := by
  unfold settled
  split
  · exact s.shore_storeProperty ..
  · rfl

theorem links_settled (asked : String) : (s.settled d id asked).graph.links = s.graph.links := by
  unfold settled storeProperty
  split
  · split <;> rfl
  · rfl

theorem links_docked : (s.docked d registered id name type).graph.links = s.graph.links := by
  obtain ⟨u, hu, heq⟩ := s.docked_eq d registered id name type
  rw [heq]
  exact hu.links

theorem terminals_docked_of_ne {d' : Direction} (h : d' ≠ d) :
    (s.docked d registered id name type).graph.terminals d' = s.graph.terminals d' := by
  have hdeclared : ∀ u : Session B σ,
      (u.declared d name type).graph.terminals d' = u.graph.terminals d' := by
    intro u
    unfold declared
    split
    · rfl
    · exact u.terminals_setTerminals_of_ne (Ne.symm h) ..
  have hhanded : (s.handedOver d registered name).graph.terminals d' = s.graph.terminals d' := by
    cases registered with
    | none => rfl
    | some old => exact s.terminals_renameTerminal_of_ne (Ne.symm h) old name
  unfold docked
  rw [terminals_renameSlot, terminals_retypeTerminal_of_ne _ (Ne.symm h), hdeclared, hhanded]

theorem terminals_carried_of_ne {d' : Direction} (h : d' ≠ d) :
    (s.carried d id name).graph.terminals d' = s.graph.terminals d' := by
  unfold carried
  cases d with
  | input =>
    cases s.graph.terminalValue? .input name with
    | none => rfl
    | some v => exact s.graph.terminals_setOutputData id 0 v
  | output =>
    cases s.graph.inputData? id 0 with
    | none => rfl
    | some v => exact s.graph.terminals_withTerminals_of_ne _ (Ne.symm h)

variable {id}

/-- After the body of a bridge its node is in step with the terminal of the name that it asked for,
and other terminals have not changed, but for one that gave up its name. -/
theorem docks_bridged {n : Node B} (hn : s.graph.nodes.get? id = some n) (task : Task) :
    s.graph.Docks d registered id n (Catalog.brought? d task s.graph id) n.behavior
      (s.bridged d registered id n task).graph := by
  let name := Catalog.terminalName d id n
  let type := Catalog.askedType n
  let u := s.settled d id (Catalog.askedName n)
  obtain ⟨m, hm, hasks, htype, hbehavior, hinputs⟩ := get?_settled d hn
  obtain ⟨m', hm', hdocked, hbehavior', hinputs'⟩ := get?_docked d registered name type hm hasks
  rw [htype] at hdocked
  have hterminals : ∀ d', u.graph.terminals d' = s.graph.terminals d' :=
    Graph.terminals_of_shore (s.shore_settled d id _)
  have hin := u.inStep_docked d registered id name type
  have hbeyond : ∀ d', d' ≠ d → (u.docked d registered id name type).graph.terminals d' =
      s.graph.terminals d' := fun d' h =>
    (u.terminals_docked_of_ne d registered id name type h).trans (hterminals d')
  rw [hterminals] at hin
  -- what every task does: the terminal is there, under its name and with its type
  have hstill : s.graph.Docks d registered id n none n.behavior
      (u.docked d registered id name type).graph :=
    ⟨⟨m', hm', hbehavior'.trans hbehavior, hdocked⟩, hin, hbeyond⟩
  cases task with
  | added => cases d <;> exact hstill
  | act action payload => cases d <;> exact hstill
  | execute payload =>
    -- only when the body has its turn a value is carried across
    obtain ⟨m'', hm'', hdocked'', hbehavior''⟩ := get?_carried d name type hm' hdocked
    refine ⟨⟨m'', hm'', hbehavior''.trans (hbehavior'.trans hbehavior), hdocked''⟩, ?_, fun d' h =>
      (terminals_carried_of_ne _ d id name h).trans (hbeyond d' h)⟩
    cases d with
    | input =>
      show Catalog.InStep registered name type none _
        ((carried (u.docked .input registered id name type) .input id name).graph.terminals .input)
      unfold carried
      cases (u.docked .input registered id name type).graph.terminalValue? .input name with
      | none => exact hin
      | some v =>
        simp only
        refine Eq.mpr (congrArg _ ?_) hin
        exact Graph.terminals_setOutputData _ id 0 v
    | output =>
      have hdata : (u.docked .output registered id name type).graph.inputData? id 0 =
          s.graph.inputData? id 0 :=
        Graph.inputData?_congr 0 hn hm' (hinputs'.trans (congrArg _ hinputs))
          ((links_docked ..).trans (links_settled ..))
      show Catalog.InStep registered name type (s.graph.inputData? id 0) _
        ((carried (u.docked .output registered id name type) .output id name).graph.terminals .output)
      unfold carried
      rw [hdata]
      cases s.graph.inputData? id 0 with
      | none => exact hin
      | some v => exact hin.bring v

end Session

end Dataflow
