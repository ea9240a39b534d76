/-
  The text of a snapshot, without blanks or with one item per line, reads as the snapshot.

  A snapshot is written as a tree without torn parts, so its text is cut into the tokens of that
  tree and read as that tree, in either way of writing; and the tree is read as the snapshot.
-/

import Dataflow.Proofs.Records

namespace Dataflow

open Json (Tree)

namespace Json.Tree

/-! ## Trees without torn parts -/

theorem wholeItems_iff {ts : List Tree} : WholeItems ts ↔ ∀ t ∈ ts, t.Whole := by
  induction ts with
  | nil => exact ⟨fun _ _ h => (nomatch h), fun _ => trivial⟩
  | cons t ts ih => rw [WholeItems, ih, List.forall_mem_cons]

theorem wholeFields_iff {fs : List (String × Tree)} : WholeFields fs ↔ ∀ f ∈ fs, f.2.Whole := by
  induction fs with
  | nil => exact ⟨fun _ _ h => (nomatch h), fun _ => trivial⟩
  | cons f fs ih => rw [WholeFields, ih, List.forall_mem_cons]

theorem whole_arr_map {α : Type} {write : α → Tree} (h : ∀ a, (write a).Whole) (as : List α) :
    (arr (as.map write)).Whole := by
  rw [Whole, wholeItems_iff]
  intro t ht
  obtain ⟨a, _, rfl⟩ := List.mem_map.1 ht
  exact h a

end Json.Tree

namespace Record

open Json.Tree

theorem wholeFields_append {fs gs : List (String × Tree)} (hf : WholeFields fs)
    (hg : WholeFields gs) : WholeFields (fs ++ gs) := by
  rw [wholeFields_iff] at *
  exact List.forall_mem_append.2 ⟨hf, hg⟩

theorem wholeFields_optionalField {α : Type} (name : String) {write : α → Tree}
    (h : ∀ a, (write a).Whole) (o : Option α) : WholeFields (optionalField name write o) := by
  cases o with
  | none => exact trivial
  | some a => exact ⟨h a, trivial⟩

theorem whole_str (s : String) : (Tree.str s).Whole := trivial

theorem whole_intTree (n : Int) : (Json.intTree n).Whole := trivial

theorem whole_linkIdTree (id : LinkId) : (linkIdTree id).Whole := trivial

theorem whole_pointTree (p : Point) : (pointTree p).Whole :=
  whole_arr_map Json.whole_singleTree p.singles

theorem whole_sizeTree (s : Size) : (sizeTree s).Whole :=
  whole_arr_map Json.whole_singleTree s.singles

theorem whole_rectTree (r : Rect) : (rectTree r).Whole :=
  whole_arr_map Json.whole_singleTree r.singles

theorem whole_slotTypeTree (t : SlotType) : (slotTypeTree t).Whole := Json.whole_valueTree t.value

theorem whole_flagsTree (f : Flags) : (flagsTree f).Whole := by
  obtain ⟨collapsed, pinned⟩ := f
  cases collapsed <;> cases pinned <;> simp [flagsTree, flagField, Whole, WholeFields]

theorem whole_inputTree (s : Input) : (inputTree s).Whole := by
  refine ⟨trivial, whole_slotTypeTree s.type, ?_,
    wholeFields_optionalField "label" whole_str s.label⟩
  cases s.link <;> exact trivial

theorem whole_outputTree (s : Output) : (outputTree s).Whole :=
  ⟨trivial, whole_slotTypeTree s.type, whole_arr_map whole_linkIdTree s.links,
    wholeFields_optionalField "label" whole_str s.label⟩

theorem whole_linkTree (l : LinkRecord) : (linkTree l).Whole :=
  ⟨trivial, trivial, trivial, trivial, trivial, whole_slotTypeTree l.type, trivial⟩

theorem whole_groupTree (g : Group) : (groupTree g).Whole := by
  refine wholeFields_append (wholeFields_append ⟨trivial, whole_rectTree g.frame, trivial⟩ ?_) ?_
  · exact wholeFields_optionalField "color" whole_str g.color
  · exact ⟨Json.whole_singleTree g.font, trivial⟩

theorem whole_nodeTree (r : NodeRecord) : (nodeTree r).Whole := by
  have hmode : ∀ m : Mode, (Json.natTree m.number).Whole := fun m => whole_intTree m.number
  have hid : ∀ id : NodeId, (Json.natTree id.number).Whole := fun id => whole_intTree id.number
  have hproperties : (Tree.obj (Json.fieldTrees r.properties.entries)).Whole :=
    Json.whole_fieldTrees r.properties.entries
  rw [nodeTree_eq, Whole, ownFields]
  repeat' apply wholeFields_append
  · exact wholeFields_optionalField _ hid r.id
  · exact ⟨whole_str r.type, trivial⟩
  · exact wholeFields_optionalField _ whole_pointTree r.pos
  · exact wholeFields_optionalField _ whole_sizeTree r.size
  · exact ⟨whole_flagsTree r.flags, trivial⟩
  · exact wholeFields_optionalField _ hmode r.mode
  · exact wholeFields_optionalField _ (whole_arr_map whole_inputTree) r.inputs
  · exact wholeFields_optionalField _ (whole_arr_map whole_outputTree) r.outputs
  · exact wholeFields_optionalField _ whole_str r.title
  · exact ⟨hproperties, trivial⟩
  · exact wholeFields_optionalField _ whole_str r.color
  · exact wholeFields_optionalField _ whole_str r.background
  · exact wholeFields_optionalField _ whole_str r.shape
  · exact wholeFields_optionalField _ whole_intTree r.priority
  · exact Json.whole_fieldTrees r.extra.entries

theorem whole_snapshotTree (s : Snapshot) : (snapshotTree s).Whole :=
  ⟨trivial, trivial, whole_arr_map whole_nodeTree s.nodes, whole_arr_map whole_linkTree s.links,
    whole_arr_map whole_groupTree s.groups, Json.whole_fieldTrees s.config.entries, trivial⟩

end Record

/-! ## The round trip -/

/-- The text of a value reads as the value. -/
theorem Json.readValue?_text {v : Value} (h : v.Proper) (hf : ∀ x ∈ v.floats, WideReturns x)
    (hd : (valueTree v).depth ≤ nestingLimit) : readValue? v.text = some v := by
  unfold readValue? Value.text
  rw [Tree.read?_text (whole_valueTree v), Option.bind_eq_bind, Option.bind_some,
    valueIn?_valueTree v h hf nestingLimit hd]

/-- Both texts of a snapshot read as the snapshot, if every number in it is the one that its own
text denotes. -/
theorem Snapshot.texts_read_back {s : Snapshot} (h : s.Recordable)
    (hs : ∀ x ∈ s.singles, NarrowReturns x) (hf : ∀ x ∈ s.floats, WideReturns x) :
    Snapshot.read? s.text = some s ∧ Snapshot.read? s.prettyText = some s := by
  have htree : Record.snapshot? (Record.snapshotTree s) = some s :=
    Record.snapshot?_snapshotTree h hs hf
  have hwhole : (Record.snapshotTree s).Whole := Record.whole_snapshotTree s
  constructor
  · unfold Snapshot.read? Snapshot.text
    rw [Json.Tree.read?_text hwhole, Option.bind_some, htree]
  · unfold Snapshot.read? Snapshot.prettyText
    rw [Json.Tree.read?_prettyText hwhole, Option.bind_some, htree]

/-- A node with everything recorded that can be left out, beside one with nothing. -/
def variedSnapshot : Snapshot where
  nextNode := 7
  nextLink := 3
  nodes :=
    [{ id := some ⟨1⟩, type := "logic/gate", pos := some ⟨1.5, -2.0⟩, size := some ⟨140.0, 0.1⟩
       flags := ⟨true, false⟩, mode := some .onEvent
       inputs := some
        [⟨"on", .event, none, none⟩, ⟨"in", .ofName "number,string", some ⟨2⟩, some "In"⟩]
       outputs := some [⟨"out", .any, [⟨2⟩], none, none⟩]
       title := some "a \"quoted\"\n\\ title"
       properties := .ofList [("z", .float 0.3), ("a", .obj [("deep", .arr [.null, .int (-3)])])]
       color := some "#fff", background := some "", shape := some "box", priority := some (-1)
       extra := .ofList [("note", .bool true), ("kept", .float 1e21)] },
     .new "basic/plain"]
  links := [⟨⟨2⟩, ⟨1⟩, 0, ⟨1⟩, 1, .ofName "number"⟩]
  groups := [.new "frame"]
  config := .ofList [("version", .float 0.4)]

theorem variedSnapshot_recordable : variedSnapshot.Recordable where
  nextNode := by decide
  nextLink := by decide
  nodes := by
    rw [variedSnapshot, List.forall_mem_cons, List.forall_mem_singleton]
    constructor
    · exact {
        id := by decide
        inputs := by
          rintro _ ⟨⟩
          rw [List.forall_mem_cons, List.forall_mem_singleton]
          exact ⟨⟨.inr (.inl rfl), nofun⟩, ⟨.inr (.inr ⟨"number,string", rfl⟩), by decide⟩⟩
        outputs := by
          rintro _ ⟨⟩
          rw [List.forall_mem_singleton]
          exact ⟨.inl rfl, by decide, rfl⟩
        properties := by
          show Value.ProperFields [_, _]
          simp only [Value.ProperFields, Value.Proper, Value.ProperItems]
          decide +kernel
        priority := by decide
        extra := by
          show Value.ProperFields [_, _]
          simp only [Value.ProperFields, Value.Proper]
          decide +kernel
        names := by decide }
    · exact {
        id := nofun
        inputs := nofun
        outputs := nofun
        properties := trivial
        priority := nofun
        extra := trivial
        names := nofun }
  links := by
    rw [variedSnapshot, List.forall_mem_singleton]
    exact ⟨by decide, by decide, by decide, by decide, by decide, .inr (.inr ⟨"number", rfl⟩)⟩
  config := by
    show Value.ProperFields [_]
    simp only [Value.ProperFields, Value.Proper]
    decide +kernel
  finite := by decide +kernel
  nested := by decide +kernel

theorem variedSnapshot_reads_back :
    variedSnapshot.Recordable ∧ (∀ x ∈ variedSnapshot.singles, NarrowReturns x)
      ∧ (∀ x ∈ variedSnapshot.floats, WideReturns x)
      ∧ Snapshot.read? variedSnapshot.text = some variedSnapshot
      ∧ Snapshot.read? variedSnapshot.prettyText = some variedSnapshot := by
  have hs : ∀ x ∈ variedSnapshot.singles, NarrowReturns x := by decide +kernel
  have hf : ∀ x ∈ variedSnapshot.floats, WideReturns x := by decide +kernel
  exact ⟨variedSnapshot_recordable, hs, hf,
    Snapshot.texts_read_back variedSnapshot_recordable hs hf⟩

end Dataflow
