/-
  Which snapshots can be read again after they were written.

  The reader of snapshots is strict and the writer is total.  Whatever a part of a snapshot holds is
  written in the form that its reader takes (`Takes`), with two exceptions.  A narrow number without
  a numeral is written as a null, and the reader of narrow numbers takes no null; and values that are
  nested more deeply than the reader goes are written all the same.

  So a snapshot whose parts have the sizes of their kinds (`Snapshot.Sized`), and whose numerals can
  be read, is read again exactly if its narrow numbers are finite and it is not nested too deeply
  (`Snapshot.Loadable`).  Nothing is said of what is read: a number may come back as one next to it.
-/

import Dataflow.Proofs.Texts

namespace Dataflow

open Numeric

/-! ## Numbers -/

/-- The numeral of a wide number in data can be read. -/
def WideReads (x : Float) : Prop := ∀ n, Style.data.wide? x = some n → n.float?.isSome

/-- The numeral of a narrow number in data can be read. -/
def NarrowReads (x : Float32) : Prop :=
  ∀ n, Style.narrowData.narrow? x = some n → n.float?.isSome

instance (x : Float) : Decidable (WideReads x) :=
  decidable_of_iff ((Style.data.wide? x).all fun n => n.float?.isSome) (by
    unfold WideReads
    cases Style.data.wide? x <;> simp)

instance (x : Float32) : Decidable (NarrowReads x) :=
  decidable_of_iff ((Style.narrowData.narrow? x).all fun n => n.float?.isSome) (by
    unfold NarrowReads
    cases Style.narrowData.narrow? x <;> simp)

theorem Numeric.Style.isFinite_of_numeral? {s : Style} {format : Float.Model.Format}
    {u : Float.Model.UnpackedFloat} {n : Numeral} (h : s.numeral? format u = some n) :
    u.isFinite = true := by
  cases u with
  | zero => rfl
  | finite => rfl
  | infinity => cases h
  | notANumber => cases h

namespace Record

open Json (Tree)

/-! ## Readers that take what is there -/

/-- A reader takes a tree. -/
def Takes {α : Type} (read : Tree → Option α) (t : Tree) : Prop := ∃ a, read t = some a

section Readers

variable {α β : Type} {read : Tree → Option α} {f : Form} {name : String}

theorem takes_list {ts : List Tree} : Takes (list? read) (.arr ts) ↔ ∀ t ∈ ts, Takes read t := by
  show (∃ as, ts.mapM read = some as) ↔ _
  induction ts with
  | nil => exact ⟨fun _ _ h => (nomatch h), fun _ => ⟨[], rfl⟩⟩
  | cons t ts ih =>
    rw [List.forall_mem_cons, ← ih]
    constructor
    · rintro ⟨as, has⟩
      rw [List.mapM_cons] at has
      obtain ⟨a, ha, has⟩ := Option.bind_eq_some_iff.1 has
      obtain ⟨as, has, -⟩ := Option.bind_eq_some_iff.1 has
      exact ⟨⟨a, ha⟩, as, has⟩
    · rintro ⟨⟨a, ha⟩, as, has⟩
      exact ⟨a :: as, by rw [List.mapM_cons, ha, has]; rfl⟩

theorem takes_orNull {t : Tree} (h : t ≠ .null) : Takes (orNull read) t ↔ Takes read t := by
  unfold Takes
  rw [orNull_of_ne h]
  constructor
  · rintro ⟨_, ha⟩
    obtain ⟨a, ha, -⟩ := Option.map_eq_some_iff.1 ha
    exact ⟨a, ha⟩
  · rintro ⟨a, ha⟩
    exact ⟨some a, by rw [ha]; rfl⟩

theorem length_of_list? {ts : List Tree} {as : List α} (h : list? read (.arr ts) = some as) :
    as.length = ts.length := by
  change ts.mapM read = some as at h
  induction ts generalizing as with
  | nil =>
    cases h
    rfl
  | cons t ts ih =>
    rw [List.mapM_cons] at h
    obtain ⟨a, -, h⟩ := Option.bind_eq_some_iff.1 h
    obtain ⟨rest, hrest, h⟩ := Option.bind_eq_some_iff.1 h
    cases h
    exact congrArg (· + 1) (ih hrest)

/-- A field that may be missing can be read if what is there can be. -/
theorem reads_optional (absent : α) (h : ∀ t, f.lookup name = some t → Takes read t) :
    ∃ a, f.optional? name absent read = some a := by
  unfold Form.optional?
  cases hl : f.lookup name with
  | none => exact ⟨absent, rfl⟩
  | some t => exact h t hl

/-- So for a field that is left out when there is nothing to write. -/
theorem reads_orNull {o : Option β} {write : β → Tree} (hl : f.lookup name = o.map write)
    (hn : ∀ b, write b ≠ .null) :
    (∃ a, f.optional? name none (orNull read) = some a) ↔ ∀ b ∈ o, Takes read (write b) := by
  unfold Form.optional?
  rw [hl]
  cases o with
  | none => exact ⟨fun _ _ h => (nomatch h), fun _ => ⟨none, rfl⟩⟩
  | some b =>
    refine (takes_orNull (hn b)).trans ⟨fun h _ he => ?_, fun h => h b rfl⟩
    cases he
    exact h

/-- A reader goes on with whatever it has read. -/
theorem reads_bind {o : Option α} {k : α → Option β} (ho : ∃ a, o = some a)
    (hk : ∀ a, ∃ b, k a = some b) : ∃ b, o.bind k = some b := by
  obtain ⟨a, rfl⟩ := ho
  exact hk a

theorem reads_after {o : Option α} {k : α → Option β} {a : α} (ho : o = some a)
    (hk : ∃ b, k a = some b) : ∃ b, o.bind k = some b := by
  rw [ho]
  exact hk

end Readers

/-! ## Parts -/

theorem takes_singleTree {x : Float32} (hr : NarrowReads x) :
    Takes single? (Json.singleTree x) ↔ x.isFinite = true := by
  constructor
  · rintro ⟨y, hy⟩
    unfold Json.singleTree at hy
    cases hn : Style.narrowData.narrow? x with
    | none =>
      rw [hn] at hy
      cases hy
    | some n => exact Style.isFinite_of_numeral? hn
  · intro hf
    obtain ⟨n, hn⟩ := Style.numeral?_of_isFinite Style.narrowData .binary32 hf
    have hnarrow : Style.narrowData.narrow? x = some n := hn
    have hint : n.int? = none := int?_of_isInteger (Style.isInteger_numeral? rfl hn)
    obtain ⟨y, hy⟩ := Option.isSome_iff_exists.1 (hr n hnarrow)
    refine ⟨single y, ?_⟩
    unfold Json.singleTree
    rw [hnarrow]
    simp only [single?, hint, hy, Option.map_some]

theorem takes_singles {xs : List Float32} (hr : ∀ x ∈ xs, NarrowReads x) :
    Takes (list? single?) (.arr (xs.map Json.singleTree)) ↔ ∀ x ∈ xs, x.isFinite = true := by
  rw [takes_list, List.forall_mem_map]
  exact forall₂_congr fun x hx => takes_singleTree (hr x hx)

/-- What is made of a given number of singles is read exactly if all of them are finite. -/
theorem takes_ofSingles {α : Type} {make : List Float32 → Option α} {xs : List Float32}
    (hr : ∀ x ∈ xs, NarrowReads x) (hmake : ∀ ys, ys.length = xs.length → ∃ a, make ys = some a) :
    Takes (fun t => (list? single? t).bind make) (.arr (xs.map Json.singleTree)) ↔
      ∀ x ∈ xs, x.isFinite = true := by
  rw [← takes_singles hr]
  constructor
  · rintro ⟨_, h⟩
    obtain ⟨ys, hys, -⟩ := Option.bind_eq_some_iff.1 h
    exact ⟨ys, hys⟩
  · rintro ⟨ys, hys⟩
    exact reads_after hys (hmake ys ((length_of_list? hys).trans (List.length_map ..)))

theorem takes_pointTree {p : Point} (hr : ∀ x ∈ p.singles, NarrowReads x) :
    Takes point? (pointTree p) ↔ ∀ x ∈ p.singles, x.isFinite = true := by
  refine takes_ofSingles hr fun ys hys => ?_
  match ys, hys with
  | [x, y], _ => exact ⟨⟨x, y⟩, rfl⟩

theorem takes_sizeTree {z : Size} (hr : ∀ x ∈ z.singles, NarrowReads x) :
    Takes size? (sizeTree z) ↔ ∀ x ∈ z.singles, x.isFinite = true := by
  refine takes_ofSingles hr fun ys hys => ?_
  match ys, hys with
  | [x, y], _ => exact ⟨⟨x, y⟩, rfl⟩

theorem takes_rectTree {r : Rect} (hr : ∀ x ∈ r.singles, NarrowReads x) :
    Takes rect? (rectTree r) ↔ ∀ x ∈ r.singles, x.isFinite = true := by
  refine takes_ofSingles hr fun ys hys => ?_
  match ys, hys with
  | [x, y, u, v], _ => exact ⟨⟨x, y, u, v⟩, rfl⟩

theorem takes_text (s : String) : Takes text? (.str s) := ⟨s, rfl⟩

/-- A slot type is read as itself, or as the wildcard. -/
theorem takes_slotTypeTree (t : SlotType) : Takes slotType? (slotTypeTree t) := by
  cases t with
  | any => exact ⟨_, slotType?_slotTypeTree (.inl rfl)⟩
  | event => exact ⟨_, slotType?_slotTypeTree (.inr (.inl rfl))⟩
  | named name => exact ⟨SlotType.ofName name, rfl⟩

/-! ## Forms -/

theorem takes_inputTree {s : Input} (h : ∀ k ∈ s.link, k.number ≤ idLimit) :
    Takes input? (inputTree s) := by
  have hlabel : (fieldsOf (inputTree s)).lookup "label" = s.label.map .str := by
    show (optionalField "label" Tree.str s.label).lookup "label" = _
    rw [lookup_optionalField, if_pos rfl]
  have name : ∃ a, Form.required? (fieldsOf (inputTree s)) "name" text? = some a := ⟨s.name, rfl⟩
  have type : ∃ a, Form.optional? (fieldsOf (inputTree s)) "type" .any slotType? = some a :=
    takes_slotTypeTree s.type
  have link : ∃ a, Form.optional? (fieldsOf (inputTree s)) "link" none (orNull linkId?) = some a := by
    obtain ⟨name, type, _ | k, label⟩ := s
    · exact ⟨none, rfl⟩
    · exact (takes_orNull Tree.noConfusion).2 ⟨k, linkId?_linkIdTree (h k rfl)⟩
  have label : ∃ a, Form.optional? (fieldsOf (inputTree s)) "label" none (orNull text?) = some a :=
    (reads_orNull hlabel fun _ => Tree.noConfusion).2 fun s _ => takes_text s
  exact reads_after (form_inputTree s) <| reads_bind name fun _ => reads_bind type fun _ =>
    reads_bind link fun _ => reads_bind label fun _ => ⟨_, rfl⟩

theorem takes_outputTree {s : Output} (h : ∀ k ∈ s.links, k.number ≤ idLimit) :
    Takes output? (outputTree s) := by
  have hlabel : (fieldsOf (outputTree s)).lookup "label" = s.label.map .str := by
    show (optionalField "label" Tree.str s.label).lookup "label" = _
    rw [lookup_optionalField, if_pos rfl]
  have hlinks : Takes (list? linkId?) (.arr (s.links.map linkIdTree)) :=
    ⟨s.links, list?_map fun k hk => linkId?_linkIdTree (h k hk)⟩
  have name : ∃ a, Form.required? (fieldsOf (outputTree s)) "name" text? = some a := ⟨s.name, rfl⟩
  have type : ∃ a, Form.optional? (fieldsOf (outputTree s)) "type" .any slotType? = some a :=
    takes_slotTypeTree s.type
  have links : ∃ a, Form.optional? (fieldsOf (outputTree s)) "links" none
      (orNull (list? linkId?)) = some a :=
    (takes_orNull Tree.noConfusion).2 hlinks
  have label : ∃ a, Form.optional? (fieldsOf (outputTree s)) "label" none (orNull text?) = some a :=
    (reads_orNull hlabel fun _ => Tree.noConfusion).2 fun s _ => takes_text s
  exact reads_after (form_outputTree s) <| reads_bind name fun _ => reads_bind type fun _ =>
    reads_bind links fun _ => reads_bind label fun _ => ⟨_, rfl⟩

end Record

/-- A link record whose numbers have the sizes of their kinds. -/
structure LinkRecord.Sized (l : LinkRecord) : Prop where
  id : l.id.number ≤ idLimit
  origin : l.origin.number ≤ idLimit
  originSlot : l.originSlot < Numeric.wordLimit
  target : l.target.number ≤ idLimit
  targetSlot : l.targetSlot < Numeric.wordLimit

/-- A node record whose numbers and values have the sizes of their kinds. -/
structure NodeRecord.Sized (r : NodeRecord) : Prop where
  id : ∀ id ∈ r.id, id.number ≤ idLimit
  inputs : ∀ ss ∈ r.inputs, ∀ s ∈ ss, ∀ k ∈ s.link, k.number ≤ idLimit
  outputs : ∀ ss ∈ r.outputs, ∀ s ∈ ss, ∀ k ∈ s.links, k.number ≤ idLimit
  properties : Value.ProperFields r.properties.entries
  priority : ∀ p ∈ r.priority, -2147483648 ≤ p ∧ p ≤ 2147483647
  extra : Value.ProperFields r.extra.entries

/-- A snapshot whose numbers and values have the sizes of their kinds: identities and priorities are
words, slots are counted in words, integers in values are words, and numbers in values are finite. -/
structure Snapshot.Sized (s : Snapshot) : Prop where
  nextNode : s.nextNode ≤ idLimit
  nextLink : s.nextLink ≤ idLimit
  nodes : ∀ r ∈ s.nodes, r.Sized
  links : ∀ l ∈ s.links, l.Sized
  config : Value.ProperFields s.config.entries

mutual

/-- Whether a value is proper can be computed. -/
def Value.decideProper : (v : Value) → Decidable v.Proper
  | .null | .bool _ | .str _ => decidable_of_iff True (by rw [Value.Proper])
  | .int n => decidable_of_iff (Numeric.leastWord ≤ n ∧ n < Numeric.wordLimit) (by rw [Value.Proper])
  | .float x => decidable_of_iff (x.isFinite = true) (by rw [Value.Proper])
  | .arr vs =>
    haveI := Value.decideProperItems vs
    decidable_of_iff (Value.ProperItems vs) (by rw [Value.Proper])
  | .obj fs =>
    haveI := Value.decideProperFields fs
    decidable_of_iff ((fs.map Prod.fst).Nodup ∧ Value.ProperFields fs) (by rw [Value.Proper])

def Value.decideProperItems : (vs : List Value) → Decidable (Value.ProperItems vs)
  | [] => decidable_of_iff True (by rw [Value.ProperItems])
  | v :: vs =>
    haveI := Value.decideProper v
    haveI := Value.decideProperItems vs
    decidable_of_iff (v.Proper ∧ Value.ProperItems vs) (by rw [Value.ProperItems])

def Value.decideProperFields : (fs : List (String × Value)) → Decidable (Value.ProperFields fs)
  | [] => decidable_of_iff True (by rw [Value.ProperFields])
  | (_, v) :: fs =>
    haveI := Value.decideProper v
    haveI := Value.decideProperFields fs
    decidable_of_iff (v.Proper ∧ Value.ProperFields fs) (by rw [Value.ProperFields])

end

instance (fs : List (String × Value)) : Decidable (Value.ProperFields fs) := Value.decideProperFields fs

instance (l : LinkRecord) : Decidable l.Sized :=
  decidable_of_iff (l.id.number ≤ idLimit ∧ l.origin.number ≤ idLimit ∧
      l.originSlot < Numeric.wordLimit ∧ l.target.number ≤ idLimit ∧ l.targetSlot < Numeric.wordLimit)
    ⟨fun ⟨id, origin, originSlot, target, targetSlot⟩ => ⟨id, origin, originSlot, target, targetSlot⟩,
      fun h => ⟨h.id, h.origin, h.originSlot, h.target, h.targetSlot⟩⟩

instance (r : NodeRecord) : Decidable r.Sized :=
  decidable_of_iff ((∀ id ∈ r.id, id.number ≤ idLimit) ∧
      (∀ ss ∈ r.inputs, ∀ s ∈ ss, ∀ k ∈ s.link, k.number ≤ idLimit) ∧
      (∀ ss ∈ r.outputs, ∀ s ∈ ss, ∀ k ∈ s.links, k.number ≤ idLimit) ∧
      Value.ProperFields r.properties.entries ∧
      (∀ p ∈ r.priority, -2147483648 ≤ p ∧ p ≤ 2147483647) ∧ Value.ProperFields r.extra.entries)
    ⟨fun ⟨id, inputs, outputs, properties, priority, extra⟩ =>
        ⟨id, inputs, outputs, properties, priority, extra⟩,
      fun h => ⟨h.id, h.inputs, h.outputs, h.properties, h.priority, h.extra⟩⟩

instance (s : Snapshot) : Decidable s.Sized :=
  decidable_of_iff (s.nextNode ≤ idLimit ∧ s.nextLink ≤ idLimit ∧ (∀ r ∈ s.nodes, r.Sized) ∧
      (∀ l ∈ s.links, l.Sized) ∧ Value.ProperFields s.config.entries)
    ⟨fun ⟨nextNode, nextLink, nodes, links, config⟩ => ⟨nextNode, nextLink, nodes, links, config⟩,
      fun h => ⟨h.nextNode, h.nextLink, h.nodes, h.links, h.config⟩⟩

/-- A snapshot whose narrow numbers are finite, and that is nested no deeper than a reader goes. -/
structure Snapshot.Loadable (s : Snapshot) : Prop where
  finite : ∀ x ∈ s.singles, x.isFinite = true
  nested : (Record.snapshotTree s).depth ≤ Json.nestingLimit

instance (s : Snapshot) : Decidable s.Loadable :=
  decidable_of_iff ((∀ x ∈ s.singles, x.isFinite = true) ∧
      (Record.snapshotTree s).depth ≤ Json.nestingLimit)
    ⟨fun ⟨finite, nested⟩ => ⟨finite, nested⟩, fun h => ⟨h.finite, h.nested⟩⟩

namespace Json

mutual

/-- A value is read as some value, if it is nested no deeper than there is room for. -/
theorem reads_valueTree : (v : Value) → v.Proper → (∀ x ∈ v.floats, WideReads x) → (room : Nat) →
    (valueTree v).depth ≤ room → ∃ w, valueIn? room (valueTree v) = some w
  | .null, _, _, _, _ => ⟨.null, by rw [valueTree, valueIn?]⟩
  | .bool b, _, _, _, _ => ⟨.bool b, by rw [valueTree, valueIn?]⟩
  | .str s, _, _, _, _ => ⟨.str s, by rw [valueTree, valueIn?]⟩
  | .int n, hp, _, room, _ => by
    rw [Value.Proper] at hp
    rw [valueTree]
    exact ⟨_, valueIn?_intTree room hp.1 hp.2⟩
  | .float x, hp, hr, room, _ => by
    rw [Value.Proper] at hp
    rw [Value.floats] at hr
    obtain ⟨n, hn⟩ := Style.numeral?_of_isFinite Style.data .binary64 hp
    have hwide : Style.data.wide? x = some n := hn
    have hint : n.int? = none := int?_of_isInteger (Style.isInteger_numeral? rfl hn)
    obtain ⟨y, hy⟩ := Option.isSome_iff_exists.1 (hr x (List.mem_singleton_self x) n hwide)
    refine ⟨.float y, ?_⟩
    rw [valueTree, floatTree, hwide]
    show numberValue? n = _
    rw [numberValue?, hint, hy]
    rfl
  | .arr vs, hp, hr, room, hd => by
    rw [Value.Proper] at hp
    rw [Value.floats] at hr
    rw [valueTree, Tree.depth] at hd
    obtain ⟨room, rfl⟩ : ∃ n, room = n + 1 := ⟨room - 1, by omega⟩
    obtain ⟨ws, hws⟩ := reads_itemTrees vs hp hr room (by omega)
    exact ⟨.arr ws, by rw [valueTree, valueIn?, hws]; rfl⟩
  | .obj fs, hp, hr, room, hd => by
    rw [Value.Proper] at hp
    rw [Value.floats] at hr
    rw [valueTree, Tree.depth] at hd
    obtain ⟨room, rfl⟩ : ∃ n, room = n + 1 := ⟨room - 1, by omega⟩
    obtain ⟨gs, hgs⟩ := reads_fieldTrees fs hp.2 hr room (by omega) []
    exact ⟨.obj gs, by rw [valueTree, valueIn?, hgs]; rfl⟩

theorem reads_itemTrees : (vs : List Value) → Value.ProperItems vs →
    (∀ x ∈ Value.floatsOfItems vs, WideReads x) → (room : Nat) →
    Tree.depthItems (itemTrees vs) ≤ room → ∃ ws, itemsIn? room (itemTrees vs) = some ws
  | [], _, _, _, _ => ⟨[], by rw [itemTrees, itemsIn?]⟩
  | v :: vs, hp, hr, room, hd => by
    rw [Value.ProperItems] at hp
    rw [Value.floatsOfItems] at hr
    rw [itemTrees, Tree.depthItems] at hd
    obtain ⟨w, hw⟩ := reads_valueTree v hp.1 (fun x hx => hr x (List.mem_append_left _ hx)) room
      (by omega)
    obtain ⟨ws, hws⟩ := reads_itemTrees vs hp.2 (fun x hx => hr x (List.mem_append_right _ hx)) room
      (by omega)
    exact ⟨w :: ws, by rw [itemTrees, itemsIn?, hw, hws]; rfl⟩

theorem reads_fieldTrees : (fs : List (String × Value)) → Value.ProperFields fs →
    (∀ x ∈ Value.floatsOfFields fs, WideReads x) → (room : Nat) →
    Tree.depthFields (fieldTrees fs) ≤ room → (read : List (String × Value)) →
    ∃ gs, fieldsIn? room read (fieldTrees fs) = some gs
  | [], _, _, _, _, read => ⟨read, by rw [fieldTrees, fieldsIn?]⟩
  | (k, v) :: fs, hp, hr, room, hd, read => by
    rw [Value.ProperFields] at hp
    rw [Value.floatsOfFields] at hr
    rw [fieldTrees, Tree.depthFields] at hd
    obtain ⟨w, hw⟩ := reads_valueTree v hp.1 (fun x hx => hr x (List.mem_append_left _ hx)) room
      (by omega)
    obtain ⟨gs, hgs⟩ := reads_fieldTrees fs hp.2 (fun x hx => hr x (List.mem_append_right _ hx)) room
      (by omega) (putField read k w)
    exact ⟨gs, by rw [fieldTrees, fieldsIn?, hw, Option.bind_eq_bind, Option.bind_some, hgs]⟩

end

end Json

namespace Record

open Json (Tree)

theorem takes_fieldTrees {m : Assoc String Value} (hp : Value.ProperFields m.entries)
    (hf : ∀ x ∈ Value.floatsOfFields m.entries, WideReads x) {room : Nat}
    (hd : Tree.depthFields (Json.fieldTrees m.entries) ≤ room) :
    Takes (values? room) (.obj (Json.fieldTrees m.entries)) :=
  Json.reads_fieldTrees m.entries hp hf room hd []

theorem takes_linkTree {l : LinkRecord} (h : l.Sized) : Takes link? (linkTree l) := by
  obtain ⟨type, htype⟩ := takes_slotTypeTree l.type
  refine ⟨{ l with type }, ?_⟩
  unfold linkTree link?
  simp only [linkId?_linkIdTree h.id, nodeId?_natTree h.origin, slot?_natTree h.originSlot,
    nodeId?_natTree h.target, slot?_natTree h.targetSlot, htype, Option.bind_eq_bind,
    Option.bind_some]
  rfl

/-- A group is read if its frame and its font are. -/
theorem takes_groupTree {g : Group} (hr : ∀ x ∈ g.singles, NarrowReads x) :
    Takes group? (groupTree g) ↔ ∀ x ∈ g.singles, x.isFinite = true := by
  have hfont : (fieldsOf (groupTree g)).lookup "font" = some (Json.singleTree g.font) := by
    simp [fieldsOf, groupTree, List.lookup_append, lookup_optionalField, List.lookup_cons]
  have hcolor : (fieldsOf (groupTree g)).lookup "color" = g.color.map .str := by
    simp [fieldsOf, groupTree, List.lookup_append, lookup_optionalField, List.lookup_cons]
  have hnumbers : Takes single? (Json.singleTree g.font) ∧ Takes rect? (rectTree g.frame) ↔
      ∀ x ∈ g.singles, x.isFinite = true := by
    rw [takes_singleTree (hr _ (List.mem_cons_self ..)),
      takes_rectTree fun x hx => hr x (List.mem_cons_of_mem _ hx)]
    unfold Group.singles
    rw [List.forall_mem_cons]
  rw [← hnumbers]
  constructor
  · rintro ⟨_, h⟩
    obtain ⟨f, hf, h⟩ := Option.bind_eq_some_iff.1 h
    cases (form_groupTree g).symm.trans hf
    obtain ⟨_, -, h⟩ := Option.bind_eq_some_iff.1 h
    obtain ⟨frame, hframe, h⟩ := Option.bind_eq_some_iff.1 h
    obtain ⟨_, -, h⟩ := Option.bind_eq_some_iff.1 h
    obtain ⟨font, hfont', -⟩ := Option.bind_eq_some_iff.1 h
    unfold Form.optional? at hfont'
    rw [hfont] at hfont'
    exact ⟨⟨font, hfont'⟩, frame, hframe⟩
  · rintro ⟨hfontIn, frame⟩
    have title : ∃ a, Form.optional? (fieldsOf (groupTree g)) "title" "" text? = some a :=
      takes_text g.title
    have color : ∃ a, Form.optional? (fieldsOf (groupTree g)) "color" none (orNull text?) = some a :=
      (reads_orNull hcolor fun _ => Tree.noConfusion).2 fun s _ => takes_text s
    have font : ∃ a, Form.optional? (fieldsOf (groupTree g)) "font" Group.defaultFont single? =
        some a := by
      refine reads_optional _ fun t ht => ?_
      cases hfont.symm.trans ht
      exact hfontIn
    exact reads_after (form_groupTree g) <| reads_bind title fun _ => reads_bind frame fun _ =>
      reads_bind color fun _ => reads_bind font fun _ => ⟨_, rfl⟩

/-! ## Nodes and snapshots -/

/-- The place and the extent of a node record are read exactly if their numbers are finite. -/
theorem reads_place {r : NodeRecord} (hr : ∀ x ∈ r.singles, NarrowReads x) :
    ((∃ a, Form.optional? (ownFields r) "pos" none (orNull point?) = some a) ∧
      ∃ a, Form.optional? (ownFields r) "size" none (orNull size?) = some a) ↔
      ∀ x ∈ r.singles, x.isFinite = true := by
  obtain ⟨-, -, lpos, lsize, -⟩ := lookup_ownFields r
  unfold NodeRecord.singles at hr ⊢
  simp only [List.forall_mem_append, List.forall_mem_flatMap, Option.mem_toList] at hr ⊢
  refine and_congr ?_ ?_
  · exact (reads_orNull lpos fun _ => Tree.noConfusion).trans <|
      forall₂_congr fun p hp => takes_pointTree (hr.1 p hp)
  · exact (reads_orNull lsize fun _ => Tree.noConfusion).trans <|
      forall₂_congr fun z hz => takes_sizeTree (hr.2 z hz)

/-- A node record is read if its place and its extent are. -/
theorem takes_nodeTree {r : NodeRecord} (h : r.Sized) (ha : r.Apart)
    (hr : ∀ x ∈ r.singles, NarrowReads x) (hf : ∀ x ∈ r.floats, WideReads x) {room : Nat}
    (hd : (nodeTree r).depth ≤ room + 1) :
    Takes (node? room) (nodeTree r) ↔ ∀ x ∈ r.singles, x.isFinite = true := by
  have hform := ofFields?_written distinct_nodeFields (keys_ownFields r) fun e he => fits_extra ha he
  rw [nodeTree_eq, ← reads_place hr]
  constructor
  · rintro ⟨_, h⟩
    obtain ⟨f, hread, h⟩ := Option.bind_eq_some_iff.1 h
    cases hform.symm.trans hread
    obtain ⟨_, -, h⟩ := Option.bind_eq_some_iff.1 h
    obtain ⟨_, -, h⟩ := Option.bind_eq_some_iff.1 h
    obtain ⟨pos, hpos, h⟩ := Option.bind_eq_some_iff.1 h
    obtain ⟨size, hsize, -⟩ := Option.bind_eq_some_iff.1 h
    exact ⟨⟨pos, hpos⟩, size, hsize⟩
  · rintro ⟨pos, size⟩
    obtain ⟨lid, ltype, -, -, lflags, lmode, linputs, loutputs, ltitle, lproperties, lcolor,
      lbackground, lshape, lpriority⟩ := lookup_ownFields r
    rw [nodeTree_eq, Tree.depth, depthFields_append] at hd
    have hown := depthFields_properties r
    have text : ∀ {name : String} {o : Option String}, (ownFields r).lookup name = o.map .str →
        ∃ a, Form.optional? (ownFields r) name none (orNull text?) = some a :=
      fun hl => (reads_orNull hl fun _ => Tree.noConfusion).2 fun s _ => takes_text s
    have id : ∃ a, Form.optional? (ownFields r) "id" none (orNull nodeId?) = some a :=
      (reads_orNull lid fun _ => Tree.noConfusion).2 fun i hi => ⟨i, nodeId?_natTree (h.id i hi)⟩
    have type : Form.required? (ownFields r) "type" text? = some r.type :=
      required?_of_lookup ltype rfl
    have flags := optional?_of_lookup ⟨false, false⟩ lflags (flags?_flagsTree r.flags)
    have mode : ∃ a, Form.optional? (ownFields r) "mode" none (orNull mode?) = some a :=
      (reads_orNull lmode fun _ => Tree.noConfusion).2 fun m _ => ⟨m, mode?_natTree m⟩
    have inputs : ∃ a, Form.optional? (ownFields r) "inputs" none (orNull (list? input?)) = some a :=
      (reads_orNull linputs fun _ => Tree.noConfusion).2 fun ss hss => takes_list.2 <|
        List.forall_mem_map.2 fun s hs => takes_inputTree (h.inputs ss hss s hs)
    have outputs : ∃ a, Form.optional? (ownFields r) "outputs" none (orNull (list? output?)) =
        some a :=
      (reads_orNull loutputs fun _ => Tree.noConfusion).2 fun ss hss => takes_list.2 <|
        List.forall_mem_map.2 fun s hs => takes_outputTree (h.outputs ss hss s hs)
    have properties : ∃ a, Form.optional? (ownFields r) "properties" [] (values? (room - 1)) =
        some a := by
      refine reads_optional _ fun t ht => ?_
      cases lproperties.symm.trans ht
      exact takes_fieldTrees h.properties (fun x hx => hf x (List.mem_append_left _ hx)) (by omega)
    have priority : ∃ a, Form.optional? (ownFields r) "priority" none (orNull priority?) = some a :=
      (reads_orNull lpriority fun _ => Tree.noConfusion).2 fun p hp =>
        ⟨p, integer?_intTree (by decide) (by decide) (h.priority p hp)⟩
    have extra : ∃ a, Json.fieldsIn? room [] (others nodeFields (ownFields r ++
        Json.fieldTrees r.extra.entries)) = some a := by
      rw [others_written ha]
      exact Json.reads_fieldTrees r.extra.entries h.extra
        (fun x hx => hf x (List.mem_append_right _ hx)) room (by omega) []
    -- one field after the other
    exact reads_after hform <| reads_bind id fun _ => reads_after type <|
      reads_bind pos fun _ => reads_bind size fun _ => reads_after flags <| reads_bind mode fun _ => reads_bind inputs fun _ =>
      reads_bind outputs fun _ => reads_bind (text ltitle) fun _ => reads_bind properties fun _ =>
      reads_bind (text lcolor) fun _ => reads_bind (text lbackground) fun _ =>
      reads_bind (text lshape) fun _ => reads_bind priority fun _ => reads_bind extra fun _ =>
      ⟨_, rfl⟩

/-- The nodes and the groups of a snapshot are read exactly if their numbers are finite. -/
theorem takes_nodes_groups {s : Snapshot} (h : s.Sized) (ha : ∀ r ∈ s.nodes, r.Apart)
    (hr : ∀ x ∈ s.singles, NarrowReads x) (hf : ∀ x ∈ s.floats, WideReads x)
    (hd : (snapshotTree s).depth ≤ Json.nestingLimit) :
    (Takes (list? (node? (Json.nestingLimit - 3))) (.arr (s.nodes.map nodeTree)) ∧
      Takes (list? group?) (.arr (s.groups.map groupTree))) ↔
      ∀ x ∈ s.singles, x.isFinite = true := by
  unfold Snapshot.singles at hr ⊢
  unfold Snapshot.floats at hf
  simp only [List.forall_mem_append, List.forall_mem_flatMap] at hr hf ⊢
  rw [takes_list, takes_list, List.forall_mem_map, List.forall_mem_map]
  refine and_congr (forall₂_congr fun r hmem => ?_) (forall₂_congr fun g hg => ?_)
  · exact takes_nodeTree (h.nodes r hmem) (ha r hmem) (hr.1 r hmem) (hf.1 r hmem)
      ((depth_parts hd).1 r hmem)
  · exact takes_groupTree (hr.2 g hg)

/-- A snapshot is read exactly if its narrow numbers are finite. -/
theorem takes_snapshotTree {s : Snapshot} (h : s.Sized) (ha : ∀ r ∈ s.nodes, r.Apart)
    (hr : ∀ x ∈ s.singles, NarrowReads x) (hf : ∀ x ∈ s.floats, WideReads x)
    (hd : (snapshotTree s).depth ≤ Json.nestingLimit) :
    Takes snapshot? (snapshotTree s) ↔ ∀ x ∈ s.singles, x.isFinite = true := by
  rw [← takes_nodes_groups h ha hr hf hd]
  unfold Takes snapshot?
  rw [form_snapshotTree, Option.bind_eq_bind, Option.bind_some]
  constructor
  · rintro ⟨_, h⟩
    obtain ⟨_, -, h⟩ := Option.bind_eq_some_iff.1 h
    obtain ⟨_, -, h⟩ := Option.bind_eq_some_iff.1 h
    obtain ⟨_, hnodes, h⟩ := Option.bind_eq_some_iff.1 h
    obtain ⟨_, -, h⟩ := Option.bind_eq_some_iff.1 h
    obtain ⟨_, hgroups, -⟩ := Option.bind_eq_some_iff.1 h
    exact ⟨⟨_, hnodes⟩, _, hgroups⟩
  · rintro ⟨hnodes, hgroups⟩
    have nextNode : ∃ a, Form.optional? (fieldsOf (snapshotTree s)) "next_node_id" 0
        (natural? idLimit) = some a :=
      ⟨_, natural?_natTree (by decide) h.nextNode⟩
    have nextLink : ∃ a, Form.optional? (fieldsOf (snapshotTree s)) "next_link_id" 0
        (natural? idLimit) = some a :=
      ⟨_, natural?_natTree (by decide) h.nextLink⟩
    have nodes : ∃ a, Form.optional? (fieldsOf (snapshotTree s)) "nodes" []
        (list? (node? (Json.nestingLimit - 3))) = some a := hnodes
    have links : ∃ a, Form.optional? (fieldsOf (snapshotTree s)) "links" [] (list? link?) =
        some a :=
      takes_list.2 (List.forall_mem_map.2 fun l hl => takes_linkTree (h.links l hl))
    have groups : ∃ a, Form.optional? (fieldsOf (snapshotTree s)) "groups" [] (list? group?) =
        some a := hgroups
    have config : ∃ a, Form.optional? (fieldsOf (snapshotTree s)) "config" []
        (values? (Json.nestingLimit - 2)) = some a :=
      takes_fieldTrees h.config (fun x hx => hf x (List.mem_append_right _ hx)) (depth_parts hd).2
    exact reads_bind nextNode fun _ => reads_bind nextLink fun _ =>
      reads_bind nodes fun _ => reads_bind links fun _ => reads_bind groups fun _ =>
      reads_bind config fun _ => ⟨_, rfl⟩

end Record

/-! ## Nesting -/

namespace Json

namespace Tree

theorem depthItems_le {ts : List Tree} {n : Nat} : depthItems ts ≤ n ↔ ∀ t ∈ ts, t.depth ≤ n := by
  induction ts with
  | nil => simp [depthItems]
  | cons t ts ih => rw [depthItems, Nat.max_le, ih, List.forall_mem_cons]

theorem depthFields_le {fs : List (String × Tree)} {n : Nat} :
    depthFields fs ≤ n ↔ ∀ e ∈ fs, e.2.depth ≤ n := by
  induction fs with
  | nil => simp [depthFields]
  | cons e fs ih => rw [depthFields, Nat.max_le, ih, List.forall_mem_cons]

theorem depth_map_le {α : Type} {write : α → Tree} {n : Nat} (h : ∀ a, (write a).depth ≤ n)
    (as : List α) : (arr (as.map write)).depth ≤ n + 1 := by
  rw [depth, Nat.add_le_add_iff_right, depthItems_le, List.forall_mem_map]
  exact fun a _ => h a

end Tree

mutual

/-- What is read as a value is nested no deeper than there was room for. -/
theorem depth_of_valueIn? : (t : Tree) → {room : Nat} → {v : Value} → valueIn? room t = some v →
    t.depth ≤ room
  | .null, _, _, _ | .bool _, _, _, _ | .num _, _, _, _ | .str _, _, _, _ | .torn, _, _, _ =>
    Nat.zero_le _
  | .arr ts, room, v, h => by
    cases room with
    | zero => cases h
    | succ room =>
      rw [valueIn?] at h
      obtain ⟨vs, hvs, -⟩ := Option.map_eq_some_iff.1 h
      exact Nat.succ_le_succ (depth_of_itemsIn? ts hvs)
  | .obj fs, room, v, h => by
    cases room with
    | zero => cases h
    | succ room =>
      rw [valueIn?] at h
      obtain ⟨vs, hvs, -⟩ := Option.map_eq_some_iff.1 h
      exact Nat.succ_le_succ (depth_of_fieldsIn? fs hvs)

theorem depth_of_itemsIn? : (ts : List Tree) → {room : Nat} → {vs : List Value} →
    itemsIn? room ts = some vs → Tree.depthItems ts ≤ room
  | [], _, _, _ => Nat.zero_le _
  | t :: ts, room, vs, h => by
    rw [itemsIn?] at h
    obtain ⟨v, hv, h⟩ := Option.bind_eq_some_iff.1 h
    obtain ⟨ws, hws, -⟩ := Option.bind_eq_some_iff.1 h
    exact Nat.max_le.2 ⟨depth_of_valueIn? t hv, depth_of_itemsIn? ts hws⟩

theorem depth_of_fieldsIn? : (fs : List (String × Tree)) → {room : Nat} →
    {read vs : List (String × Value)} → fieldsIn? room read fs = some vs →
    Tree.depthFields fs ≤ room
  | [], _, _, _, _ => Nat.zero_le _
  | (k, t) :: fs, room, read, vs, h => by
    rw [fieldsIn?] at h
    obtain ⟨v, hv, h⟩ := Option.bind_eq_some_iff.1 h
    exact Nat.max_le.2 ⟨depth_of_valueIn? t hv, depth_of_fieldsIn? fs h⟩

end

end Json

namespace Record

open Json (Tree)
open Json.Tree (depthFields_le depth_map_le depth depthFields depthItems)

theorem depth_singleTree (x : Float32) : (Json.singleTree x).depth = 0 := by
  unfold Json.singleTree
  split <;> rfl

theorem depth_slotTypeTree (t : SlotType) : (slotTypeTree t).depth = 0 := by
  cases t <;> rfl

theorem depthFields_optionalField {α : Type} {write : α → Tree} {n : Nat}
    (h : ∀ a, (write a).depth ≤ n) (name : String) (o : Option α) :
    depthFields (optionalField name write o) ≤ n := by
  cases o with
  | none => exact Nat.zero_le n
  | some a => exact Nat.max_le.2 ⟨h a, Nat.zero_le n⟩

theorem depth_inputTree (s : Input) : (inputTree s).depth ≤ 1 := by
  unfold inputTree
  rw [depth, depthFields_append, Nat.add_le_add_iff_right, Nat.max_le]
  refine ⟨?_, depthFields_optionalField (fun s => Nat.le_refl 0) "label" s.label⟩
  cases s.link <;> simp [depthFields, depth, depth_slotTypeTree, linkIdTree, Json.natTree, Json.intTree]

theorem depth_outputTree (s : Output) : (outputTree s).depth ≤ 2 := by
  have hlinks : (Tree.arr (s.links.map linkIdTree)).depth ≤ 1 :=
    depth_map_le (fun _ => Nat.le_refl 0) s.links
  unfold outputTree
  rw [depth, depthFields_append, Nat.add_le_add_iff_right, Nat.max_le]
  refine ⟨?_, depthFields_optionalField (fun s => Nat.zero_le 1) "label" s.label⟩
  refine Nat.max_le.2 ⟨Nat.zero_le 1, Nat.max_le.2 ⟨?_, Nat.max_le.2 ⟨hlinks, Nat.zero_le 1⟩⟩⟩
  exact Nat.le_trans (Nat.le_of_eq (depth_slotTypeTree s.type)) (Nat.zero_le 1)

theorem depth_linkTree (l : LinkRecord) : (linkTree l).depth ≤ 1 := by
  simp [linkTree, depth, depthItems, linkIdTree, Json.natTree, Json.intTree, depth_slotTypeTree]

theorem depth_pointTree (p : Point) : (pointTree p).depth ≤ 1 :=
  depth_map_le (fun x => Nat.le_of_eq (depth_singleTree x)) p.singles

theorem depth_sizeTree (z : Size) : (sizeTree z).depth ≤ 1 :=
  depth_map_le (fun x => Nat.le_of_eq (depth_singleTree x)) z.singles

theorem depth_rectTree (r : Rect) : (rectTree r).depth ≤ 1 :=
  depth_map_le (fun x => Nat.le_of_eq (depth_singleTree x)) r.singles

theorem depth_groupTree (g : Group) : (groupTree g).depth ≤ 2 := by
  unfold groupTree
  rw [depth, depthFields_append, depthFields_append, Nat.add_le_add_iff_right, Nat.max_le, Nat.max_le]
  refine ⟨⟨?_, depthFields_optionalField (fun s => Nat.zero_le 1) "color" g.color⟩, ?_⟩
  · exact Nat.max_le.2 ⟨Nat.zero_le 1, Nat.max_le.2 ⟨depth_rectTree g.frame, Nat.zero_le 1⟩⟩
  · exact Nat.max_le.2 ⟨Nat.le_trans (Nat.le_of_eq (depth_singleTree g.font)) (Nat.zero_le 1),
      Nat.zero_le 1⟩

theorem depth_flagsTree (f : Flags) : (flagsTree f).depth ≤ 1 := by
  obtain ⟨collapsed, pinned⟩ := f
  cases collapsed <;> cases pinned <;> decide

/-- Only the values of a node can be nested deeply. -/
theorem depth_nodeTree {r : NodeRecord} {n : Nat} (hn : 3 ≤ n)
    (hp : depthFields (Json.fieldTrees r.properties.entries) + 1 ≤ n)
    (he : depthFields (Json.fieldTrees r.extra.entries) ≤ n) : (nodeTree r).depth ≤ n + 1 := by
  have simple : ∀ {m : Nat}, m ≤ 3 → m ≤ n := fun h => Nat.le_trans h hn
  have field : ∀ {name : String} {t : Tree}, t.depth ≤ n → depthFields [(name, t)] ≤ n :=
    fun h => Nat.max_le.2 ⟨h, Nat.zero_le n⟩
  rw [nodeTree_eq, depth, depthFields_append, Nat.add_le_add_iff_right, Nat.max_le, ownFields]
  refine ⟨?_, he⟩
  simp only [depthFields_append, Nat.max_le, and_assoc]
  exact ⟨depthFields_optionalField (fun _ => Nat.zero_le n) ..,
    field (Nat.zero_le n),
    depthFields_optionalField (fun p => simple (Nat.le_trans (depth_pointTree p) (by decide))) ..,
    depthFields_optionalField (fun z => simple (Nat.le_trans (depth_sizeTree z) (by decide))) ..,
    field (simple (Nat.le_trans (depth_flagsTree r.flags) (by decide))),
    depthFields_optionalField (fun _ => Nat.zero_le n) ..,
    depthFields_optionalField
      (fun ss => simple (Nat.le_trans (depth_map_le depth_inputTree ss) (by decide))) ..,
    depthFields_optionalField (fun ss => simple (depth_map_le depth_outputTree ss)) ..,
    depthFields_optionalField (fun _ => Nat.zero_le n) ..,
    field hp,
    depthFields_optionalField (fun _ => Nat.zero_le n) ..,
    depthFields_optionalField (fun _ => Nat.zero_le n) ..,
    depthFields_optionalField (fun _ => Nat.zero_le n) ..,
    depthFields_optionalField (fun _ => Nat.zero_le n) ..⟩

theorem depth_of_takes_node {r : NodeRecord} (ha : r.Apart) {room : Nat} (hroom : 3 ≤ room)
    (h : Takes (node? room) (nodeTree r)) : (nodeTree r).depth ≤ room + 1 := by
  obtain ⟨-, -, -, -, -, -, -, -, -, lproperties, -⟩ := lookup_ownFields r
  have hform := ofFields?_written distinct_nodeFields (keys_ownFields r) fun e he => fits_extra ha he
  obtain ⟨_, h⟩ := h
  rw [nodeTree_eq] at h
  obtain ⟨f, hf, h⟩ := Option.bind_eq_some_iff.1 h
  cases hform.symm.trans hf
  iterate 9 obtain ⟨_, -, h⟩ := Option.bind_eq_some_iff.1 h
  obtain ⟨_, hproperties, h⟩ := Option.bind_eq_some_iff.1 h
  iterate 4 obtain ⟨_, -, h⟩ := Option.bind_eq_some_iff.1 h
  obtain ⟨_, hextra, -⟩ := Option.bind_eq_some_iff.1 h
  unfold Form.optional? at hproperties
  rw [lproperties] at hproperties
  rw [others_written ha] at hextra
  have hp := Json.depth_of_fieldsIn? _ hproperties
  exact depth_nodeTree hroom (by omega) (Json.depth_of_fieldsIn? _ hextra)

/-- A snapshot that is read is nested no deeper than the reader goes. -/
theorem depth_of_takes_snapshot {s : Snapshot} (ha : ∀ r ∈ s.nodes, r.Apart)
    (h : Takes snapshot? (snapshotTree s)) : (snapshotTree s).depth ≤ Json.nestingLimit := by
  unfold Takes snapshot? at h
  rw [form_snapshotTree, Option.bind_eq_bind, Option.bind_some] at h
  obtain ⟨_, h⟩ := h
  iterate 2 obtain ⟨_, -, h⟩ := Option.bind_eq_some_iff.1 h
  obtain ⟨_, hnodes, h⟩ := Option.bind_eq_some_iff.1 h
  iterate 2 obtain ⟨_, -, h⟩ := Option.bind_eq_some_iff.1 h
  obtain ⟨_, hconfig, -⟩ := Option.bind_eq_some_iff.1 h
  have hnode : Takes (list? (node? (Json.nestingLimit - 3))) (.arr (s.nodes.map nodeTree)) :=
    ⟨_, hnodes⟩
  have nodes : depth (.arr (s.nodes.map nodeTree)) ≤ 126 := by
    rw [depth, Nat.add_le_add_iff_right, Json.Tree.depthItems_le, List.forall_mem_map]
    intro r hr
    exact depth_of_takes_node (ha r hr) (by decide)
      (takes_list.1 hnode _ (List.mem_map_of_mem hr))
  have links : depth (.arr (s.links.map linkTree)) ≤ 126 :=
    Nat.le_trans (depth_map_le depth_linkTree s.links) (by decide)
  have groups : depth (.arr (s.groups.map groupTree)) ≤ 126 :=
    Nat.le_trans (depth_map_le depth_groupTree s.groups) (by decide)
  have config : depth (.obj (Json.fieldTrees s.config.entries)) ≤ 126 :=
    Nat.succ_le_succ (Json.depth_of_fieldsIn? _ hconfig)
  unfold snapshotTree
  rw [depth, Json.nestingLimit, Nat.add_le_add_iff_right]
  exact Nat.max_le.2 ⟨Nat.zero_le _, Nat.max_le.2 ⟨Nat.zero_le _, Nat.max_le.2 ⟨nodes,
    Nat.max_le.2 ⟨links, Nat.max_le.2 ⟨groups, Nat.max_le.2 ⟨config, Nat.zero_le _⟩⟩⟩⟩⟩⟩

end Record

/-- Both texts of a snapshot are read exactly if it is loadable. -/
theorem Snapshot.reads_texts {s : Snapshot} (h : s.Sized) (ha : ∀ r ∈ s.nodes, r.Apart)
    (hr : ∀ x ∈ s.singles, NarrowReads x) (hf : ∀ x ∈ s.floats, WideReads x) :
    ((∃ t, Snapshot.read? s.text = some t) ↔ s.Loadable)
      ∧ ((∃ t, Snapshot.read? s.prettyText = some t) ↔ s.Loadable) := by
  have hwhole : (Record.snapshotTree s).Whole := Record.whole_snapshotTree s
  have htree : Record.Takes Record.snapshot? (Record.snapshotTree s) ↔ s.Loadable := by
    constructor
    · intro ht
      have hd := Record.depth_of_takes_snapshot ha ht
      exact ⟨(Record.takes_snapshotTree h ha hr hf hd).1 ht, hd⟩
    · rintro ⟨hfinite, hd⟩
      exact (Record.takes_snapshotTree h ha hr hf hd).2 hfinite
  unfold Snapshot.read? Snapshot.text Snapshot.prettyText
  rw [Json.Tree.read?_text hwhole, Json.Tree.read?_prettyText hwhole, Option.bind_some]
  exact ⟨htree, htree⟩

end Dataflow
