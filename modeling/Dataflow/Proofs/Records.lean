/-
  Reading the text of a snapshot gives the snapshot.

  A record is written as the list of its own fields, some of them left out, and for a node also
  the fields that are not its own.  Whatever is left out, the reader finds each field that was
  written under its name, passes over the others, and takes a field that is not there for the one
  value that is not written.  So every part comes back from its tree, and from the parts the
  record, the list of records and the snapshot.

  What a snapshot must satisfy is `Snapshot.Recordable`: its identities and priorities are words
  of their sizes, its slot types are built from names, its outputs hold no data, its other fields
  have other names, its numbers are finite and its text is not nested too deeply.
-/

import Mathlib.Data.List.Nodup
import Dataflow.Proofs.Assoc
import Dataflow.Proofs.Values
import Dataflow.Record.Reader
import Dataflow.Record.Writer

namespace Dataflow.Record

open Json (Tree)

/-! ## Finding the fields -/

/-- No two fields have one name, and none is known by the name of another. -/
def Distinct (known : List FieldName) : Prop :=
  (known.map FieldName.name).Nodup ∧ ∀ f ∈ known, ∀ g ∈ known, f.other ≠ some g.name

instance (known : List FieldName) : Decidable (Distinct known) := by
  unfold Distinct
  infer_instance

section Forms

variable {known : List FieldName}

theorem find?_name (hd : Distinct known) {f : FieldName} (hf : f ∈ known) :
    known.find? (·.fits f.name) = some f := by
  have hself : f.fits f.name = true := by
    unfold FieldName.fits
    rw [decide_eq_true rfl, Bool.true_or]
  cases hg : known.find? (·.fits f.name) with
  | none => exact absurd hself (List.find?_eq_none.1 hg f hf)
  | some g =>
    have hmem : g ∈ known := List.mem_of_find?_eq_some hg
    have hfits : g.fits f.name = true := by simpa using List.find?_some hg
    unfold FieldName.fits at hfits
    rw [Bool.or_eq_true, decide_eq_true_eq, decide_eq_true_eq] at hfits
    rcases hfits with hname | hother
    · rw [List.inj_on_of_nodup_map hd.1 hmem hf hname]
    · exact absurd hother (hd.2 g hmem f hf)

/-- Fields with other names are passed over. -/
theorem ofFields?_extra {extra : List (String × Tree)}
    (he : ∀ e ∈ extra, ∀ f ∈ known, f.fits e.1 = false) (found : Form) :
    Form.ofFields? known found extra = some found := by
  induction extra with
  | nil => rfl
  | cons e extra ih =>
    obtain ⟨key, t⟩ := e
    have hnone : known.find? (·.fits key) = none := by
      rw [List.find?_eq_none]
      intro f hf
      rw [he (key, t) (List.mem_cons_self ..) f hf]
      exact Bool.false_ne_true
    rw [Form.ofFields?, hnone]
    exact ih fun e' he' => he e' (List.mem_cons_of_mem _ he')

/-- The fields that a record has under their own names are found, and others passed over. -/
theorem ofFields?_append (hd : Distinct known) {own extra : List (String × Tree)}
    (ho : ∀ e ∈ own, e.1 ∈ known.map FieldName.name)
    (he : ∀ e ∈ extra, ∀ f ∈ known, f.fits e.1 = false) (found : Form)
    (hn : ((found ++ own).map Prod.fst).Nodup) :
    Form.ofFields? known found (own ++ extra) = some (found ++ own) := by
  induction own generalizing found with
  | nil =>
    rw [List.nil_append, List.append_nil]
    exact ofFields?_extra he found
  | cons e own ih =>
    obtain ⟨key, t⟩ := e
    obtain ⟨f, hf, hname⟩ := List.mem_map.1 (ho (key, t) (List.mem_cons_self ..))
    have hkey : key = f.name := hname.symm
    subst hkey
    have hnew : found.any (·.1 = f.name) = false := by
      rw [List.map_append, List.nodup_append] at hn
      rw [List.any_eq_false]
      intro e' he' heq
      exact hn.2.2 e'.1 (List.mem_map_of_mem he') f.name (List.mem_cons_self ..)
        (of_decide_eq_true heq)
    have hassoc : found ++ (f.name, t) :: own = found ++ [(f.name, t)] ++ own := by
      rw [List.append_assoc]
      rfl
    rw [List.cons_append, Form.ofFields?, find?_name hd hf]
    simp only [hnew, Bool.false_eq_true, if_false]
    rw [ih (fun e' he' => ho e' (List.mem_cons_of_mem _ he')) _ (hassoc ▸ hn), hassoc]

/-- Written in their order, some of them left out, the fields of a record are all found. -/
theorem ofFields?_written (hd : Distinct known) {own extra : List (String × Tree)}
    (hs : (own.map Prod.fst).Sublist (known.map FieldName.name))
    (he : ∀ e ∈ extra, ∀ f ∈ known, f.fits e.1 = false) :
    Form.ofFields? known [] (own ++ extra) = some own :=
  ofFields?_append hd (fun _ h => hs.subset (List.mem_map_of_mem h)) he [] (hs.nodup hd.1)

theorem read?_written (hd : Distinct known) {own : List (String × Tree)}
    (hs : (own.map Prod.fst).Sublist (known.map FieldName.name)) :
    Form.read? known (.obj own) = some own := by
  have h := ofFields?_written hd hs (fun e (he : e ∈ []) => nomatch he)
  rwa [List.append_nil] at h

end Forms

/-! ## Reading a field -/

section Fields

variable {α β : Type} {name key : String} {write : α → Tree} {read : Tree → Option α}

theorem keys_optionalField (name : String) (write : α → Tree) (o : Option α) :
    ((optionalField name write o).map Prod.fst).Sublist [name] := by
  cases o with
  | none => exact List.nil_sublist _
  | some a => exact List.Sublist.refl _

theorem lookup_optionalField (name key : String) (write : α → Tree) (o : Option α) :
    (optionalField name write o).lookup key = if key = name then o.map write else none := by
  cases o with
  | none => simp [optionalField]
  | some a =>
    show [(name, write a)].lookup key = _
    rw [List.lookup_cons]
    by_cases h : key = name
    · simp [h]
    · have hb : (key == name) = false := beq_eq_false_iff_ne.2 h
      simp [h, hb]

/-- A reader goes on with what it has read. -/
theorem bind_of_some {o : Option α} {a : α} {k : α → Option β} {b : β} (ho : o = some a)
    (hk : k a = some b) : o.bind k = some b := by
  rw [ho]
  exact hk

theorem required?_of_lookup {f : Form} {t : Tree} {a : α} (hl : f.lookup name = some t)
    (hr : read t = some a) : f.required? name read = some a := by
  unfold Form.required?
  rw [hl, Option.bind_some, hr]

theorem optional?_of_lookup {f : Form} {t : Tree} {a : α} (absent : α)
    (hl : f.lookup name = some t) (hr : read t = some a) :
    f.optional? name absent read = some a := by
  unfold Form.optional?
  rw [hl]
  exact hr

theorem orNull_of_ne {t : Tree} (h : t ≠ .null) : orNull read t = (read t).map some := by
  cases t <;> first | rfl | exact absurd rfl h

/-- A field that may be left out comes back, whether it was or not. -/
theorem optional?_orNull {f : Form} {o : Option α} (hl : f.lookup name = o.map write)
    (hr : ∀ a ∈ o, read (write a) = some a) (hn : ∀ a, write a ≠ .null) :
    f.optional? name none (orNull read) = some o := by
  unfold Form.optional?
  rw [hl]
  cases o with
  | none => rfl
  | some a =>
    show orNull read (write a) = _
    rw [orNull_of_ne (hn a), hr a rfl]
    rfl

theorem list?_map {as : List α} (h : ∀ a ∈ as, read (write a) = some a) :
    list? read (.arr (as.map write)) = some as := by
  show (as.map write).mapM read = some as
  induction as with
  | nil => rfl
  | cons a as ih =>
    rw [List.map_cons, List.mapM_cons, h a (List.mem_cons_self ..),
      ih fun b hb => h b (List.mem_cons_of_mem a hb)]
    rfl

end Fields

/-! ## Parts -/

theorem integer?_intTree {least most n : Int} (hl : Numeric.leastWord ≤ least)
    (hm : most < Numeric.wordLimit) (h : least ≤ n ∧ n ≤ most) :
    integer? least most (Json.intTree n) = some n := by
  have hint : (Numeric.Numeral.ofInt n).int? = some n := Numeric.int?_ofInt (by omega) (by omega)
  show ((Numeric.Numeral.ofInt n).int?.bind fun k => if least ≤ k ∧ k ≤ most then some k else none)
    = some n
  rw [hint]
  exact if_pos h

theorem natural?_natTree {most n : Nat} (hm : most < Numeric.wordLimit) (h : n ≤ most) :
    natural? most (Json.natTree n) = some n := by
  have hint := @integer?_intTree 0 most n (by decide) (by omega) (by omega)
  unfold natural? Json.natTree
  rw [hint]
  rfl

theorem nodeId?_natTree {id : NodeId} (h : id.number ≤ idLimit) :
    nodeId? (Json.natTree id.number) = some id := by
  unfold nodeId?
  rw [natural?_natTree (by decide) h]
  rfl

theorem linkId?_linkIdTree {id : LinkId} (h : id.number ≤ idLimit) :
    linkId? (linkIdTree id) = some id := by
  unfold linkId? linkIdTree
  rw [natural?_natTree (by decide) h]
  rfl

theorem mode?_natTree (m : Mode) : mode? (Json.natTree m.number) = some m := by
  cases m <;> decide

theorem slot?_natTree {n : Nat} (h : n < Numeric.wordLimit) : slot? (Json.natTree n) = some n :=
  natural?_natTree (by decide) (by omega)

theorem single?_singleTree {x : Float32} (hf : x.isFinite = true) (hr : NarrowReturns x) :
    single? (Json.singleTree x) = some x := by
  obtain ⟨n, hn⟩ := Numeric.Style.numeral?_of_isFinite Numeric.Style.narrowData .binary32 hf
  have hnarrow : Numeric.Style.narrowData.narrow? x = some n := hn
  have hint : n.int? = none :=
    Numeric.int?_of_isInteger (Numeric.Style.isInteger_numeral? rfl hn)
  unfold Json.singleTree
  rw [hnarrow]
  rw [single?, hint]
  exact hr n hnarrow

theorem flags?_flagsTree (f : Flags) : flags? (flagsTree f) = some f := by
  obtain ⟨collapsed, pinned⟩ := f
  cases collapsed <;> cases pinned <;> decide

end Dataflow.Record

namespace Dataflow

/-- A slot type that is the wildcard, that of events, or made from a name. -/
def SlotType.Regular (t : SlotType) : Prop := t = any ∨ t = event ∨ ∃ name, t = ofName name

namespace Record

open Json (Tree)

theorem ofValue_value {t : SlotType} (h : t.Regular) : SlotType.ofValue t.value = .ok t := by
  rcases h with rfl | rfl | ⟨name, rfl⟩
  · rfl
  · rfl
  · unfold SlotType.ofName
    split
    · rfl
    · next hname =>
      show Except.ok (SlotType.ofName name) = _
      unfold SlotType.ofName
      rw [if_neg hname]

theorem slotType?_slotTypeTree {t : SlotType} (h : t.Regular) :
    slotType? (slotTypeTree t) = some t := by
  have hvalue : Json.valueIn? 0 (slotTypeTree t) = some t.value := by
    cases t with
    | any => exact Json.valueIn?_intTree 0 (by decide) (by decide)
    | event => exact Json.valueIn?_intTree 0 (by decide) (by decide)
    | named name => rfl
  unfold slotType?
  rw [hvalue, Option.bind_eq_bind, Option.bind_some, ofValue_value h]
  rfl

end Record

/-! ## Slots, links and groups -/

/-- An input whose parts can be recorded. -/
structure Input.Recordable (s : Input) : Prop where
  type : s.type.Regular
  link : ∀ id ∈ s.link, id.number ≤ idLimit

/-- An output whose parts can be recorded; its data is not. -/
structure Output.Recordable (s : Output) : Prop where
  type : s.type.Regular
  links : ∀ id ∈ s.links, id.number ≤ idLimit
  data : s.data = none

/-- A link record whose parts have the sizes that are recorded. -/
structure LinkRecord.Recordable (l : LinkRecord) : Prop where
  id : l.id.number ≤ idLimit
  origin : l.origin.number ≤ idLimit
  originSlot : l.originSlot < Numeric.wordLimit
  target : l.target.number ≤ idLimit
  targetSlot : l.targetSlot < Numeric.wordLimit
  type : l.type.Regular

/-- The coordinates of a place. -/
def Point.singles (p : Point) : List Float32 := [p.x, p.y]

/-- The measures of an extent. -/
def Size.singles (s : Size) : List Float32 := [s.width, s.height]

/-- The coordinates and measures of a rectangle. -/
def Rect.singles (r : Rect) : List Float32 := [r.x, r.y, r.width, r.height]

/-- The narrow numbers of a group. -/
def Group.singles (g : Group) : List Float32 := g.font :: g.frame.singles

/-- A narrow number that comes back from its text. -/
def Settled (x : Float32) : Prop := x.isFinite = true ∧ NarrowReturns x

namespace Record

open Json (Tree)

/-- The fields of an object. -/
def fieldsOf : Tree → List (String × Tree)
  | .obj fields => fields
  | _ => []

theorem form_inputTree (s : Input) :
    Form.read? [.only "name", .only "type", .only "link", .only "label"] (inputTree s)
      = some (fieldsOf (inputTree s)) := by
  apply read?_written (by decide)
  exact (List.Sublist.refl ["name", "type", "link"]).append (keys_optionalField ..)

theorem input?_inputTree {s : Input} (h : s.Recordable) : input? (inputTree s) = some s := by
  have hlabel : (fieldsOf (inputTree s)).lookup "label" = s.label.map .str := by
    show (optionalField "label" Tree.str s.label).lookup "label" = _
    rw [lookup_optionalField, if_pos rfl]
  have name : Form.required? (fieldsOf (inputTree s)) "name" text? = some s.name := rfl
  have type : Form.optional? (fieldsOf (inputTree s)) "type" .any slotType? = some s.type :=
    slotType?_slotTypeTree h.type
  have link : Form.optional? (fieldsOf (inputTree s)) "link" none (orNull linkId?) = some s.link := by
    show orNull linkId? _ = some s.link
    cases hs : s.link with
    | none => rfl
    | some id =>
      show (linkId? (linkIdTree id)).map some = _
      rw [linkId?_linkIdTree (h.link id hs)]
      rfl
  have label : Form.optional? (fieldsOf (inputTree s)) "label" none (orNull text?)
      = some s.label :=
    optional?_orNull hlabel (fun _ _ => rfl) (fun _ => Tree.noConfusion)
  simp only [input?, form_inputTree s, name, type, link, label, Option.bind_eq_bind, Option.bind_some]
  rfl

theorem form_outputTree (s : Output) :
    Form.read? [.only "name", .only "type", .only "links", .only "label"] (outputTree s)
      = some (fieldsOf (outputTree s)) := by
  apply read?_written (by decide)
  exact (List.Sublist.refl ["name", "type", "links"]).append (keys_optionalField ..)

theorem output?_outputTree {s : Output} (h : s.Recordable) : output? (outputTree s) = some s := by
  have hlinks : list? linkId? (.arr (s.links.map linkIdTree)) = some s.links :=
    list?_map fun id hid => linkId?_linkIdTree (h.links id hid)
  have hlabel : (fieldsOf (outputTree s)).lookup "label" = s.label.map .str := by
    show (optionalField "label" Tree.str s.label).lookup "label" = _
    rw [lookup_optionalField, if_pos rfl]
  have name : Form.required? (fieldsOf (outputTree s)) "name" text? = some s.name := rfl
  have type : Form.optional? (fieldsOf (outputTree s)) "type" .any slotType? = some s.type :=
    slotType?_slotTypeTree h.type
  have links : Form.optional? (fieldsOf (outputTree s)) "links" none (orNull (list? linkId?))
      = some (some s.links) := by
    show (list? linkId? (.arr (s.links.map linkIdTree))).map some = _
    rw [hlinks]
    rfl
  have label : Form.optional? (fieldsOf (outputTree s)) "label" none (orNull text?)
      = some s.label :=
    optional?_orNull hlabel (fun _ _ => rfl) (fun _ => Tree.noConfusion)
  have data : (none : Option Value) = s.data := h.data.symm
  simp only [output?, form_outputTree s, name, type, links, label, Option.bind_eq_bind, Option.bind_some, data]
  rfl

theorem link?_linkTree {l : LinkRecord} (h : l.Recordable) : link? (linkTree l) = some l := by
  unfold linkTree link?
  simp only [linkId?_linkIdTree h.id, nodeId?_natTree h.origin, slot?_natTree h.originSlot,
    nodeId?_natTree h.target, slot?_natTree h.targetSlot, slotType?_slotTypeTree h.type,
    Option.bind_eq_bind, Option.bind_some]
  rfl

theorem list?_singles (xs : List Float32) (h : ∀ x ∈ xs, Settled x) :
    list? single? (.arr (xs.map Json.singleTree)) = some xs :=
  list?_map fun x hx => single?_singleTree (h x hx).1 (h x hx).2

theorem point?_pointTree {p : Point} (h : ∀ x ∈ p.singles, Settled x) :
    point? (pointTree p) = some p := by
  have hlist : list? single? (pointTree p) = some [p.x, p.y] := list?_singles p.singles h
  unfold point?
  rw [hlist]
  rfl

theorem size?_sizeTree {s : Size} (h : ∀ x ∈ s.singles, Settled x) :
    size? (sizeTree s) = some s := by
  have hlist : list? single? (sizeTree s) = some [s.width, s.height] := list?_singles s.singles h
  unfold size?
  rw [hlist]
  rfl

theorem rect?_rectTree {r : Rect} (h : ∀ x ∈ r.singles, Settled x) :
    rect? (rectTree r) = some r := by
  have hlist : list? single? (rectTree r) = some [r.x, r.y, r.width, r.height] :=
    list?_singles r.singles h
  unfold rect?
  rw [hlist]
  rfl

theorem form_groupTree (g : Group) :
    Form.read? [.only "title", .only "bounding", .only "color", .only "font"] (groupTree g)
      = some (fieldsOf (groupTree g)) := by
  apply read?_written (by decide)
  show List.Sublist (List.map Prod.fst (_ ++ _ ++ _))
    (["title", "bounding"] ++ ["color"] ++ ["font"])
  rw [List.map_append, List.map_append]
  exact ((List.Sublist.refl _).append (keys_optionalField ..)).append (List.Sublist.refl _)

theorem group?_groupTree {g : Group} (h : ∀ x ∈ g.singles, Settled x) :
    group? (groupTree g) = some g := by
  have hfont : (fieldsOf (groupTree g)).lookup "font" = some (Json.singleTree g.font) := by
    simp [fieldsOf, groupTree, List.lookup_append, lookup_optionalField, List.lookup_cons]
  have hcolor : (fieldsOf (groupTree g)).lookup "color" = g.color.map .str := by
    simp [fieldsOf, groupTree, List.lookup_append, lookup_optionalField, List.lookup_cons]
  have hfontIn : Settled g.font := h g.font (List.mem_cons_self ..)
  have title : Form.optional? (fieldsOf (groupTree g)) "title" "" text? = some g.title := rfl
  have frame : Form.required? (fieldsOf (groupTree g)) "bounding" rect? = some g.frame :=
    rect?_rectTree fun x hx => h x (List.mem_cons_of_mem _ hx)
  have color : Form.optional? (fieldsOf (groupTree g)) "color" none (orNull text?)
      = some g.color :=
    optional?_orNull hcolor (fun _ _ => rfl) (fun _ => Tree.noConfusion)
  have font : Form.optional? (fieldsOf (groupTree g)) "font" Group.defaultFont single?
      = some g.font :=
    optional?_of_lookup _ hfont (single?_singleTree hfontIn.1 hfontIn.2)
  simp only [group?, form_groupTree g, title, frame, color, font, Option.bind_eq_bind, Option.bind_some]
  rfl

end Record

/-! ## Nodes -/

/-- The other fields of a node record have other names than its own. -/
def NodeRecord.Apart (r : NodeRecord) : Prop :=
  ∀ key ∈ r.extra.keys, key ∉ Record.nodeFields.map Record.FieldName.name

/-- A node record whose parts can be recorded, and whose other fields have other names. -/
structure NodeRecord.Recordable (r : NodeRecord) : Prop where
  id : ∀ id ∈ r.id, id.number ≤ idLimit
  inputs : ∀ ss ∈ r.inputs, ∀ s ∈ ss, s.Recordable
  outputs : ∀ ss ∈ r.outputs, ∀ s ∈ ss, s.Recordable
  properties : Value.ProperFields r.properties.entries
  priority : ∀ p ∈ r.priority, -2147483648 ≤ p ∧ p ≤ 2147483647
  extra : Value.ProperFields r.extra.entries
  names : ∀ key ∈ r.extra.keys, key ∉ Record.nodeFields.map Record.FieldName.name

/-- The narrow numbers of a node record. -/
def NodeRecord.singles (r : NodeRecord) : List Float32 :=
  r.pos.toList.flatMap Point.singles ++ r.size.toList.flatMap Size.singles

/-- The numbers in the values of a node record. -/
def NodeRecord.floats (r : NodeRecord) : List Float :=
  Value.floatsOfFields r.properties.entries ++ Value.floatsOfFields r.extra.entries

theorem Assoc.ofList_entries (m : Assoc String Value) : Assoc.ofList m.entries = m :=
  Assoc.insertAll_entries (List.nil_prefix (l := m.keys))

namespace Record

open Json (Tree)

/-- What is written for the fields that a node record has of its own. -/
def ownFields (r : NodeRecord) : List (String × Tree) :=
  optionalField "id" (fun (id : NodeId) => Json.natTree id.number) r.id
    ++ [("type", .str r.type)]
    ++ optionalField "pos" pointTree r.pos
    ++ optionalField "size" sizeTree r.size
    ++ [("flags", flagsTree r.flags)]
    ++ optionalField "mode" (fun m => Json.natTree m.number) r.mode
    ++ optionalField "inputs" (fun ss => .arr (ss.map inputTree)) r.inputs
    ++ optionalField "outputs" (fun ss => .arr (ss.map outputTree)) r.outputs
    ++ optionalField "title" .str r.title
    ++ [("properties", .obj (Json.fieldTrees r.properties.entries))]
    ++ optionalField "color" .str r.color
    ++ optionalField "bgcolor" .str r.background
    ++ optionalField "shape" .str r.shape
    ++ optionalField "priority" Json.intTree r.priority

theorem nodeTree_eq (r : NodeRecord) :
    nodeTree r = .obj (ownFields r ++ Json.fieldTrees r.extra.entries) := rfl

theorem keys_ownFields (r : NodeRecord) :
    ((ownFields r).map Prod.fst).Sublist (nodeFields.map FieldName.name) := by
  show List.Sublist _ (["id"] ++ ["type"] ++ ["pos"] ++ ["size"] ++ ["flags"] ++ ["mode"]
    ++ ["inputs"] ++ ["outputs"] ++ ["title"] ++ ["properties"] ++ ["color"] ++ ["bgcolor"]
    ++ ["shape"] ++ ["priority"])
  unfold ownFields
  simp only [List.map_append]
  repeat' apply List.Sublist.append
  all_goals first | exact keys_optionalField .. | exact List.Sublist.refl _

theorem distinct_nodeFields : Distinct nodeFields := by decide

theorem fst_fieldTrees (fs : List (String × Value)) :
    (Json.fieldTrees fs).map Prod.fst = fs.map Prod.fst := by
  induction fs with
  | nil => rfl
  | cons f fs ih =>
    obtain ⟨k, v⟩ := f
    rw [Json.fieldTrees, List.map_cons, ih]
    rfl

/-- A field of another name is not one of the fields of a node record. -/
theorem fits_extra {r : NodeRecord} (h : r.Apart) {e : String × Tree}
    (he : e ∈ Json.fieldTrees r.extra.entries) : ∀ f ∈ nodeFields, f.fits e.1 = false := by
  have hother : ∀ f ∈ nodeFields, f.other = none := by decide
  have hkey : e.1 ∈ r.extra.keys := by
    show e.1 ∈ r.extra.entries.map Prod.fst
    rw [← fst_fieldTrees]
    exact List.mem_map_of_mem he
  intro f hf
  unfold FieldName.fits
  rw [hother f hf, Bool.or_eq_false_iff, decide_eq_false_iff_not, decide_eq_false_iff_not]
  refine ⟨?_, fun h => by cases h⟩
  rintro hname
  exact h e.1 hkey (hname ▸ List.mem_map_of_mem hf)

theorem others_written {r : NodeRecord} (h : r.Apart) :
    others nodeFields (ownFields r ++ Json.fieldTrees r.extra.entries)
      = Json.fieldTrees r.extra.entries := by
  have hown : ∀ e ∈ ownFields r, nodeFields.any (·.fits e.1) = true := by
    intro e he
    obtain ⟨f, hf, hname⟩ := List.mem_map.1 ((keys_ownFields r).subset (List.mem_map_of_mem he))
    refine List.any_eq_true.2 ⟨f, hf, ?_⟩
    unfold FieldName.fits
    rw [decide_eq_true hname, Bool.true_or]
  have hextra : ∀ e ∈ Json.fieldTrees r.extra.entries, nodeFields.any (·.fits e.1) = false := by
    intro e he
    rw [List.any_eq_false]
    intro f hf
    rw [fits_extra h he f hf]
    exact Bool.false_ne_true
  unfold others
  rw [List.filter_append, List.filter_eq_nil_iff.2 fun e he => by simp [hown e he],
    List.filter_eq_self.2 fun e he => by simp [hextra e he], List.nil_append]

/-- The field of that name among those written, in a place where it may be left out. -/
theorem lookup_ownFields (r : NodeRecord) :
    (ownFields r).lookup "id" = r.id.map (fun id => Json.natTree id.number)
      ∧ (ownFields r).lookup "type" = some (.str r.type)
      ∧ (ownFields r).lookup "pos" = r.pos.map pointTree
      ∧ (ownFields r).lookup "size" = r.size.map sizeTree
      ∧ (ownFields r).lookup "flags" = some (flagsTree r.flags)
      ∧ (ownFields r).lookup "mode" = r.mode.map (fun m => Json.natTree m.number)
      ∧ (ownFields r).lookup "inputs" = r.inputs.map (fun ss => .arr (ss.map inputTree))
      ∧ (ownFields r).lookup "outputs" = r.outputs.map (fun ss => .arr (ss.map outputTree))
      ∧ (ownFields r).lookup "title" = r.title.map .str
      ∧ (ownFields r).lookup "properties"
        = some (.obj (Json.fieldTrees r.properties.entries))
      ∧ (ownFields r).lookup "color" = r.color.map .str
      ∧ (ownFields r).lookup "bgcolor" = r.background.map .str
      ∧ (ownFields r).lookup "shape" = r.shape.map .str
      ∧ (ownFields r).lookup "priority" = r.priority.map Json.intTree := by
  refine ⟨?_, ?_, ?_, ?_, ?_, ?_, ?_, ?_, ?_, ?_, ?_, ?_, ?_, ?_⟩ <;>
    simp [ownFields, List.lookup_append, List.lookup_cons, lookup_optionalField]

theorem depthFields_append (fs gs : List (String × Tree)) :
    Tree.depthFields (fs ++ gs) = max (Tree.depthFields fs) (Tree.depthFields gs) := by
  induction fs with
  | nil => simp [Tree.depthFields]
  | cons f fs ih =>
    rw [List.cons_append, Tree.depthFields, Tree.depthFields, ih, Nat.max_assoc]

/-- The properties of a node are an object among its fields. -/
theorem depthFields_properties (r : NodeRecord) :
    Tree.depthFields (Json.fieldTrees r.properties.entries) + 1 ≤ Tree.depthFields (ownFields r) := by
  rw [← Tree.depth]
  exact Tree.depth_le_depthFields (k := "properties") (by simp [ownFields])

/-- The values of an object come back, if there is room for them. -/
theorem values?_fieldTrees {m : Assoc String Value} (hp : Value.ProperFields m.entries)
    (hf : ∀ x ∈ Value.floatsOfFields m.entries, WideReturns x) {room : Nat}
    (hd : Tree.depthFields (Json.fieldTrees m.entries) ≤ room) :
    values? room (.obj (Json.fieldTrees m.entries)) = some m.entries :=
  Json.fieldsIn?_fieldTrees m.entries hp hf room hd [] m.nodup

theorem node?_nodeTree {r : NodeRecord} (h : r.Recordable) (hs : ∀ x ∈ r.singles, Settled x)
    (hf : ∀ x ∈ r.floats, WideReturns x) {room : Nat} (hd : (nodeTree r).depth ≤ room + 1) :
    node? room (nodeTree r) = some r := by
  obtain ⟨lid, ltype, lpos, lsize, lflags, lmode, linputs, loutputs, ltitle, lproperties, lcolor,
    lbackground, lshape, lpriority⟩ := lookup_ownFields r
  rw [nodeTree_eq, Tree.depth, depthFields_append] at hd
  have hown := depthFields_properties r
  have hform := ofFields?_written distinct_nodeFields (keys_ownFields r)
    fun e he => fits_extra h.names he
  have hpos : ∀ p ∈ r.pos, ∀ x ∈ p.singles, Settled x := fun p hp x hx =>
    hs x (List.mem_append_left _ (List.mem_flatMap.2 ⟨p, Option.mem_toList.2 hp, hx⟩))
  have hsize : ∀ z ∈ r.size, ∀ x ∈ z.singles, Settled x := fun z hz x hx =>
    hs x (List.mem_append_right _ (List.mem_flatMap.2 ⟨z, Option.mem_toList.2 hz, hx⟩))
  have text : ∀ {name : String} {o : Option String},
      (ownFields r).lookup name = o.map .str →
      Form.optional? (ownFields r) name none (orNull text?) = some o :=
    fun hl => optional?_orNull hl (fun _ _ => rfl) (fun _ => Tree.noConfusion)
  have id : Form.optional? (ownFields r) "id" none (orNull nodeId?) = some r.id :=
    optional?_orNull lid (fun i hi => nodeId?_natTree (h.id i hi)) (fun _ => Tree.noConfusion)
  have type : Form.required? (ownFields r) "type" text? = some r.type :=
    required?_of_lookup ltype rfl
  have pos : Form.optional? (ownFields r) "pos" none (orNull point?) = some r.pos :=
    optional?_orNull lpos (fun p hp => point?_pointTree (hpos p hp)) (fun _ => Tree.noConfusion)
  have size : Form.optional? (ownFields r) "size" none (orNull size?) = some r.size :=
    optional?_orNull lsize (fun z hz => size?_sizeTree (hsize z hz)) (fun _ => Tree.noConfusion)
  have flags : Form.optional? (ownFields r) "flags" ⟨false, false⟩ flags? = some r.flags :=
    optional?_of_lookup _ lflags (flags?_flagsTree r.flags)
  have mode : Form.optional? (ownFields r) "mode" none (orNull mode?) = some r.mode :=
    optional?_orNull lmode (fun m _ => mode?_natTree m) (fun _ => Tree.noConfusion)
  have inputs : Form.optional? (ownFields r) "inputs" none (orNull (list? input?))
      = some r.inputs :=
    optional?_orNull linputs (fun ss hss => list?_map fun s hs => input?_inputTree
      (h.inputs ss hss s hs)) (fun _ => Tree.noConfusion)
  have outputs : Form.optional? (ownFields r) "outputs" none (orNull (list? output?))
      = some r.outputs :=
    optional?_orNull loutputs (fun ss hss => list?_map fun s hs => output?_outputTree
      (h.outputs ss hss s hs)) (fun _ => Tree.noConfusion)
  have properties : Form.optional? (ownFields r) "properties" [] (values? (room - 1))
      = some r.properties.entries :=
    optional?_of_lookup _ lproperties (values?_fieldTrees h.properties
      (fun x hx => hf x (List.mem_append_left _ hx)) (by omega))
  have priority : Form.optional? (ownFields r) "priority" none (orNull priority?)
      = some r.priority :=
    optional?_orNull lpriority (fun p hp => integer?_intTree (by decide) (by decide)
      (h.priority p hp)) (fun _ => Tree.noConfusion)
  have extra : Json.fieldsIn? room [] (others nodeFields (ownFields r ++
      Json.fieldTrees r.extra.entries)) = some r.extra.entries := by
    rw [others_written h.names]
    exact Json.fieldsIn?_fieldTrees r.extra.entries h.extra
      (fun x hx => hf x (List.mem_append_right _ hx)) room (by omega) [] r.extra.nodup
  rw [nodeTree_eq]
  -- one field after the other
  refine bind_of_some hform <| bind_of_some id <| bind_of_some type <| bind_of_some pos <|
    bind_of_some size <| bind_of_some flags <| bind_of_some mode <| bind_of_some inputs <|
    bind_of_some outputs <| bind_of_some (text ltitle) <| bind_of_some properties <|
    bind_of_some (text lcolor) <| bind_of_some (text lbackground) <| bind_of_some (text lshape) <|
    bind_of_some priority <| bind_of_some extra ?_
  rw [Assoc.ofList_entries, Assoc.ofList_entries]
  rfl

end Record

/-! ## Snapshots -/

/-- The narrow numbers of a snapshot. -/
def Snapshot.singles (s : Snapshot) : List Float32 :=
  s.nodes.flatMap NodeRecord.singles ++ s.groups.flatMap Group.singles

/-- The numbers in the values of a snapshot. -/
def Snapshot.floats (s : Snapshot) : List Float :=
  s.nodes.flatMap NodeRecord.floats ++ Value.floatsOfFields s.config.entries

/-- A snapshot whose parts can be recorded, and whose text is nested no deeper than a reader
goes. -/
structure Snapshot.Recordable (s : Snapshot) : Prop where
  nextNode : s.nextNode ≤ idLimit
  nextLink : s.nextLink ≤ idLimit
  nodes : ∀ r ∈ s.nodes, r.Recordable
  links : ∀ l ∈ s.links, l.Recordable
  config : Value.ProperFields s.config.entries
  finite : ∀ x ∈ s.singles, x.isFinite = true
  nested : (Record.snapshotTree s).depth ≤ Json.nestingLimit

namespace Record

open Json (Tree)

theorem form_snapshotTree (s : Snapshot) :
    Form.read? snapshotFields (snapshotTree s) = some (fieldsOf (snapshotTree s)) := by
  apply read?_written (by decide)
  exact List.Sublist.refl _

/-- There is room for the nodes and for the configuration where there is room for the snapshot. -/
theorem depth_parts {s : Snapshot} (h : (snapshotTree s).depth ≤ Json.nestingLimit) :
    (∀ r ∈ s.nodes, (nodeTree r).depth ≤ Json.nestingLimit - 3 + 1) ∧
      Tree.depthFields (Json.fieldTrees s.config.entries) ≤ Json.nestingLimit - 2 := by
  unfold snapshotTree Json.nestingLimit at h
  simp only [Tree.depth, Tree.depthFields] at h
  unfold Json.nestingLimit
  refine ⟨fun r hr => ?_, by omega⟩
  have hdepth : (nodeTree r).depth ≤ Tree.depthItems (s.nodes.map nodeTree) :=
    Tree.depth_le_depthItems (List.mem_map_of_mem hr)
  omega

theorem snapshot?_snapshotTree {s : Snapshot} (h : s.Recordable)
    (hr : ∀ x ∈ s.singles, NarrowReturns x) (hf : ∀ x ∈ s.floats, WideReturns x) :
    snapshot? (snapshotTree s) = some s := by
  have hs : ∀ x ∈ s.singles, Settled x := fun x hx => ⟨h.finite x hx, hr x hx⟩
  obtain ⟨hnodes, hconfig⟩ := depth_parts h.nested
  have hnode : ∀ r ∈ s.nodes, node? (Json.nestingLimit - 3) (nodeTree r) = some r := by
    intro r hr
    refine node?_nodeTree (h.nodes r hr) (fun x hx => hs x ?_) (fun x hx => hf x ?_) (hnodes r hr)
    · exact List.mem_append_left _ (List.mem_flatMap.2 ⟨r, hr, hx⟩)
    · exact List.mem_append_left _ (List.mem_flatMap.2 ⟨r, hr, hx⟩)
  have hgroup : ∀ g ∈ s.groups, group? (groupTree g) = some g := fun g hg =>
    group?_groupTree fun x hx => hs x (List.mem_append_right _ (List.mem_flatMap.2 ⟨g, hg, hx⟩))
  have nextNode : Form.optional? (fieldsOf (snapshotTree s)) "next_node_id" 0 (natural? idLimit)
      = some s.nextNode :=
    natural?_natTree (by decide) h.nextNode
  have nextLink : Form.optional? (fieldsOf (snapshotTree s)) "next_link_id" 0 (natural? idLimit)
      = some s.nextLink :=
    natural?_natTree (by decide) h.nextLink
  have nodes : Form.optional? (fieldsOf (snapshotTree s)) "nodes" []
      (list? (node? (Json.nestingLimit - 3))) = some s.nodes :=
    list?_map hnode
  have links : Form.optional? (fieldsOf (snapshotTree s)) "links" [] (list? link?)
      = some s.links :=
    list?_map fun l hl => link?_linkTree (h.links l hl)
  have groups : Form.optional? (fieldsOf (snapshotTree s)) "groups" [] (list? group?)
      = some s.groups :=
    list?_map hgroup
  have config : Form.optional? (fieldsOf (snapshotTree s)) "config" []
      (values? (Json.nestingLimit - 2)) = some s.config.entries :=
    values?_fieldTrees h.config (fun x hx => hf x (List.mem_append_right _ hx)) hconfig
  simp only [snapshot?, form_snapshotTree, nextNode, nextLink, nodes, links, groups, config,
    Assoc.ofList_entries, Option.bind_eq_bind, Option.bind_some]
  rfl

end Record

end Dataflow
