/-
  Which graphs can be saved and loaded again.

  A node records what it holds.  A node that stands in for another one gives back the record that it
  was made from, with the fields that nobody knows about; so these must not have the names of known
  fields, or the text of the record would name a field twice (`NodeRecord.Apart`).  A reader sets
  such fields apart, and no operation on a graph changes them.

  So whatever is done to a graph of standard nodes that is fed with what was read from texts
  (`Fed`), only its numbers decide whether its own text can be read: it is accepted exactly if the
  places and extents of nodes and groups are finite.  They need not be, for the reader rounds a
  number that is too large to an infinite one, and an infinite number is written as a null.
-/

import Dataflow.Proofs.Acceptance
import Dataflow.Proofs.Birthright

namespace Dataflow

/-! ## Records that are read -/

theorem Assoc.mem_keys_ofList {κ α : Type} [DecidableEq κ] {es : List (κ × α)} {k : κ}
    (h : k ∈ (Assoc.ofList es).keys) : k ∈ es.map Prod.fst := by
  obtain ⟨a, ha⟩ := Assoc.mem_keys_iff.1 h
  by_contra hk
  have hnone : (Assoc.ofList es).get? k = none := Assoc.get?_insertAll_of_notMem hk ∅
  cases hnone.symm.trans ha

namespace Json

theorem fst_putField {α : Type} {fields : List (String × α)} {name k : String} {a : α}
    (h : k ∈ (putField fields name a).map Prod.fst) : k ∈ fields.map Prod.fst ∨ k = name := by
  unfold putField at h
  split at h
  · obtain ⟨e, he, rfl⟩ := List.mem_map.1 h
    obtain ⟨f, hf, rfl⟩ := List.mem_map.1 he
    split
    · exact .inr rfl
    · exact .inl (List.mem_map_of_mem hf)
  · rw [List.map_append, List.mem_append] at h
    exact h.imp_right List.mem_singleton.1

/-- The fields that are read have names that were there. -/
theorem fst_fieldsIn? {room : Nat} {fs : List (String × Tree)} {read vs : List (String × Value)}
    (h : fieldsIn? room read fs = some vs) {k : String} (hk : k ∈ vs.map Prod.fst) :
    k ∈ read.map Prod.fst ∨ k ∈ fs.map Prod.fst := by
  induction fs generalizing read with
  | nil =>
    rw [fieldsIn?] at h
    cases h
    exact .inl hk
  | cons f fs ih =>
    obtain ⟨name, t⟩ := f
    rw [fieldsIn?] at h
    obtain ⟨v, -, h⟩ := Option.bind_eq_some_iff.1 h
    rcases ih h with hk | hk
    · rcases fst_putField hk with hk | rfl
      · exact .inl hk
      · exact .inr (List.mem_cons_self ..)
    · exact .inr (List.mem_cons_of_mem _ hk)

end Json

namespace Record

open Json (Tree)

/-- A key that is the name of a field fits it. -/
theorem any_fits {known : List FieldName} {key : String} (h : key ∈ known.map FieldName.name) :
    known.any (·.fits key) = true := by
  obtain ⟨f, hf, rfl⟩ := List.mem_map.1 h
  refine List.any_eq_true.2 ⟨f, hf, ?_⟩
  unfold FieldName.fits
  rw [decide_eq_true rfl, Bool.true_or]

theorem apart_node? {room : Nat} {t : Tree} {r : NodeRecord} (h : node? room t = some r) :
    r.Apart := by
  unfold node? at h
  split at h
  · next fields =>
    -- fourteen fields come before the others
    iterate 15 obtain ⟨_, -, h⟩ := Option.bind_eq_some_iff.1 h
    obtain ⟨extra, he, h⟩ := Option.bind_eq_some_iff.1 h
    cases h
    intro key hkey hknown
    rcases Json.fst_fieldsIn? he (Assoc.mem_keys_ofList hkey) with hk | hk
    · cases hk
    · obtain ⟨e, he, rfl⟩ := List.mem_map.1 hk
      have hother := (List.mem_filter.1 he).2
      rw [any_fits hknown] at hother
      cases hother
  · cases h

theorem mem_list? {α : Type} {read : Tree → Option α} {t : Tree} {as : List α}
    (h : list? read t = some as) {a : α} (ha : a ∈ as) : ∃ t, read t = some a := by
  cases t with
  | arr ts =>
    change ts.mapM read = some as at h
    induction ts generalizing as with
    | nil =>
      cases h
      cases ha
    | cons t ts ih =>
      rw [List.mapM_cons] at h
      obtain ⟨b, hb, h⟩ := Option.bind_eq_some_iff.1 h
      obtain ⟨bs, hbs, h⟩ := Option.bind_eq_some_iff.1 h
      cases h
      rcases List.mem_cons.1 ha with rfl | ha
      · exact ⟨t, hb⟩
      · exact ih ha hbs
  | _ => cases h

theorem apart_snapshot? {t : Tree} {s : Snapshot} (h : snapshot? t = some s) :
    ∀ r ∈ s.nodes, r.Apart := by
  unfold snapshot? at h
  iterate 3 obtain ⟨_, -, h⟩ := Option.bind_eq_some_iff.1 h
  obtain ⟨nodes, hnodes, h⟩ := Option.bind_eq_some_iff.1 h
  iterate 3 obtain ⟨_, -, h⟩ := Option.bind_eq_some_iff.1 h
  cases h
  unfold Form.optional? at hnodes
  split at hnodes
  · cases hnodes
    exact fun r hr => nomatch hr
  · intro r hr
    obtain ⟨t, ht⟩ := mem_list? hnodes hr
    exact apart_node? ht

end Record

/-- What is read from a text sets unknown fields apart. -/
theorem Snapshot.apart_read? {text : String} {s : Snapshot} (h : Snapshot.read? text = some s) :
    ∀ r ∈ s.nodes, r.Apart := by
  obtain ⟨t, -, h⟩ := Option.bind_eq_some_iff.1 h
  exact Record.apart_snapshot? h

theorem NodeRecord.apart_ofValue? {v : Value} {r : NodeRecord} (h : NodeRecord.ofValue? v = some r) :
    r.Apart := by
  obtain ⟨r', -, h⟩ := Option.bind_eq_some_iff.1 h
  cases h
  intro key hkey hknown
  obtain ⟨e, he, rfl⟩ := List.mem_map.1 (Assoc.mem_keys_ofList hkey)
  have hother := (List.mem_filter.1 he).2
  rw [Record.any_fits hknown] at hother
  cases hother

theorem NodeRecord.apart_empty {r : NodeRecord} (h : r.extra = ∅) : r.Apart := by
  intro key hkey
  rw [h] at hkey
  cases hkey

/-! ## What stand-ins give back -/

section Nodes

variable {B : Type}

/-- The record that a node gives back, if it stands in for another one, sets unknown fields
apart. -/
def Node.Apart (n : Node B) : Prop := ∀ r ∈ n.standsFor, r.Apart

namespace Node

variable {n n' : Node B}

theorem Apart.of_eq (h : n'.standsFor = n.standsFor) (hn : n.Apart) : n'.Apart := by
  unfold Apart
  rw [h]
  exact hn

theorem apart_itself (h : n.standsFor = none) : n.Apart := by
  intro r hr
  rw [h] at hr
  cases hr

/-- That is so from birth. -/
theorem innate_apart : Innate (Apart (B := B)) := fun _ _ h hn =>
  hn.of_eq (congrArg Birth.standsFor h.birth)

theorem apart_placeholder [Kind B] {r : NodeRecord} (h : r.Apart) :
    (placeholder r : Node B).Apart := by
  intro r' hr
  cases hr
  exact h

theorem Apart.record {n : Node Catalog} (h : n.Apart) : n.record.Apart := by
  unfold Node.record
  split
  · next r hr => exact h r hr
  · split
    · exact NodeRecord.apart_empty rfl
    · exact NodeRecord.apart_empty rfl

end Node

variable [Kind B] {r : Registry B}

theorem NodeType.apart_made (t : NodeType B) (title : Option String) :
    ((t.instantiate title).attachDefaults t).Apart := by
  obtain ⟨size, pos, he⟩ := (t.instantiate title).attachDefaults_eq t
  rw [he]
  exact Node.apart_itself rfl

theorem Registry.apart_createOrStandIn (r : Registry B) (type : String) (title : Option String) :
    (r.createOrStandIn type title).Apart := by
  unfold Registry.createOrStandIn Registry.create
  cases r.get? type with
  | none => exact Node.apart_placeholder (NodeRecord.apart_empty rfl)
  | some t => exact t.apart_made title

theorem Engine.apart_madeOf (r : Registry B) {record : NodeRecord} (h : record.Apart) :
    (madeOf r record).1.Apart := by
  unfold madeOf Registry.create
  cases r.get? record.type with
  | none => exact Node.apart_placeholder h
  | some t => exact t.apart_made record.title

end Nodes

theorem Node.Apart.copy {n : Node Catalog} (h : n.Apart) (r : Registry Catalog) :
    (n.copy r).1.Apart := by
  unfold Node.copy
  extract_lets record fresh made
  have hrecord : record.Apart := h.record
  have hmade : made.Apart := by
    show (if fresh.hasErrors = true then Node.placeholder record else fresh : Node Catalog).Apart
    split
    · exact apart_placeholder hrecord
    · exact r.apart_createOrStandIn _ _
  have hadopted : (made.applyRecord record).1.Apart :=
    innate_apart _ _ (made.grows_applyRecord record) hmade
  exact innate_apart _ _ (.of_lasts (p := False) (lasts_tell ..)) hadopted

/-! ## Sessions -/

/-- What is asked of a call: nodes that are added are among those at hand, and snapshots were read
from texts. -/
def Call.Fed (held : List (Node Catalog)) : Call Catalog → Prop
  | .add n => n ∈ held
  | .load snapshot _ => ∃ text, Snapshot.read? text = some snapshot
  | _ => True

/-- A session of standard nodes that loads only what was read from texts.  Nodes may be made by the
registry, by hand, or as stand-ins for records that were read, and those that the graph hands out
may come back. -/
inductive Fed : Session Catalog Unit → List (Node Catalog) → Prop where
  | start (settings : Settings) (events : List (Event Catalog)) :
    Fed ⟨Graph.empty (Catalog.registry id) settings, events, ()⟩ []
  | create {s : Session Catalog Unit} {held : List (Node Catalog)} (type : String)
    (title : Option String) (hs : Fed s held) :
    Fed s ((Catalog.registry id).createOrStandIn type title :: held)
  | make {s : Session Catalog Unit} {held : List (Node Catalog)} (n : Node Catalog)
    (hn : n.standsFor = none) (hs : Fed s held) : Fed s (n :: held)
  | standIn {s : Session Catalog Unit} {held : List (Node Catalog)} {v : Value}
    {record : NodeRecord} (hr : NodeRecord.ofValue? v = some record) (hs : Fed s held) :
    Fed s (Node.placeholder record :: held)
  | call {s s' : Session Catalog Unit} {held : List (Node Catalog)} {c : Call Catalog} {a : c.Answer}
    (depth : Nat) (hs : Fed s held) (hc : c.Fed held)
    (hr : Engine.perform (Engine.runner depth) c s = some (a, s')) :
    Fed s' ((c.handed a).toList ++ held)
  | aside {s : Session Catalog Unit} {held : List (Node Catalog)} (events : List (Event Catalog))
    (hs : Fed s held) : Fed { s with events } held

variable {held : List (Node Catalog)}

/-- What a call is fed with sets unknown fields apart. -/
theorem Engine.apart_perform {s : Session Catalog Unit}
    (hs : s.graph.Peopled (Catalog.registry id) Node.Apart) (hheld : ∀ n ∈ held, n.Apart)
    {c : Call Catalog} (hc : c.Fed held) (depth : Nat) :
    Ensures (perform (runner depth) c) s fun a s' =>
      s'.graph.Peopled (Catalog.registry id) Node.Apart ∧ ∀ n ∈ c.handed a, n.Apart := by
  refine peopled_perform Node.innate_apart hs (fun n hn => hn.copy _) ?_ ?_ depth
  · rintro n rfl
    exact hheld n hc
  · rintro snapshot keepOld rfl record hr
    obtain ⟨text, htext⟩ := hc
    exact apart_madeOf _ (Snapshot.apart_read? htext record hr)

theorem Fed.apart {s : Session Catalog Unit} (h : Fed s held) :
    s.graph.Peopled (Catalog.registry id) Node.Apart ∧ ∀ n ∈ held, n.Apart := by
  induction h with
  | start settings events => exact ⟨Graph.peopled_empty _ settings, fun n hn => (nomatch hn)⟩
  | create type title _ ih =>
    exact ⟨ih.1, List.forall_mem_cons.2 ⟨Registry.apart_createOrStandIn _ type title, ih.2⟩⟩
  | make n hn _ ih => exact ⟨ih.1, List.forall_mem_cons.2 ⟨Node.apart_itself hn, ih.2⟩⟩
  | standIn hr _ ih =>
    exact ⟨ih.1,
      List.forall_mem_cons.2 ⟨Node.apart_placeholder (NodeRecord.apart_ofValue? hr), ih.2⟩⟩
  | call depth _ hc hr ih =>
    obtain ⟨hs', hhanded⟩ := Engine.apart_perform ih.1 ih.2 hc depth _ _ hr
    refine ⟨hs', List.forall_mem_append.2 ⟨fun n hn => ?_, ih.2⟩⟩
    exact hhanded n (Option.mem_toList.1 hn)
  | aside events _ ih => exact ih

/-- What is recorded of a graph sets unknown fields apart. -/
theorem Graph.Peopled.apart_snapshot {r : Registry Catalog} {g : Graph Catalog}
    (hg : g.Peopled r Node.Apart) : ∀ record ∈ g.snapshot.nodes, record.Apart := by
  intro r hr
  obtain ⟨n, hn, rfl⟩ := List.mem_map.1 hr
  obtain ⟨id, -, hid⟩ := List.mem_filterMap.1 hn
  exact (hg.nodes id n hid).record

/-- Whatever was saved can be loaded, unless a place or an extent is infinite or values are nested
too deeply.  For every graph of standard nodes that loads only what was read from texts, both texts
of its snapshot are read exactly if it is loadable. -/
theorem saved_texts_read {s : Session Catalog Unit} (h : Fed s held) (hsized : s.graph.snapshot.Sized)
    (hr : ∀ x ∈ s.graph.snapshot.singles, NarrowReads x)
    (hf : ∀ x ∈ s.graph.snapshot.floats, WideReads x) :
    ((∃ t, Snapshot.read? s.graph.snapshot.text = some t) ↔ s.graph.snapshot.Loadable)
      ∧ ((∃ t, Snapshot.read? s.graph.snapshot.prettyText = some t) ↔ s.graph.snapshot.Loadable) :=
  Snapshot.reads_texts hsized h.apart.1.apart_snapshot hr hf

/-- A node of an unknown type, with a field that nobody knows about. -/
def ghostText : String :=
  "\x7b\"nodes\":[\x7b\"id\":1,\"type\":\"ghost\",\"pos\":[0.1,-2.0],\"mood\":\"blue\"\x7d]\x7d"

/-- The same node in a place too far away for a narrow number. -/
def distantText : String :=
  "\x7b\"nodes\":[\x7b\"id\":1,\"type\":\"ghost\",\"pos\":[1e39,-2.0],\"mood\":\"blue\"\x7d]\x7d"

/-- What comes of loading a text in a batch that stays open. -/
def loadedText (text : String) : Option (LoadReport × Session Catalog Unit) :=
  (Snapshot.read? text).bind fun snapshot =>
    let start : Session Catalog Unit := ⟨Graph.empty (Catalog.registry id) .default, [], ()⟩
    Engine.perform (Engine.runner 1) (.load snapshot true) start.beginBatch

theorem fed_loadedText {text : String} {report : LoadReport} {s : Session Catalog Unit}
    (h : loadedText text = some (report, s)) : Fed s [] := by
  obtain ⟨snapshot, hread, hload⟩ := Option.bind_eq_some_iff.1 h
  have hbatch : Fed (Session.beginBatch ⟨Graph.empty (Catalog.registry id) .default, [], ()⟩) [] :=
    Fed.call (c := .edit .beginBatch) 1 (.start .default []) trivial rfl
  exact Fed.call (c := .load snapshot true) 1 hbatch ⟨text, hread⟩ hload

/-- What is evaluated of the session after loading holds of a session that a program can reach. -/
theorem exists_fed_loadedText (text : String) (P : Session Catalog Unit → Prop) [DecidablePred P]
    (h : (loadedText text).any fun e => P e.2) : ∃ s, Fed s [] ∧ P s := by
  cases hload : loadedText text with
  | none =>
    rw [hload] at h
    cases h
  | some e =>
    obtain ⟨report, s⟩ := e
    rw [hload, Option.any_some, decide_eq_true_eq] at h
    exact ⟨s, fed_loadedText hload, h⟩

theorem ghostText_saved : ∃ s held, Fed s held ∧ s.graph.nodes.size = 1 ∧
    s.graph.snapshot.Sized ∧ (∀ x ∈ s.graph.snapshot.singles, NarrowReads x) ∧
    (∀ x ∈ s.graph.snapshot.floats, WideReads x) ∧
    (∃ t, Snapshot.read? s.graph.snapshot.text = some t) ∧
    ∃ t, Snapshot.read? s.graph.snapshot.prettyText = some t := by
  obtain ⟨s, hfed, hsize, hsized, hr, hf, hloadable⟩ := exists_fed_loadedText ghostText
    (fun s =>
      let snapshot := s.graph.snapshot
      s.graph.nodes.size = 1 ∧ snapshot.Sized ∧ (∀ x ∈ snapshot.singles, NarrowReads x) ∧
        (∀ x ∈ snapshot.floats, WideReads x) ∧ snapshot.Loadable)
    (by decide +kernel)
  obtain ⟨htext, hpretty⟩ := saved_texts_read hfed hsized hr hf
  exact ⟨s, [], hfed, hsize, hsized, hr, hf, htext.2 hloadable, hpretty.2 hloadable⟩

/-- The distant place is read as an infinite one, and the text of the graph is refused. -/
theorem distantText_refused : ∃ s held, Fed s held ∧ s.graph.nodes.size = 1 ∧
    Snapshot.read? s.graph.snapshot.text = none ∧
    Snapshot.read? s.graph.snapshot.prettyText = none := by
  obtain ⟨s, hfed, hsize, hsized, hr, hf, hdistant⟩ := exists_fed_loadedText distantText
    (fun s =>
      let snapshot := s.graph.snapshot
      s.graph.nodes.size = 1 ∧ snapshot.Sized ∧ (∀ x ∈ snapshot.singles, NarrowReads x) ∧
        (∀ x ∈ snapshot.floats, WideReads x) ∧ ¬ snapshot.Loadable)
    (by decide +kernel)
  obtain ⟨htext, hpretty⟩ := Snapshot.reads_texts hsized hfed.apart.1.apart_snapshot hr hf
  refine ⟨s, [], hfed, hsize, ?_, ?_⟩
  · exact Option.eq_none_iff_forall_ne_some.2 fun t ht => hdistant (htext.1 ⟨t, ht⟩)
  · exact Option.eq_none_iff_forall_ne_some.2 fun t ht => hdistant (hpretty.1 ⟨t, ht⟩)

end Dataflow
