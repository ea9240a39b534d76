/-
  Reading snapshots and node records from JSON.
-/

import Dataflow.Record.Basic
import Dataflow.Record.Form

namespace Dataflow.Record

open Json (Tree)

/-! ## Parts -/

/-- Reads the identity of a node. -/
def nodeId? (t : Tree) : Option NodeId := (natural? idLimit t).map NodeId.mk

/-- Reads the identity of a link. -/
def linkId? (t : Tree) : Option LinkId := (natural? idLimit t).map LinkId.mk

/-- Reads the number of a slot. -/
def slot? (t : Tree) : Option Nat := natural? (Numeric.wordLimit - 1) t

/-- Reads a slot type. -/
def slotType? (t : Tree) : Option SlotType := do
  let v ← Json.valueIn? 0 t
  (SlotType.ofValue v).toOption

/-- Reads a priority, an integer of 32 bits. -/
def priority? (t : Tree) : Option Int := integer? (-2147483648) 2147483647 t

/-- Reads a mode. -/
def mode? (t : Tree) : Option Mode := (natural? 255 t).bind Mode.ofNumber?

/-- Reads a place. -/
def point? (t : Tree) : Option Point := do
  match ← list? single? t with
  | [x, y] => some ⟨x, y⟩
  | _ => none

/-- Reads an extent. -/
def size? (t : Tree) : Option Size := do
  match ← list? single? t with
  | [w, h] => some ⟨w, h⟩
  | _ => none

/-- Reads a rectangle. -/
def rect? (t : Tree) : Option Rect := do
  match ← list? single? t with
  | [x, y, w, h] => some ⟨x, y, w, h⟩
  | _ => none

/-- Reads flags. -/
def flags? (t : Tree) : Option Flags := do
  let f ← Form.read? [.only "collapsed", .only "pinned"] t
  let collapsed ← f.optional? "collapsed" false bool?
  let pinned ← f.optional? "pinned" false bool?
  return ⟨collapsed, pinned⟩

/-- Reads an input. -/
def input? (t : Tree) : Option Input := do
  let f ← Form.read? [.only "name", .only "type", .only "link", .only "label"] t
  let name ← f.required? "name" text?
  let type ← f.optional? "type" .any slotType?
  let link ← f.optional? "link" none (orNull linkId?)
  let label ← f.optional? "label" none (orNull text?)
  return ⟨name, type, link, label⟩

/-- Reads an output. -/
def output? (t : Tree) : Option Output := do
  let f ← Form.read? [.only "name", .only "type", .only "links", .only "label"] t
  let name ← f.required? "name" text?
  let type ← f.optional? "type" .any slotType?
  let links ← f.optional? "links" none (orNull (list? linkId?))
  let label ← f.optional? "label" none (orNull text?)
  return ⟨name, type, links.getD [], label, none⟩

/-- Reads a link. -/
def link? : Tree → Option LinkRecord
  | .arr [id, origin, originSlot, target, targetSlot, type] => do
    let id ← linkId? id
    let origin ← nodeId? origin
    let originSlot ← slot? originSlot
    let target ← nodeId? target
    let targetSlot ← slot? targetSlot
    let type ← slotType? type
    return ⟨id, origin, originSlot, target, targetSlot, type⟩
  | _ => none

/-- Reads a group. -/
def group? (t : Tree) : Option Group := do
  let f ← Form.read? [.only "title", .only "bounding", .only "color", .only "font"] t
  let title ← f.optional? "title" "" text?
  let frame ← f.required? "bounding" rect?
  let color ← f.optional? "color" none (orNull text?)
  let font ← f.optional? "font" Group.defaultFont single?
  return ⟨title, frame, color, font⟩

/-! ## Nodes -/

/-- The fields of a node record. -/
def nodeFields : List FieldName :=
  ["id", "type", "pos", "size", "flags", "mode", "inputs", "outputs", "title", "properties",
    "color", "bgcolor", "shape", "priority"].map .only

/-- The fields of an object that are not among the known ones. -/
def others (known : List FieldName) (fields : List (String × Tree)) : List (String × Tree) :=
  fields.filter fun e => !known.any (·.fits e.1)

/-- Reads a node record with at most `room` levels of nesting below it.  A node record is always
an object. -/
def node? (room : Nat) : Tree → Option NodeRecord
  | .obj fields => do
    let f ← Form.ofFields? nodeFields [] fields
    let id ← f.optional? "id" none (orNull nodeId?)
    let type ← f.required? "type" text?
    let pos ← f.optional? "pos" none (orNull point?)
    let size ← f.optional? "size" none (orNull size?)
    let flags ← f.optional? "flags" ⟨false, false⟩ flags?
    let mode ← f.optional? "mode" none (orNull mode?)
    let inputs ← f.optional? "inputs" none (orNull (list? input?))
    let outputs ← f.optional? "outputs" none (orNull (list? output?))
    let title ← f.optional? "title" none (orNull text?)
    let properties ← f.optional? "properties" [] (values? (room - 1))
    let color ← f.optional? "color" none (orNull text?)
    let background ← f.optional? "bgcolor" none (orNull text?)
    let shape ← f.optional? "shape" none (orNull text?)
    let priority ← f.optional? "priority" none (orNull priority?)
    let extra ← Json.fieldsIn? room [] (others nodeFields fields)
    return { id, type, pos, size, flags, mode, inputs, outputs, title
             properties := .ofList properties, color, background, shape, priority
             extra := .ofList extra }
  | _ => none

/-! ## Snapshots -/

/-- The fields of a snapshot. -/
def snapshotFields : List FieldName :=
  [⟨"next_node_id", some "last_node_id"⟩, ⟨"next_link_id", some "last_link_id"⟩, .only "nodes",
    .only "links", .only "groups", .only "config"]

/-- Reads a snapshot. -/
def snapshot? (t : Tree) : Option Snapshot := do
  let f ← Form.read? snapshotFields t
  let nextNode ← f.optional? "next_node_id" 0 (natural? idLimit)
  let nextLink ← f.optional? "next_link_id" 0 (natural? idLimit)
  let nodes ← f.optional? "nodes" [] (list? (node? (Json.nestingLimit - 3)))
  let links ← f.optional? "links" [] (list? link?)
  let groups ← f.optional? "groups" [] (list? group?)
  let config ← f.optional? "config" [] (values? (Json.nestingLimit - 2))
  return { nextNode, nextLink, nodes, links, groups, config := .ofList config }

end Dataflow.Record

namespace Dataflow

/-- The narrow number nearest to the number in a value. -/
def Value.single? : Value → Option Float32
  | .int n => some (Float32.ofInt n)
  | .float x => some (Numeric.single x)
  | _ => none

/-- The two narrow numbers in a list. -/
def Value.singles? : Value → Option (Float32 × Float32)
  | .arr [v, w] => do return (← v.single?, ← w.single?)
  | _ => none

/-- Reads a node record from a value.  The numbers and the values that it holds are those of the
value itself: they are not written and read again. -/
def NodeRecord.ofValue? (v : Value) : Option NodeRecord := do
  let r ← Record.node? Json.nestingLimit (Json.valueTree v)
  let position := (v.field? "pos").bind Value.singles?
  let size := (v.field? "size").bind Value.singles?
  let properties := (v.field? "properties").map Value.fields
  let extra := v.fields.filter fun e => !Record.nodeFields.any (·.fits e.1)
  return { r with
    pos := position.map fun p => ⟨p.1, p.2⟩, size := size.map fun s => ⟨s.1, s.2⟩
    properties := .ofList (properties.getD []), extra := .ofList extra }

/-- Reads a snapshot from its text. -/
def Snapshot.read? (text : String) : Option Snapshot :=
  (Json.Tree.read? text).bind Record.snapshot?

end Dataflow
