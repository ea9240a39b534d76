/-
  Writing snapshots and node records as JSON.

  What was not recorded is left out, and so are flags that are off; a missing link is a null.
-/

import Dataflow.Record.Basic
import Dataflow.Json.Value

namespace Dataflow.Record

open Json (Tree)

/-! ## Parts -/

/-- A field that is left out when there is nothing to write. -/
def optionalField {α : Type} (name : String) (write : α → Tree) : Option α → List (String × Tree)
  | some a => [(name, write a)]
  | none => []

/-- A flag that is left out when it is off. -/
def flagField (name : String) (b : Bool) : List (String × Tree) :=
  if b then [(name, .bool true)] else []

/-- The tree of a place. -/
def pointTree (p : Point) : Tree := .arr [Json.singleTree p.x, Json.singleTree p.y]

/-- The tree of an extent. -/
def sizeTree (s : Size) : Tree := .arr [Json.singleTree s.width, Json.singleTree s.height]

/-- The tree of a rectangle. -/
def rectTree (r : Rect) : Tree :=
  .arr [Json.singleTree r.x, Json.singleTree r.y, Json.singleTree r.width, Json.singleTree r.height]

/-- The tree of a slot type. -/
def slotTypeTree (t : SlotType) : Tree := Json.valueTree t.value

/-- The tree of flags. -/
def flagsTree (f : Flags) : Tree :=
  .obj (flagField "collapsed" f.collapsed ++ flagField "pinned" f.pinned)

/-- The tree of the identity of a link. -/
def linkIdTree (id : LinkId) : Tree := Json.natTree id.number

/-- The tree of an input. -/
def inputTree (s : Input) : Tree :=
  .obj ([("name", .str s.name), ("type", slotTypeTree s.type),
      ("link", match s.link with | some id => linkIdTree id | none => .null)]
    ++ optionalField "label" .str s.label)

/-- The tree of an output; the value last written is not recorded. -/
def outputTree (s : Output) : Tree :=
  .obj ([("name", .str s.name), ("type", slotTypeTree s.type),
      ("links", .arr (s.links.map linkIdTree))]
    ++ optionalField "label" .str s.label)

/-- The tree of a link. -/
def linkTree (l : LinkRecord) : Tree :=
  .arr [linkIdTree l.id, Json.natTree l.origin.number, Json.natTree l.originSlot,
    Json.natTree l.target.number, Json.natTree l.targetSlot, slotTypeTree l.type]

/-- The tree of a group. -/
def groupTree (g : Group) : Tree :=
  .obj ([("title", .str g.title), ("bounding", rectTree g.frame)]
    ++ optionalField "color" .str g.color
    ++ [("font", Json.singleTree g.font)])

/-! ## Nodes and snapshots -/

/-- The tree of a node record. -/
def nodeTree (r : NodeRecord) : Tree :=
  .obj (optionalField "id" (fun (id : NodeId) => Json.natTree id.number) r.id
    ++ [("type", .str r.type)]
    ++ optionalField "pos" pointTree r.pos
    ++ optionalField "size" sizeTree r.size
    ++ [("flags", flagsTree r.flags)]
    ++ optionalField "mode" (fun m => Json.natTree m.number) r.mode
    ++ optionalField "inputs" (fun ss => .arr (ss.map inputTree)) r.inputs
    ++ optionalField "outputs" (fun ss => .arr (ss.map outputTree)) r.outputs
    ++ optionalField "title" .str r.title
    ++ [("properties", .obj (Json.fieldTrees r.properties.entries))]
    ++ optionalField "color" .str r.color
    ++ optionalField "bgcolor" .str r.background
    ++ optionalField "shape" .str r.shape
    ++ optionalField "priority" Json.intTree r.priority
    ++ Json.fieldTrees r.extra.entries)

/-- The tree of a snapshot. -/
def snapshotTree (s : Snapshot) : Tree :=
  .obj [("next_node_id", Json.natTree s.nextNode), ("next_link_id", Json.natTree s.nextLink),
    ("nodes", .arr (s.nodes.map nodeTree)), ("links", .arr (s.links.map linkTree)),
    ("groups", .arr (s.groups.map groupTree)), ("config", .obj (Json.fieldTrees s.config.entries))]

end Dataflow.Record

namespace Dataflow

/-- A snapshot as text without blanks. -/
def Snapshot.text (s : Snapshot) : String := (Record.snapshotTree s).text

/-- A snapshot as text with one item per line. -/
def Snapshot.prettyText (s : Snapshot) : String := (Record.snapshotTree s).prettyText

/-- A node record as text without blanks. -/
def NodeRecord.text (r : NodeRecord) : String := (Record.nodeTree r).text

end Dataflow
