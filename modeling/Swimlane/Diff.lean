import Swimlane.Diagram.Parse

/-! What changed between two graphs: nodes by id, edges by their ends, lanes by id. -/
namespace Swimlane

open Text

/-- What is compared of two nodes with one id. -/
inductive NodeField
  | label
  | shape
  | lane
  deriving DecidableEq, Repr

namespace NodeField

def all : List NodeField := [.label, .shape, .lane]

def value (node : Node) : NodeField → Text
  | .label => node.label
  | .shape => node.shape.name
  | .lane => node.lane

/-- The field's name among the fields of a node. -/
def key : NodeField → Text
  | .label => "label"
  | .shape => "shape"
  | .lane => "laneId"

end NodeField

structure FieldChange where
  field : NodeField
  old : Text
  new : Text
  deriving DecidableEq, Repr

structure NodeUpdate where
  id : Text
  changes : List FieldChange
  deriving DecidableEq, Repr

structure Diff where
  nodesAdded : List Node
  nodesRemoved : List Node
  nodesUpdated : List NodeUpdate
  edgesAdded : List Edge
  edgesRemoved : List Edge
  lanesAdded : List Text
  lanesRemoved : List Text
  deriving DecidableEq, Repr

namespace Diff

/-- The fields in which two nodes differ. -/
def fieldChanges (old new : Node) : List FieldChange :=
  NodeField.all.filterMap fun field =>
    if field.value old = field.value new then none
    else some ⟨field, field.value old, field.value new⟩

/-- What has become of nodes that were looked up in an older graph. -/
structure NodeChanges where
  added : List Node
  updated : List NodeUpdate

/-- Each node is new if the older graph has none of its id, and else compared with that one. -/
def compareNodes (old : OrderedMap Text Node) : List (Text × Node) → NodeChanges
  | [] => ⟨[], []⟩
  | (id, node) :: rest =>
    let others := compareNodes old rest
    match old.get? id with
    | none => { others with added := node :: others.added }
    | some previous =>
      let changes := fieldChanges previous node
      if changes.isEmpty then others
      else { others with updated := ⟨id, changes⟩ :: others.updated }

/-- The entries of one map whose keys another has not. -/
def missingFrom {κ β : Type} [DecidableEq κ] (other map : OrderedMap κ β) : List β :=
  (map.entries.filter fun (key, _) => !other.contains key).map Prod.snd

def between (old new : Graph) : Diff :=
  let nodes := compareNodes old.nodeMap new.nodeMap.entries
  let oldLanes := old.lanes.map (·.id)
  let newLanes := new.lanes.map (·.id)
  { nodesAdded := nodes.added
    nodesRemoved := missingFrom new.nodeMap old.nodeMap
    nodesUpdated := nodes.updated
    edgesAdded := missingFrom old.edgeMap new.edgeMap
    edgesRemoved := missingFrom new.edgeMap old.edgeMap
    lanesAdded := newLanes.filter (· ∉ oldLanes)
    lanesRemoved := oldLanes.filter (· ∉ newLanes) }

/-- What changed between two texts. -/
def ofTexts (old new : Text) : Diff := between (.ofText old) (.ofText new)

def hasChanges (diff : Diff) : Bool :=
  !(diff.nodesAdded.isEmpty && diff.nodesRemoved.isEmpty && diff.nodesUpdated.isEmpty
    && diff.edgesAdded.isEmpty && diff.edgesRemoved.isEmpty
    && diff.lanesAdded.isEmpty && diff.lanesRemoved.isEmpty)

/-- A part of the summary, left out if there is nothing to count. -/
def counted {β : Type} (start : Text) (items : List β) (rest : Text) : Option Text :=
  if items.isEmpty then none else some (start ++ ofNat items.length ++ rest)

def labels (nodes : List Node) : Text :=
  join ", " (nodes.map fun node => '"' :: node.label ++ ['"'])

def laneNames (start : Text) (lanes : List Text) : Option Text :=
  if lanes.isEmpty then none else some (start ++ join ", " lanes)

/-- The changes in one line. -/
def summary (diff : Diff) : Text :=
  let parts := [
    counted "Added " diff.nodesAdded (" node(s): " ++ labels diff.nodesAdded),
    counted "Removed " diff.nodesRemoved (" node(s): " ++ labels diff.nodesRemoved),
    counted "Updated " diff.nodesUpdated " node(s)",
    counted "Added " diff.edgesAdded " connection(s)",
    counted "Removed " diff.edgesRemoved " connection(s)",
    laneNames "Added lane(s): " diff.lanesAdded,
    laneNames "Removed lane(s): " diff.lanesRemoved].filterMap id
  if parts.isEmpty then "No changes detected" else join ". " parts

def briefNode (node : Node) : Json :=
  .obj [("id", node.id), ("label", node.label), ("lane", node.lane)]

def briefEdge (edge : Edge) : Json :=
  .obj [("from", edge.source), ("to", edge.target), ("label", Json.ofOption edge.label)]

def changeToJson (change : FieldChange) : Text × Json :=
  (change.field.key, .obj [("old", change.old), ("new", change.new)])

def updateToJson (update : NodeUpdate) : Json :=
  .obj [("id", update.id), ("changes", .obj (update.changes.map changeToJson))]

def toJson (diff : Diff) : Json :=
  .obj [("nodesAdded", .arr (diff.nodesAdded.map briefNode)),
    ("nodesRemoved", .arr (diff.nodesRemoved.map briefNode)),
    ("nodesUpdated", .arr (diff.nodesUpdated.map updateToJson)),
    ("edgesAdded", .arr (diff.edgesAdded.map briefEdge)),
    ("edgesRemoved", .arr (diff.edgesRemoved.map briefEdge)),
    ("lanesAdded", .arr (diff.lanesAdded.map Json.str)),
    ("lanesRemoved", .arr (diff.lanesRemoved.map Json.str))]

end Diff

end Swimlane
