import Swimlane.CommandLine.Markup
import Swimlane.Diff

/-! Tables that show graphs and changes. -/
namespace Swimlane.CommandLine

open Markup

/-- The cells are markup. -/
structure Table where
  title : Text
  columns : List Text
  rows : List (List Text)
  deriving DecidableEq, Repr

namespace Table

def laneRow (lane : Lane) : List Text := [escape lane.id, escape lane.label, lane.kind.name]

def lanes (graph : Graph) : Table where
  title := "Lanes"
  columns := ["id", "label", "type"]
  rows := graph.lanes.map laneRow

def nodeRow (node : Node) : List Text :=
  [escape node.id, escape node.lane, node.shape.name, node.kind.name, escape node.label]

def nodes (graph : Graph) : Table where
  title := "Nodes"
  columns := ["id", "lane", "shape", "kind", "label"]
  rows := graph.nodes.map nodeRow

/-- A node of an edge with its lane; a lane that is not known is a question mark. -/
def endText (lane : Option Text) (node : Text) : Text :=
  (lane.bind Text.nonempty?).getD ['?'] ++ '.' :: node

def edgeRow (edge : Edge) : List Text :=
  [edge.id, escape (endText edge.sourceLane edge.source),
   escape (endText edge.targetLane edge.target),
   escape (edge.sourceHandle ++ " -> " ++ edge.targetHandle), escape (edge.label.getD [])]

def edges (graph : Graph) : Table where
  title := "Edges"
  columns := ["id", "from", "to", "handles", "label"]
  rows := graph.edges.map edgeRow

/-- What was done to a thing, and the sign and the colour for it. -/
inductive Action
  | added
  | removed
  | updated
  deriving DecidableEq, Repr

def Action.sign : Action → Text
  | .added => "+"
  | .removed => "-"
  | .updated => "~"

def Action.style : Action → Text
  | .added => "green"
  | .removed => "red"
  | .updated => "yellow"

def changeRow (action : Action) (kind item : Text) : List Text :=
  [styled action.style (action.sign ++ ' ' :: kind), escape item]

def nodeItem (node : Node) : Text := node.id ++ " \"" ++ node.label ++ "\""

def edgeItem (edge : Edge) : Text := edge.source ++ " -> " ++ edge.target

def fieldName : NodeField → Text
  | .label => "label"
  | .shape => "shape"
  | .lane => "lane_id"

def changeItem (change : FieldChange) : Text :=
  fieldName change.field ++ ": " ++ change.old ++ " -> " ++ change.new

def updateItem (update : NodeUpdate) : Text :=
  update.id ++ " (" ++ Text.join ", " (update.changes.map changeItem) ++ ")"

def changes (diff : Diff) : Table where
  title := "Changes"
  columns := ["change", "item"]
  rows :=
    diff.nodesAdded.map (fun node => changeRow .added "node" (nodeItem node))
      ++ diff.nodesRemoved.map (fun node => changeRow .removed "node" (nodeItem node))
      ++ diff.nodesUpdated.map (fun update => changeRow .updated "node" (updateItem update))
      ++ diff.edgesAdded.map (fun edge => changeRow .added "edge" (edgeItem edge))
      ++ diff.edgesRemoved.map (fun edge => changeRow .removed "edge" (edgeItem edge))
      ++ diff.lanesAdded.map (changeRow .added "lane")
      ++ diff.lanesRemoved.map (changeRow .removed "lane")

end Table

end Swimlane.CommandLine
