import Swimlane.Diagram.Shape
import Swimlane.Json.Value
import Swimlane.OrderedMap

/-! The graph of a diagram: lanes in order of first opening, nodes and edges in order of declaration. -/
namespace Swimlane

structure Lane where
  id : Text
  label : Text
  kind : LaneKind
  deriving DecidableEq, Repr

/-- The lane of nodes that are declared outside of every lane. -/
def defaultLane : Text := "default"

structure Node where
  id : Text
  lane : Text
  label : Text
  kind : NodeKind
  shape : Shape
  /-- Only taskboxes have properties. -/
  properties : Option (List (Text × Text))
  deriving DecidableEq, Repr

structure Edge where
  id : Text
  source : Text
  target : Text
  sourceHandle : Text
  targetHandle : Text
  sourceLane : Option Text
  targetLane : Option Text
  label : Option Text
  deriving DecidableEq, Repr

/-- What tells an edge from others when two graphs are compared. -/
def Edge.ends (edge : Edge) : Text × Text := (edge.source, edge.target)

def Edge.crossesLanes (edge : Edge) : Bool :=
  match edge.sourceLane, edge.targetLane with
  | some source, some target => !source.isEmpty && !target.isEmpty && source ≠ target
  | _, _ => false

structure Graph where
  lanes : List Lane
  nodes : List Node
  edges : List Edge
  deriving DecidableEq, Repr

structure Stats where
  lanes : Nat
  nodes : Nat
  edges : Nat
  crossLaneEdges : Nat
  deriving DecidableEq, Repr

namespace Graph

/-- Nodes by id; of several with one id the last counts. -/
def nodeMap (graph : Graph) : OrderedMap Text Node :=
  .ofList (graph.nodes.map fun node => (node.id, node))

/-- Edges by their ends; of several with the same ends the last counts. -/
def edgeMap (graph : Graph) : OrderedMap (Text × Text) Edge :=
  .ofList (graph.edges.map fun edge => (edge.ends, edge))

def node? (graph : Graph) (id : Text) : Option Node := graph.nodeMap.get? id

def lane? (graph : Graph) (id : Text) : Option Lane := graph.lanes.find? (·.id = id)

def nodesIn (graph : Graph) (lane : Text) : List Node := graph.nodes.filter (·.lane = lane)

def crossLaneEdges (graph : Graph) : List Edge := graph.edges.filter Edge.crossesLanes

def stats (graph : Graph) : Stats where
  lanes := graph.lanes.length
  nodes := graph.nodes.length
  edges := graph.edges.length
  crossLaneEdges := graph.crossLaneEdges.length

end Graph

def Lane.toJson (lane : Lane) : Json :=
  .obj [("id", lane.id), ("label", lane.label), ("type", lane.kind.name)]

def Node.toJson (node : Node) : Json :=
  let fields : List (Text × Json) :=
    [("id", node.id), ("laneId", node.lane), ("label", node.label), ("kind", node.kind.name),
     ("shape", node.shape.name)]
  let properties : List (Text × Json) :=
    node.properties.toList.map fun properties =>
      ("properties", .obj (properties.map fun (key, value) => (key, .str value)))
  .obj (fields ++ properties)

/-- A field for each text that is there and not empty. -/
def optionalFields (fields : List (Text × Option Text)) : List (Text × Json) :=
  fields.filterMap fun (name, value) => (value.bind Text.nonempty?).map fun text => (name, .str text)

def Edge.toJson (edge : Edge) : Json :=
  let fields : List (Text × Json) :=
    [("id", edge.id), ("from", edge.source), ("to", edge.target),
     ("sourceHandle", edge.sourceHandle), ("targetHandle", edge.targetHandle)]
  .obj (fields ++ optionalFields
    [("fromLane", edge.sourceLane), ("toLane", edge.targetLane), ("label", edge.label)])

def Stats.toJson (stats : Stats) : Json :=
  .obj [("laneCount", .int stats.lanes), ("nodeCount", .int stats.nodes),
    ("edgeCount", .int stats.edges), ("crossLaneEdges", .int stats.crossLaneEdges)]

def Graph.toJson (graph : Graph) : Json :=
  .obj [("lanes", .arr (graph.lanes.map Lane.toJson)), ("nodes", .arr (graph.nodes.map Node.toJson)),
    ("edges", .arr (graph.edges.map Edge.toJson)), ("stats", graph.stats.toJson)]

end Swimlane
