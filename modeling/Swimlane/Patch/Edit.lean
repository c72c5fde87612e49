import Swimlane.Patch.Operation
import Swimlane.Text.DecimalDigit

/-! Edits of a diagram: what an operation asks for, what came of it, and how the log tells it. -/
namespace Swimlane.Patch

open Text

inductive Edit
  | insertNode (lane : Text) (shape : Shape) (label : Option Text) (properties : Attributes)
      (after before : Option Text)
  | removeNode (id : Text)
  | updateNode (id : Text) (updates : Attributes)
  | insertEdge (edge : NewEdge)
  | removeEdge (source target : Text)

/-- Why an operation is passed over. -/
inductive SkipReason
  | notSupported
  | unknownOperation
  | missingNewNodeOrLane
  | unknownShape (name : Text)
  | laneNotFound (id : Text)
  | missingNodeId
  | missingNodeIdOrUpdates
  | nodeNotFound (id : Text)
  | missingNewEdge
  | sourceNotFound (id : Text)
  | missingEdge
  | edgeNotFound (source target : Text)
  deriving DecidableEq, Repr

def quoted (text : Text) : Text := '"' :: text ++ ['"']

def edgeText (source target : Text) : Text := source ++ " -> " ++ target

def SkipReason.text : SkipReason → Text
  | .notSupported => "not supported"
  | .unknownOperation => "unknown operation"
  | .missingNewNodeOrLane => "missing newNode or laneId"
  | .unknownShape name => "unknown shape " ++ quoted name
  | .laneNotFound id => "lane " ++ quoted id ++ " not found"
  | .missingNodeId => "missing nodeId"
  | .missingNodeIdOrUpdates => "missing nodeId or updates"
  | .nodeNotFound id => "node " ++ quoted id ++ " not found"
  | .missingNewEdge => "missing newEdge"
  | .sourceNotFound id => "source node " ++ quoted id ++ " not found"
  | .missingEdge => "missing edge specification"
  | .edgeNotFound source target => "edge " ++ edgeText source target ++ " not found"

/-- What an applied edit did. -/
inductive Change
  | addedNode (name id lane : Text)
  | removedNode (id : Text)
  | updatedNode (id : Text) (keys : List Text)
  | addedEdge (source target : Text) (label : Option Text)
  | removedEdge (source target : Text)
  deriving DecidableEq, Repr

def Change.text : Change → Text
  | .addedNode name id lane => "added " ++ quoted name ++ " as " ++ id ++ " in " ++ lane
  | .removedNode id => "removed " ++ id
  | .updatedNode id keys => "updated " ++ id ++ " with " ++ join ", " keys
  | .addedEdge source target label =>
    "added " ++ edgeText source target ++ (match label with
      | some label => " [" ++ label ++ "]"
      | none => [])
  | .removedEdge source target => "removed " ++ edgeText source target

inductive Outcome
  | applied (change : Change)
  | skipped (reason : SkipReason)
  deriving DecidableEq, Repr

/-- The record of one operation. -/
structure Entry where
  op : Text
  outcome : Outcome
  deriving DecidableEq, Repr

namespace Entry

def isApplied (entry : Entry) : Bool :=
  match entry.outcome with
  | .applied _ => true
  | .skipped _ => false

/-- The operation's name; one that is skipped without a name is given a stand-in. -/
def name (entry : Entry) : Text :=
  match entry.outcome with
  | .applied _ => entry.op
  | .skipped _ => if entry.op.isEmpty then "<missing op>" else entry.op

def message (entry : Entry) : Text :=
  match entry.outcome with
  | .applied change => change.text
  | .skipped reason => reason.text

/-- The line of the log. -/
def text (entry : Entry) : Text :=
  match entry.outcome with
  | .applied change => entry.name ++ ": " ++ change.text
  | .skipped reason => entry.name ++ ": skipped (" ++ reason.text ++ ")"

end Entry

namespace Operation

variable (operation : Operation)

def insertNode? : Except SkipReason Edit :=
  match operation.newNode, operation.laneId.bind nonempty? with
  | some node, some lane =>
    let name := (node.shape.bind nonempty?).getD Shape.rectangle.name
    match Shape.ofName? name with
    | some shape =>
      .ok (.insertNode lane shape (node.label.bind nonempty?) node.properties
        operation.afterNodeId operation.beforeNodeId)
    | none => .error (.unknownShape name)
  | _, _ => .error .missingNewNodeOrLane

def removeNode? : Except SkipReason Edit :=
  match operation.nodeId.bind nonempty? with
  | some id => .ok (.removeNode id)
  | none => .error .missingNodeId

def updateNode? : Except SkipReason Edit :=
  match operation.nodeId.bind nonempty?, operation.updates with
  | some id, some updates => .ok (.updateNode id updates)
  | _, _ => .error .missingNodeIdOrUpdates

/-- The edge that is sent, if both of its ends are named. -/
def edge? : Option NewEdge :=
  operation.newEdge.bind fun edge =>
    if edge.source.isEmpty || edge.target.isEmpty then none else some edge

def insertEdge? : Except SkipReason Edit :=
  match operation.edge? with
  | some edge => .ok (.insertEdge { edge with label := edge.label.bind nonempty? })
  | none => .error .missingNewEdge

def removeEdge? : Except SkipReason Edit :=
  match operation.edge? with
  | some edge => .ok (.removeEdge edge.source edge.target)
  | none => .error .missingEdge

/-- The edit that an operation asks for, if it names one and has all the fields that it takes. -/
def edit? : Except SkipReason Edit :=
  if operation.op = "insertNode".toList then operation.insertNode?
  else if operation.op = "removeNode".toList then operation.removeNode?
  else if operation.op = "updateNode".toList then operation.updateNode?
  else if operation.op = "insertEdge".toList then operation.insertEdge?
  else if operation.op = "removeEdge".toList then operation.removeEdge?
  else if operation.op = "updateEdge".toList then .error .notSupported
  else .error .unknownOperation

end Operation

end Swimlane.Patch
