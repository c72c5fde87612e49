import Swimlane.Diagram.Attribute
import Swimlane.Diagram.Shape
import Swimlane.Json.Value

/-! Patch operations as they are sent, and how they are read from JSON. Every value that is asked for as
a text is shown as one. -/
namespace Swimlane.Patch

/-- A node to insert; its shape is checked when it is inserted. -/
structure NewNode where
  shape : Option Text
  label : Option Text
  properties : Attributes

/-- An edge to insert or to remove. -/
structure NewEdge where
  source : Text
  target : Text
  label : Option Text
  sourceHandle : Text
  targetHandle : Text
  deriving DecidableEq, Repr

/-- An operation with whatever fields were sent; `op` says which of them count. -/
structure Operation where
  op : Text
  nodeId : Option Text := none
  afterNodeId : Option Text := none
  beforeNodeId : Option Text := none
  laneId : Option Text := none
  newNode : Option NewNode := none
  newEdge : Option NewEdge := none
  updates : Option Attributes := none

def supportedOperations : List Text :=
  ["insertNode", "removeNode", "updateNode", "insertEdge", "removeEdge"]

/-- What is wrong with a value that is no list of operations. -/
inductive OperationError
  | notASequence
  | entryNotAnObject (kind : Text)
  | fieldNotAnObject (field kind : Text)
  deriving DecidableEq, Repr

def OperationError.message : OperationError → Text
  | .notASequence => "operations must be a sequence of patch operations."
  | .entryNotAnObject kind => "Patch operation must be an object, got " ++ kind ++ "."
  | .fieldNotAnObject field kind => "'" ++ field ++ "' must be an object, got " ++ kind ++ "."

/-- Why a value is not read as operations: it is malformed, or a text that is asked for is too much. -/
inductive Unlisted
  | malformed (error : OperationError)
  | excess (excess : Json.Excess)
  deriving DecidableEq, Repr

/-- The fields of a field that must hold an object if it holds anything. -/
def objectField (name : Text) (value : Json) : Except Unlisted (Option (List (Text × Json))) :=
  match value with
  | .null => .ok none
  | .obj fields => .ok (some fields)
  | other => .error (.malformed (.fieldNotAnObject name other.kindName))

section

variable (display : Json → Except Json.Excess Text)

/-- The text of a value. -/
def textOf (value : Json) : Except Unlisted Text := (display value).mapError .excess

/-- The text of a value that may be left out. -/
def textUnlessNull : Json → Except Unlisted (Option Text)
  | .null => .ok none
  | value => some <$> textOf display value

/-- The text of a value that holds, else the default. -/
def textOr (default : Text) (value : Json) : Except Unlisted Text :=
  if value.holds then textOf display value else .ok default

/-- Every value as its text. -/
def textFields (fields : List (Text × Json)) : Except Unlisted Attributes :=
  .ofList <$> fields.mapM fun (name, value) => (name, ·) <$> textOf display value

def NewNode.ofFields (fields : List (Text × Json)) : Except Unlisted NewNode := do
  let properties ← objectField "newNode.properties" (Json.field fields "properties")
  let shape ← textUnlessNull display (Json.field fields "shape")
  let label ← textUnlessNull display (Json.field fields "label")
  let properties ← textFields display (properties.getD [])
  return { shape, label, properties }

def NewEdge.ofFields (fields : List (Text × Json)) : Except Unlisted NewEdge := do
  let source ← textOr display [] (Json.field fields "from")
  let target ← textOr display [] (Json.field fields "to")
  let label ← textUnlessNull display (Json.field fields "label")
  let sourceHandle ← textOr display Handle.right.name (Json.field fields "fromHandle")
  let targetHandle ← textOr display Handle.left.name (Json.field fields "toHandle")
  return { source, target, label, sourceHandle, targetHandle }

namespace Operation

def ofFields (fields : List (Text × Json)) : Except Unlisted Operation := do
  let newNode ← objectField "newNode" (Json.field fields "newNode")
  let newEdge ← objectField "newEdge" (Json.field fields "newEdge")
  let updates ← objectField "updates" (Json.field fields "updates")
  let op ← textOr display [] (Json.field fields "op")
  let nodeId ← textUnlessNull display (Json.field fields "nodeId")
  let afterNodeId ← textUnlessNull display (Json.field fields "afterNodeId")
  let beforeNodeId ← textUnlessNull display (Json.field fields "beforeNodeId")
  let laneId ← textUnlessNull display (Json.field fields "laneId")
  let newNode ← newNode.mapM (NewNode.ofFields display)
  let newEdge ← newEdge.mapM (NewEdge.ofFields display)
  let updates ← updates.mapM (textFields display)
  return { op, nodeId, afterNodeId, beforeNodeId, laneId, newNode, newEdge, updates }

def ofJson : Json → Except Unlisted Operation
  | .obj fields => ofFields display fields
  | other => .error (.malformed (.entryNotAnObject other.kindName))

/-- Reads the operations in order. An object stands for the list of its keys, none of which is an
operation. -/
def listWith : Json → Except Unlisted (List Operation)
  | .arr items => items.mapM (ofJson display)
  | .obj [] => .ok []
  | .obj ((name, _) :: _) => .error (.malformed (.entryNotAnObject (Json.str name).kindName))
  | _ => .error (.malformed .notASequence)

end Operation

end

namespace Operation

def listOfJson (room : Nat) (value : Json) : Except Unlisted (List Operation) :=
  listWith (Json.display room) value

/-- Reads the operations from JSON whose strings keep halves. -/
def listOfKept (room : Nat) (value : Json) : Except Unlisted (List Operation) :=
  listWith (Json.displayKept room) value

end Operation

end Swimlane.Patch
