import Swimlane.Diagram.Attribute
import Swimlane.Diagram.Shape

/-! Lines of diagram text that declare a node or an edge. -/
namespace Swimlane

open Text

def indent : Text := "  "

/-- A node's line; a label comes first among its attributes. -/
def renderNode (id : Text) (shape : Shape) (attributes : List (Text × Text)) : Text :=
  join " " ((indent ++ id ++ ": " ++ shape.name)
    :: attributes.map fun (key, value) => renderAttribute key value)

def renderEndPoint (name handle : Text) : Text := name ++ ".handle(" ++ handle ++ ")"

/-- An edge's line, with its label in brackets if it has one. -/
def renderEdge (source sourceHandle target targetHandle : Text) (label : Option Text) : Text :=
  let edge := indent ++ renderEndPoint source sourceHandle ++ " -> "
    ++ renderEndPoint target targetHandle
  match label with
  | some label => edge ++ " [label=\"" ++ Escaped.encode label ++ "\"]"
  | none => edge

end Swimlane
