import Swimlane.Diagram.Shape
import Swimlane.Text.Lowercase

/-! What lanes and nodes stand for, guessed from the words in their names. -/
namespace Swimlane

/-- Decides the kinds of lanes, from id and label, and of nodes, from shape and label. -/
structure Classifier where
  laneKind : (id label : Text) → LaneKind
  nodeKind : (shape : Shape) → (label : Text) → NodeKind

namespace Classifier

def actorWords : List Text := ["user", "customer", "client", "actor", "person", "human"]

def systemWords : List Text :=
  ["api", "server", "database", "db", "service", "system", "backend", "frontend"]

def startWords : List Text := ["start", "begin"]

def endWords : List Text := ["end", "complete", "finish"]

def mentionsAny (words : List Text) (text : Text) : Bool := words.any (Text.mentions · text)

/-- A lane that names both a person and a machine is a person's. -/
def laneKindOf (id label : Text) : LaneKind :=
  let name := Text.lower (id ++ " " ++ label)
  if mentionsAny actorWords name then .actor
  else if mentionsAny systemWords name then .system
  else .unknown

/-- A circle is a start unless its label speaks of an end only. -/
def nodeKindOf (shape : Shape) (label : Text) : NodeKind :=
  match shape with
  | .circle =>
    let name := Text.lower label
    if mentionsAny startWords name then .start
    else if mentionsAny endWords name then .finish
    else .start
  | .diamond => .decision
  | .taskbox => .task
  | .rectangle => .step

/-- The classifier that goes by the words above. -/
def byWords : Classifier := ⟨laneKindOf, nodeKindOf⟩

end Classifier

end Swimlane
