import Swimlane.Diagram.Classifier
import Swimlane.Diagram.Graph
import Swimlane.Diagram.Line
import Swimlane.Text.DecimalDigit
import Swimlane.Text.Lines

/-! The graph that diagram text describes. Lines that declare nothing are passed over. -/
namespace Swimlane

open Text

/-- A numbered line with what it declares. -/
structure SourceLine where
  number : Nat
  text : Text
  line : Line

def sourceLines (text : Text) : List SourceLine :=
  (numberedLines text).map fun ⟨number, text⟩ => ⟨number, text, Line.read text⟩

/-- The label in a comment. -/
def commentLabel? : Text → Option Text
  | '#' :: rest => nonempty? (trim rest)
  | _ => none

/-- A lane's label: written on its opening line, else in a comment on the next, else its id. -/
def laneLabel (id : Text) (label : Option Text) (rest : List SourceLine) : Text :=
  (label.or (rest.head?.bind fun next => commentLabel? next.text)).getD id

/-- The lanes that are opened for the first time; `seen` holds those opened before. -/
def lanesFrom (laneKind : (id label : Text) → LaneKind) (seen : List Text) :
    List SourceLine → List Lane
  | [] => []
  | line :: rest =>
    match line.line with
    | .laneOpen id label =>
      if id ∈ seen then lanesFrom laneKind seen rest
      else
        let label := laneLabel id label rest
        ⟨id, label, laneKind id label⟩ :: lanesFrom laneKind (id :: seen) rest
    | _ => lanesFrom laneKind seen rest

/-- The lane that is open after a line. -/
def laneAfter (current : Option Text) : Line → Option Text
  | .laneOpen id _ => some id
  | .laneClose => none
  | _ => current

/-- The properties of taskboxes, in the order in which they are shown. -/
def propertyKeys : List Text := ["owner", "description", "system"]

/-- The node that a line declares in a lane. -/
def declaredNode (nodeKind : (shape : Shape) → (label : Text) → NodeKind) (lane : Option Text)
    (id : Text) (shape : Shape) (attributes : Attributes) : Node where
  id := id
  lane := lane.getD defaultLane
  label := (((attributes.get? "label").bind nonempty?).or
    ((attributes.get? "description").bind nonempty?)).getD id
  kind := nodeKind shape ((attributes.get? "label").getD [])
  shape := shape
  properties :=
    if shape = .taskbox then
      some (propertyKeys.filterMap fun key =>
        ((attributes.get? key).bind nonempty?).map (key, ·))
    else none

/-- The nodes below a place where `current` is the open lane. -/
def nodesFrom (nodeKind : (shape : Shape) → (label : Text) → NodeKind) (current : Option Text) :
    List Line → List Node
  | [] => []
  | line :: rest =>
    let below := nodesFrom nodeKind (laneAfter current line) rest
    match line with
    | .node id shape attributes => declaredNode nodeKind current id shape attributes :: below
    | _ => below

/-- The lane of one end of an edge: the one that is named, else that of the node's latest
declaration. -/
def Reference.laneIn (known : List (Text × Text)) (reference : Reference) : Option Text :=
  (reference.lane.bind nonempty?).or (known.lookup reference.node)

/-- The edges below a place where `current` is the open lane, `known` the lanes of the nodes that
are declared above, latest first, and `count` the number of edges above. -/
def edgesFrom (current : Option Text) (known : List (Text × Text)) (count : Nat) :
    List Line → List Edge
  | [] => []
  | line :: rest =>
    match line with
    | .node id _ _ => edgesFrom current ((id, current.getD defaultLane) :: known) count rest
    | .edge source target sourceHandle targetHandle label =>
      { id := 'e' :: ofNat (count + 1)
        source := source.node
        target := target.node
        sourceHandle, targetHandle
        sourceLane := source.laneIn known
        targetLane := target.laneIn known
        label } :: edgesFrom current known (count + 1) rest
    | line => edgesFrom (laneAfter current line) known count rest

namespace Graph

def ofLines (classifier : Classifier) (lines : List SourceLine) : Graph where
  lanes := lanesFrom classifier.laneKind [] lines
  nodes := nodesFrom classifier.nodeKind none (lines.map (·.line))
  edges := edgesFrom none [] 0 (lines.map (·.line))

/-- The graph of any text. -/
def ofText (text : Text) : Graph := ofLines .byWords (sourceLines text)

end Graph

end Swimlane
