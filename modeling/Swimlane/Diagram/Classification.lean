import Swimlane.Diagram.Builder
import Swimlane.Json.Value

/-! Kinds that are named beforehand, and the questions that they answer. -/
namespace Swimlane

/-- A name that is none of the names of its sort. -/
inductive UnknownName
  | shape (name : Text)
  | nodeKind (name : Text)
  | laneKind (name : Text)
  deriving DecidableEq, Repr

def UnknownName.message : UnknownName → Text
  | .shape name => Json.quote name ++ " is not a valid Shape"
  | .nodeKind name => Json.quote name ++ " is not a valid NodeKind"
  | .laneKind name => Json.quote name ++ " is not a valid LaneType"

namespace Classifier

/-- What is asked about a lane when it is first opened, and about every declared node. -/
inductive Question
  | lane (id label : Text)
  | node (shape : Shape) (label : Text)
  deriving DecidableEq, Repr

/-- The questions about some lines; `seen` holds the lanes opened above. -/
def questionsFrom (seen : List Text) : List SourceLine → List Question
  | [] => []
  | line :: rest =>
    match line.line with
    | .laneOpen id label =>
      if id ∈ seen then questionsFrom seen rest
      else .lane id (laneLabel id label rest) :: questionsFrom (id :: seen) rest
    | .node _ shape attributes =>
      .node shape ((attributes.get? "label").getD []) :: questionsFrom seen rest
    | _ => questionsFrom seen rest

end Classifier

/-- The kinds that are named beforehand; the others are guessed. -/
structure NamedKinds where
  lane : Option Text := none
  node : Option Text := none

namespace NamedKinds

open Classifier

/-- Whether a question is answered by name. -/
def covers (named : NamedKinds) : Question → Bool
  | .lane _ _ => named.lane.isSome
  | .node _ _ => named.node.isSome

def answers (named : NamedKinds) : Answers UnknownName where
  laneKind id label :=
    match named.lane with
    | none => .ok (laneKindOf id label)
    | some name =>
      match LaneKind.ofName? name with
      | some kind => .ok kind
      | none => .error (.laneKind name)
  nodeKind shape label :=
    match named.node with
    | none => .ok (nodeKindOf shape label)
    | some name =>
      match NodeKind.ofName? name with
      | some kind => .ok kind
      | none => .error (.nodeKind name)

end NamedKinds

namespace Graph

/-- A graph, and the questions that were answered by name. -/
structure Reading where
  graph : Graph
  answered : List Classifier.Question

/-- Reads a text with some kinds named beforehand. -/
def ofTextNamed (strict : Bool) (named : NamedKinds) (text : Text) :
    Except (ReadingError UnknownName) Reading :=
  (ofTextWith strict named.answers text).map fun graph =>
    ⟨graph, (Classifier.questionsFrom [] (sourceLines text)).filter named.covers⟩

end Graph

end Swimlane
