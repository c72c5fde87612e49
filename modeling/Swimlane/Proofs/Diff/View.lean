import Mathlib.Data.Set.Basic
import Swimlane.Diff
import Swimlane.Proofs.OrderedMap

/-! What a diff sees of a graph, and what becomes of that when the changes of a diff are made. -/
namespace Swimlane

open Text

/-- What is compared of a node. -/
structure Content where
  label : Text
  shape : Shape
  lane : Text
  deriving DecidableEq

def Node.content (node : Node) : Content := ⟨node.label, node.shape, node.lane⟩

namespace Content

variable {before after : Content}

def value (content : Content) : NodeField → Text
  | .label => content.label
  | .shape => content.shape.name
  | .lane => content.lane

/-- The fields in which two contents differ, with both values. -/
def changes (before after : Content) : List FieldChange :=
  (NodeField.all.filter fun field => before.value field ≠ after.value field).map fun field =>
    ⟨field, before.value field, after.value field⟩

/-- A content with another value in one field; only a name of a shape sets the shape. -/
def set (content : Content) (field : NodeField) (value : Text) : Content :=
  match field with
  | .label => { content with label := value }
  | .shape => { content with shape := (Shape.ofName? value).getD content.shape }
  | .lane => { content with lane := value }

def setAll (content : Content) (changes : List FieldChange) : Content :=
  changes.foldl (fun content change => content.set change.field change.new) content

theorem name_inj {shape other : Shape} : shape.name = other.name ↔ shape = other := by
  constructor
  · intro h
    have hshape := Shape.ofName?_name shape
    rw [h, Shape.ofName?_name] at hshape
    exact (Option.some.inj hshape).symm
  · exact congrArg Shape.name

theorem eq_iff : before = after ↔ ∀ field ∈ NodeField.all, before.value field = after.value field := by
  cases before
  cases after
  simp [NodeField.all, value, name_inj]

theorem changes_eq_nil_iff : changes before after = [] ↔ before = after := by
  rw [changes, List.map_eq_nil_iff, List.filter_eq_nil_iff, eq_iff]
  simp

/-- The differing fields, set anew, make one content of the other. -/
theorem setAll_changes (before after : Content) : before.setAll (before.changes after) = after := by
  obtain ⟨label, shape, lane⟩ := before
  obtain ⟨newLabel, newShape, newLane⟩ := after
  by_cases hlabel : label = newLabel <;> by_cases hshape : shape = newShape <;>
    by_cases hlane : lane = newLane <;>
    simp [setAll, changes, NodeField.all, value, set, name_inj, Shape.ofName?_name, *]

end Content

/-- What a diff sees of a graph: the contents of the last node with each id, the ends of the edges,
and the ids of the lanes. -/
@[ext]
structure View where
  node? : Text → Option Content
  edges : Set (Text × Text)
  lanes : Set Text

namespace Graph

variable {graph : Graph} {id : Text}

def laneIds (graph : Graph) : List Text := graph.lanes.map (·.id)

def view (graph : Graph) : View where
  node? id := (lastWith? Node.id graph.nodes id).map Node.content
  edges := { ends | ends ∈ graph.edges.map Edge.ends }
  lanes := { lane | lane ∈ graph.laneIds }

theorem isSome_view_node? : (graph.view.node? id).isSome ↔ id ∈ graph.nodes.map Node.id := by
  rw [view, Option.isSome_map, isSome_lastWith?]

theorem node?_eq_lastWith? : graph.node? id = lastWith? Node.id graph.nodes id :=
  OrderedMap.get?_ofItems

theorem view_node?_eq : graph.view.node? id = (graph.node? id).map Node.content := by
  rw [node?_eq_lastWith?]
  rfl

end Graph

namespace Diff

/-- What a node holds when the changes of a diff are made in what it held before. -/
def contentAfter? (diff : Diff) (id : Text) (before : Option Content) : Option Content :=
  if id ∈ diff.nodesRemoved.map Node.id then none
  else
    match diff.nodesAdded.find? (·.id = id) with
    | some node => some node.content
    | none =>
      match diff.nodesUpdated.find? (·.id = id) with
      | some update => before.map (·.setAll update.changes)
      | none => before

/-- A view in which the changes of a diff are made. -/
def applyTo (diff : Diff) (view : View) : View where
  node? id := diff.contentAfter? id (view.node? id)
  edges := { ends | ends ∈ diff.edgesAdded.map Edge.ends ∨
    ends ∈ view.edges ∧ ends ∉ diff.edgesRemoved.map Edge.ends }
  lanes := { lane | lane ∈ diff.lanesAdded ∨ lane ∈ view.lanes ∧ lane ∉ diff.lanesRemoved }

end Diff

end Swimlane
