import Swimlane.Text.Basic

/-! The kinds of things in a diagram: shapes of nodes, what nodes and lanes stand for, handles. -/
namespace Swimlane

inductive Shape
  | circle
  | rectangle
  | diamond
  | taskbox
  deriving DecidableEq, Repr

inductive NodeKind
  | start
  | finish
  | step
  | decision
  | task
  deriving DecidableEq, Repr

inductive LaneKind
  | actor
  | system
  | unknown
  deriving DecidableEq, Repr

/-- The sides of a node where an edge can meet it. -/
inductive Handle
  | left
  | right
  | top
  | bottom
  deriving DecidableEq, Repr

namespace Shape

def all : List Shape := [.circle, .rectangle, .diamond, .taskbox]

def name : Shape → Text
  | .circle => "circle"
  | .rectangle => "rectangle"
  | .diamond => "diamond"
  | .taskbox => "taskbox"

def ofName? (name : Text) : Option Shape := all.find? (·.name = name)

theorem ofName?_name (shape : Shape) : ofName? shape.name = some shape := by
  cases shape <;> decide

theorem name_ofName? {name : Text} {shape : Shape} (h : ofName? name = some shape) :
    shape.name = name := by
  simpa using List.find?_some h

end Shape

namespace NodeKind

def all : List NodeKind := [.start, .finish, .step, .decision, .task]

def name : NodeKind → Text
  | .start => "start"
  | .finish => "end"
  | .step => "step"
  | .decision => "decision"
  | .task => "task"

def ofName? (name : Text) : Option NodeKind := all.find? (·.name = name)

end NodeKind

namespace LaneKind

def all : List LaneKind := [.actor, .system, .unknown]

def name : LaneKind → Text
  | .actor => "actor"
  | .system => "system"
  | .unknown => "unknown"

def ofName? (name : Text) : Option LaneKind := all.find? (·.name = name)

end LaneKind

namespace Handle

def all : List Handle := [.left, .right, .top, .bottom]

def name : Handle → Text
  | .left => "left"
  | .right => "right"
  | .top => "top"
  | .bottom => "bottom"

end Handle

end Swimlane
