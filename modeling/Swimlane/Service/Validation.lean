import Swimlane.Service.Exchange

/-! What a validation service says about a diagram, read from whatever JSON it sends. -/
namespace Swimlane.Service

structure Issue where
  line : Int
  message : Text
  deriving DecidableEq, Repr

/-- How many lanes, nodes and edges were counted. -/
structure Counts where
  lanes : Int
  nodes : Int
  edges : Int
  deriving DecidableEq, Repr

structure Validation where
  valid : Bool
  errors : List Issue
  warnings : List Json
  stats : Option Counts

/-- Of errors and of warnings only the first ones are kept. -/
def maxIssues : Nat := 50

/-- The whole number in a value; what is not a number counts as zero. -/
def wholeNumber : Json → Except Overflow Int
  | .bool true => .ok 1
  | .int value => .ok value
  | .float (.infinite _) => .error .infinity
  | .float value => .ok (value.truncate?.getD 0)
  | .str text => .ok ((Text.wholeNumber? text).getD 0)
  | _ => .ok 0

/-- The text of a value, whose strings keep halves. -/
def textOf (room : Nat) (value : Json) : Except Overflow Text :=
  (value.displayKept room).mapError .excess

def Issue.ofJson (room : Nat) : Json → Except Overflow Issue
  | .obj fields => do
    let line ← wholeNumber (Json.field fields "line")
    let message ← textOf room ((Json.field? fields "message").getD (.str []))
    return ⟨line, message⟩
  | other => do
    let message ← textOf room other
    return ⟨0, message⟩

def Counts.ofFields (fields : List (Text × Json)) : Except Overflow Counts := do
  let lanes ← wholeNumber (Json.field fields "lanes")
  let nodes ← wholeNumber (Json.field fields "nodes")
  let edges ← wholeNumber (Json.field fields "edges")
  return ⟨lanes, nodes, edges⟩

/-- The first items of a list; any other value has none. -/
def firstItems (value : Json) : List Json := (value.arr?.getD []).take maxIssues

def Validation.ofFields (room : Nat) (fields : List (Text × Json)) : Except Overflow Validation := do
  let errors ← (firstItems (Json.field fields "errors")).mapM (Issue.ofJson room)
  let stats ← (Json.field fields "stats").obj?.mapM Counts.ofFields
  return {
    valid := (Json.field fields "valid").holds
    errors
    warnings := firstItems (Json.field fields "warnings")
    stats }

def Issue.toJson (issue : Issue) : Json :=
  .obj [("line", .int issue.line), ("message", issue.message)]

def Counts.toJson (counts : Counts) : Json :=
  .obj [("lanes", .int counts.lanes), ("nodes", .int counts.nodes), ("edges", .int counts.edges)]

def Validation.fields (validation : Validation) : List (Text × Json) :=
  [("valid", .bool validation.valid), ("errors", .arr (validation.errors.map Issue.toJson)),
   ("warnings", .arr validation.warnings),
   ("stats", (validation.stats.map Counts.toJson).getD .null)]

end Swimlane.Service
