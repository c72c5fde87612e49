import Swimlane.Diff
import Swimlane.Patch.Session

/-! A demonstration: a diagram, a few operations on it, and what they changed. -/
namespace Swimlane.Demonstration

open Patch

def baseText : Text := Text.join ['\n'] [
  "sales \x7b # Sales",
  "  n1: circle label:\"Order Received\"",
  "  n2: rectangle label:\"Validate Order\"",
  "  n1.handle(right) -> n2.handle(left)",
  "\x7d",
  "",
  "fulfillment \x7b # Fulfillment",
  "  n3: rectangle label:\"Ship\"",
  "\x7d"]

def newEdge (source target : Text) (label : Option Text) : NewEdge :=
  ⟨source, target, label, Handle.right.name, Handle.left.name⟩

def operations : List Operation := [
  { op := "updateNode", nodeId := some "n2",
    updates := some (.ofList [("label".toList, "Check Order".toList)]) },
  { op := "insertNode", laneId := some "sales", afterNodeId := some "n2",
    newNode := some ⟨some "diamond", some "Valid?", .empty⟩ },
  { op := "insertEdge", newEdge := some (newEdge "n2" "n4" none) },
  { op := "insertEdge", newEdge := some (newEdge "n4" "n3" (some "Yes")) }]

/-- Texts in quotation marks, as a list. -/
def idList (ids : List Text) : Text := "[" ++ Text.join ", " (ids.map Json.quote) ++ "]"

def endsText (edge : Edge) : Text :=
  "(" ++ Json.quote edge.source ++ ", " ++ Json.quote edge.target ++ ")"

def changeLines (diff : Diff) : List Text := [
  "Summary: " ++ diff.summary,
  "Added nodes: " ++ idList (diff.nodesAdded.map (·.id)),
  "Updated nodes: " ++ idList (diff.nodesUpdated.map (·.id)),
  "Added edges: [" ++ Text.join ", " (diff.edgesAdded.map endsText) ++ "]"]

/-- The lines that are shown: the log, the new text, the changes. -/
def lines : Except Fault (List Text) := do
  let result ← applyChanges baseText operations
  return result.log ++ result.code :: changeLines (.ofTexts baseText result.code)

end Swimlane.Demonstration
