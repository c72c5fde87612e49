import Swimlane.Text.Basic

/-! The guide to the notation, as it is shown to those who write diagrams. -/
namespace Swimlane

/-- The lines of the guide. -/
def guideLines : List String := [
  "# FlowZap Code Syntax Guide",
  "",
  "Full documentation: https://flowzap.xyz/docs/mcp",
  "",
  "FlowZap Code is a domain-specific language for workflow diagrams.",
  "",
  "## Global Constraints",
  "- Plain UTF-8 text only, no emojis or special characters",
  "- Node IDs must be n1, n2, n3... (globally unique, sequential, no gaps)",
  "- Only 4 shapes: circle, rectangle, diamond, taskbox",
  "- Only 4 node attributes: label, owner, description, system",
  "- Comments only as \"# Display Label\" immediately after a lane's opening brace",
  "- No Mermaid, PlantUML or other diagram syntaxes",
  "",
  "## Basic Structure",
  "",
  "```",
  "laneName \x7b",
  "  # Lane Display Name",
  "  n1: shapeType label:\"Node Label\"",
  "  n1.handle(right) -> n2.handle(left)",
  "\x7d",
  "```",
  "",
  "## Shape Types",
  "- **circle** - Start/End events",
  "- **rectangle** - Tasks, activities and process steps",
  "- **diamond** - Decision gateways",
  "- **taskbox** - Assigned tasks (with owner, description, system attributes)",
  "",
  "## Node Syntax",
  "- Format: `nX: shape label:\"Text\"`",
  "- Node attributes use a **colon**: `label:\"Text\"`",
  "- Keep labels under 50 characters",
  "",
  "```",
  "n1: circle label:\"Start\"",
  "n2: rectangle label:\"Process Order\"",
  "n3: diamond label:\"Valid?\"",
  "n4: taskbox owner:\"Alice\" description:\"Deploy\" system:\"CI\"",
  "```",
  "",
  "## Edge Syntax",
  "- Edges use handles: `source.handle(direction) -> target.handle(direction)`",
  "- Directions: left, right, top, bottom",
  "- Edge labels use **equals inside brackets**: `[label=\"Text\"]`",
  "- Cross-lane edges prefix the target with its lane: `laneName.nX.handle(direction)`",
  "",
  "```",
  "n1.handle(right) -> n2.handle(left)",
  "n2.handle(bottom) -> n3.handle(top) [label=\"Yes\"]",
  "n3.handle(bottom) -> fulfillment.n4.handle(top) [label=\"Send\"]",
  "```",
  "",
  "## Loops",
  "- Format: `loop [condition] n1 n2 n3`",
  "- Must be inside a lane block and cannot be nested",
  "- Should reference at least 2 nodes",
  "",
  "## Example: Order Processing",
  "",
  "```",
  "sales \x7b",
  "  # Sales Team",
  "  n1: circle label:\"Order Received\"",
  "  n2: rectangle label:\"Validate Order\"",
  "  n3: diamond label:\"Valid?\"",
  "  n1.handle(right) -> n2.handle(left)",
  "  n2.handle(right) -> n3.handle(left)",
  "  n3.handle(right) -> fulfillment.n4.handle(left) [label=\"Yes\"]",
  "  n3.handle(bottom) -> n6.handle(top) [label=\"No\"]",
  "  n6: rectangle label:\"Reject Order\"",
  "\x7d",
  "",
  "fulfillment \x7b",
  "  # Fulfillment",
  "  n4: rectangle label:\"Process Order\"",
  "  n5: circle label:\"Complete\"",
  "  n4.handle(right) -> n5.handle(left)",
  "\x7d",
  "```",
  "",
  "## Common Mistakes",
  "- Unknown attributes like `priority:\"high\"`",
  "- Comments anywhere except right after a lane's opening brace",
  "- Cross-lane references to undefined lanes (`undefined.n5`)",
  "- `n1: rect` instead of `n1: rectangle`",
  "- `n1 -> n2` instead of `n1.handle(right) -> n2.handle(left)`",
  "- `label=\"Text\"` on nodes instead of `label:\"Text\"`",
  "- `[label:\"Text\"]` on edges instead of `[label=\"Text\"]`"]

/-- The guide in Markdown, with a line feed after every line. -/
def guide : Text := guideLines.flatMap fun line => line.toList ++ ['\n']

end Swimlane
