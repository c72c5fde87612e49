import Swimlane.Demonstration
import Swimlane.Diagram.Classification
import Swimlane.Main
import Swimlane.Proofs.CommandLine.Lines
import Swimlane.Proofs.Diagram.Comments
import Swimlane.Proofs.Diagram.Formatting
import Swimlane.Proofs.Diagram.Grammar
import Swimlane.Proofs.Diagram.Strictness
import Swimlane.Proofs.Diagram.WellFormed
import Swimlane.Proofs.Diagram.WrittenLines
import Swimlane.Proofs.Diff.Reversal
import Swimlane.Proofs.Endpoint.Changes
import Swimlane.Proofs.Endpoint.Controls
import Swimlane.Proofs.Endpoint.Handover
import Swimlane.Proofs.Endpoint.Playground
import Swimlane.Proofs.Patch.Agreement
import Swimlane.Proofs.Patch.Batches
import Swimlane.Proofs.Patch.Characters
import Swimlane.Proofs.Patch.Commutation
import Swimlane.Proofs.Patch.Contract
import Swimlane.Proofs.Patch.EdgePlacement
import Swimlane.Proofs.Patch.EdgeRemoval
import Swimlane.Proofs.Patch.Insertion
import Swimlane.Proofs.Patch.Lanes
import Swimlane.Proofs.Patch.LineCuts
import Swimlane.Proofs.Patch.LineEnds
import Swimlane.Proofs.Patch.NodePlacement
import Swimlane.Proofs.Patch.Repetition
import Swimlane.Proofs.Patch.Undoing
import Swimlane.Proofs.Endpoint.Validation
