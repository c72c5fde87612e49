import Swimlane.Diagram.Parse

/-! The reading of a text in one pass over its lines. The kinds of lanes and nodes are asked for on the
way, which may fail; a strict reading ends at the first line that declares nothing. -/
namespace Swimlane

open Text

/-- Says what lanes and nodes stand for, as far as it can. -/
structure Answers (ε : Type) where
  laneKind : (id label : Text) → Except ε LaneKind
  nodeKind : (shape : Shape) → (label : Text) → Except ε NodeKind

/-- The answers of a classifier, which has one to everything. -/
def Classifier.answers {ε : Type} (classifier : Classifier) : Answers ε where
  laneKind id label := .ok (classifier.laneKind id label)
  nodeKind shape label := .ok (classifier.nodeKind shape label)

namespace Graph

/-- A line that declares nothing and is neither a comment nor a loop. -/
structure ParseError where
  number : Nat
  text : Text
  deriving DecidableEq, Repr

def ParseError.message (error : ParseError) : Text :=
  "Line " ++ ofNat error.number ++ ": Unrecognized line"

/-- Why a text is not read to its end. -/
inductive ReadingError (ε : Type)
  | unrecognized (error : ParseError)
  | unanswered (reason : ε)
  deriving DecidableEq, Repr

/-- The error of a reading in which every question is answered. -/
def ReadingError.parseError : ReadingError Empty → ParseError
  | .unrecognized error => error

/-- What has been read of a text so far. -/
structure Builder where
  lanes : List Lane := []
  nodes : List Node := []
  edges : List Edge := []
  /-- The lanes of the declared nodes, the latest declaration first. -/
  known : List (Text × Text) := []
  current : Option Text := none

namespace Builder

variable {ε : Type}

def graph (builder : Builder) : Graph := ⟨builder.lanes, builder.nodes, builder.edges⟩

/-- A lane keeps the label and the kind of its first opening. -/
def openLane (answers : Answers ε) (builder : Builder) (id label : Text) : Except ε Builder :=
  if id ∈ builder.lanes.map (·.id) then .ok { builder with current := some id }
  else do
    let kind ← answers.laneKind id label
    return { builder with lanes := builder.lanes ++ [⟨id, label, kind⟩], current := some id }

def closeLane (builder : Builder) : Builder := { builder with current := none }

def addNode (answers : Answers ε) (builder : Builder) (id : Text) (shape : Shape)
    (attributes : Attributes) : Except ε Builder := do
  let kind ← answers.nodeKind shape ((attributes.get? "label").getD [])
  return { builder with
    nodes := builder.nodes ++ [declaredNode (fun _ _ => kind) builder.current id shape attributes]
    known := (id, builder.current.getD defaultLane) :: builder.known }

def addEdge (builder : Builder) (source target : Reference) (sourceHandle targetHandle : Text)
    (label : Option Text) : Builder :=
  let edge : Edge :=
    { id := 'e' :: ofNat (builder.edges.length + 1)
      source := source.node
      target := target.node
      sourceHandle, targetHandle
      sourceLane := source.laneIn builder.known
      targetLane := target.laneIn builder.known
      label }
  { builder with edges := builder.edges ++ [edge] }

/-- Reads a line that has `rest` below it. -/
def readLine (strict : Bool) (answers : Answers ε) (builder : Builder) (line : SourceLine)
    (rest : List SourceLine) : Except (ReadingError ε) Builder :=
  match line.line with
  | .laneOpen id label =>
    (builder.openLane answers id (laneLabel id label rest)).mapError .unanswered
  | .laneClose => .ok builder.closeLane
  | .node id shape attributes =>
    (builder.addNode answers id shape attributes).mapError .unanswered
  | .edge source target sourceHandle targetHandle label =>
    .ok (builder.addEdge source target sourceHandle targetHandle label)
  | .skipped _ kind =>
    if strict ∧ kind = .unrecognized then .error (.unrecognized ⟨line.number, line.text⟩)
    else .ok builder

def readLines (strict : Bool) (answers : Answers ε) (builder : Builder) :
    List SourceLine → Except (ReadingError ε) Builder
  | [] => .ok builder
  | line :: rest => do
    let next ← builder.readLine strict answers line rest
    next.readLines strict answers rest

end Builder

/-- Reads a text, strictly or not. -/
def ofTextWith {ε : Type} (strict : Bool) (answers : Answers ε) (text : Text) :
    Except (ReadingError ε) Graph :=
  (Builder.readLines strict answers {} (sourceLines text)).map Builder.graph

/-- The graph of a text in which every line is recognised. -/
def ofTextStrict (text : Text) : Except ParseError Graph :=
  (ofTextWith true Classifier.byWords.answers text).mapError ReadingError.parseError

end Graph

end Swimlane
