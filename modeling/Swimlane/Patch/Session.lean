import Swimlane.Diagram.Render
import Swimlane.Patch.Edit
import Swimlane.Patch.LineIndex
import Swimlane.Text.Lines

/-! Edits applied to the lines of a text, one after the other. Lines that no edit touches stay as
they are. -/
namespace Swimlane.Patch

open Text

/-- Why a run of edits ends early. -/
inductive Fault
  | digits (limit : DigitLimit)
  | lineOutOfRange
  deriving DecidableEq, Repr

/-- The text under edit: its lines, where things stand in them, and the highest number that an
identifier was given. -/
structure Session where
  newline : Newline
  lines : List Text
  index : LineIndex
  lastId : Nat

/-- What an edit leads to, with the session as the edit leaves it. -/
inductive Effect
  | applied (change : Change) (session : Session)
  | skipped (reason : SkipReason) (session : Session)

/-- The lines with one more, the last if there are fewer lines than `position`. -/
def insertAt (position : Nat) (line : Text) (lines : List Text) : List Text :=
  lines.take position ++ line :: lines.drop position

/-- A node's line with another shape. -/
def setShape (line : Text) (shape : Shape) : Text :=
  let margin := line.takeWhile isBlank
  let start := line.dropWhile isBlank
  let id := start.takeWhile isWord
  if id.isEmpty then line
  else
    match after? [':'] (start.dropWhile isWord) with
    | none => line
    | some rest =>
      match Line.leadingShape? (trimLeft rest) with
      | some (_, after) =>
        margin ++ id ++ ":" ++ rest.takeWhile isBlank ++ shape.name ++ after
      | none => line

/-- A node's line after one update; `shape` sets its shape and any other key an attribute. -/
def updateLine (line key value : Text) : Except SkipReason Text :=
  if key = "shape".toList then
    match Shape.ofName? value with
    | some shape => .ok (setShape line shape)
    | none => .error (.unknownShape value)
  else .ok (setAttribute line key value)

def updateAll (line : Text) (updates : List (Text × Text)) : Except SkipReason Text :=
  updates.foldlM (fun line (key, value) => updateLine line key value) line

/-- The text from each place up to the first that is not blank. -/
def blankTails : Text → List Text
  | [] => [[]]
  | c :: rest => (c :: rest) :: if isBlank c then blankTails rest else []

/-- The text, and the text after a lane's name and a point. -/
def laneTails (text : Text) : List Text :=
  let lane := text.takeWhile isWord
  match text.dropWhile isWord with
  | '.' :: rest => if lane.isEmpty then [text] else [text, rest]
  | _ => [text]

/-- Where a node's name can start, after blanks and a lane. -/
def nameStarts (text : Text) : List Text := (blankTails text).flatMap laneTails

/-- Whether a line is an edge between two nodes, in whatever lanes they are said to be. -/
def isEdgeBetween (source target line : Text) : Bool :=
  (nameStarts line).any fun start =>
    match ((after? source start).bind Line.handle?).bind fun (_, rest) =>
        after? Line.arrow (trimLeft rest) with
    | some rest => (nameStarts rest).any fun start => (after? (target ++ ".handle") start).isSome
    | none => false

namespace Session

variable (session : Session)

def ofText (text : Text) : Except Fault Session :=
  let newline := Newline.ofText text
  let lines := newline.split text
  let index := LineIndex.scan lines
  match index.highestId with
  | .ok lastId => .ok ⟨newline, lines, index, lastId⟩
  | .error limit => .error (.digits limit)

def text : Text := session.newline.join session.lines

def insertLine (position : Int) (line : Text) : Session :=
  { session with
    lines := insertAt position.toNat line session.lines
    index := session.index.shift position 1 }

def removeLine (position : Int) : Except Fault Session :=
  if position.toNat < session.lines.length then
    .ok { session with
      lines := session.lines.eraseIdx position.toNat
      index := session.index.shift (position + 1) (-1) }
  else .error .lineOutOfRange

/-- Before or after an anchor in the lane, else before the lane's closing brace. -/
def insertionLine (lane : Text) (span : Span) (after before : Option Text) : Int :=
  match after.bind (session.index.lineIn? lane) with
  | some line => line + 1
  | none => (before.bind (session.index.lineIn? lane)).getD span.closing

def nextId : Except Fault Text :=
  let digits := ofNat (session.lastId + 1)
  if maxDigits < digits.length then .error (.digits .writing) else .ok ('n' :: digits)

def insertNode (lane : Text) (shape : Shape) (label : Option Text) (properties : Attributes)
    (after before : Option Text) : Except Fault Effect := do
  match session.index.laneSpans.get? lane with
  | none => return .skipped (.laneNotFound lane) session
  | some span =>
    let id ← session.nextId
    let position := session.insertionLine lane span after before
    let attributes := label.toList.map (("label".toList, ·)) ++ properties.entries
    let grown := session.insertLine position (renderNode id shape attributes)
    return .applied (.addedNode (label.getD id) id lane)
      { grown with
        index := grown.index.addNode id lane position
        lastId := session.lastId + 1 }

def removeNode (id : Text) : Except Fault Effect := do
  match session.index.nodeLines.get? id with
  | none => return .skipped (.nodeNotFound id) session
  | some position =>
    let forgotten := { session with index := session.index.forgetNode id }
    return .applied (.removedNode id) (← forgotten.removeLine position)

def updateNode (id : Text) (updates : Attributes) : Except Fault Effect :=
  match session.index.nodeLines.get? id with
  | none => .ok (.skipped (.nodeNotFound id) session)
  | some position =>
    match session.lines[position.toNat]? with
    | none => .error .lineOutOfRange
    | some line =>
      match updateAll line updates.entries with
      | .error reason => .ok (.skipped reason session)
      | .ok line =>
        .ok (.applied (.updatedNode id updates.keys)
          { session with lines := session.lines.set position.toNat line })

/-- The target's name, with its lane if that is not the source's. -/
def targetName (sourceLane target : Text) : Text :=
  match session.index.nodeLanes.get? target with
  | some lane =>
    if lane.isEmpty || lane = sourceLane || lane = defaultLane then target
    else lane ++ "." ++ target
  | none => target

def insertEdge (edge : NewEdge) : Effect :=
  match session.index.nodeLanes.get? edge.source with
  | none => .skipped (.sourceNotFound edge.source) session
  | some lane =>
    match session.index.laneSpans.get? lane with
    | none => .skipped (.laneNotFound lane) session
    | some span =>
      let line := renderEdge edge.source edge.sourceHandle (session.targetName lane edge.target)
        edge.targetHandle edge.label
      .applied (.addedEdge edge.source edge.target edge.label)
        (session.insertLine span.closing line)

def removeEdge (source target : Text) : Except Fault Effect := do
  match session.lines.findIdx? (isEdgeBetween source target) with
  | none => return .skipped (.edgeNotFound source target) session
  | some position => return .applied (.removedEdge source target) (← session.removeLine position)

def perform : Edit → Except Fault Effect
  | .insertNode lane shape label properties after before =>
    session.insertNode lane shape label properties after before
  | .removeNode id => session.removeNode id
  | .updateNode id updates => session.updateNode id updates
  | .insertEdge edge => .ok (session.insertEdge edge)
  | .removeEdge source target => session.removeEdge source target

/-- Applies one operation and records what came of it. -/
def step (operation : Operation) : Except Fault (Session × Entry) := do
  match operation.edit? with
  | .error reason => return (session, ⟨operation.op, .skipped reason⟩)
  | .ok edit =>
    match ← session.perform edit with
    | .applied change after => return (after, ⟨operation.op, .applied change⟩)
    | .skipped reason after => return (after, ⟨operation.op, .skipped reason⟩)

/-- Applies operations in order; the entries are in the same order. -/
def run (session : Session) : List Operation → Except Fault (Session × List Entry)
  | [] => .ok (session, [])
  | operation :: rest => do
    let (after, entry) ← session.step operation
    let (last, entries) ← run after rest
    return (last, entry :: entries)

/-- A fault, and the index as it then stands. -/
structure Interruption where
  fault : Fault
  index : LineIndex

/-- The index when an operation ends in a fault. A node is forgotten before its line is removed. -/
def indexAtFault (operation : Operation) : LineIndex :=
  match operation.edit? with
  | .ok (.removeNode id) => session.index.forgetNode id
  | _ => session.index

/-- The steps of a run, and what interrupted it. -/
structure Trace where
  steps : List (Session × Entry)
  interruption : Option Interruption

/-- The sessions after each operation with their entries, up to a fault. -/
def trace (session : Session) : List Operation → Trace
  | [] => ⟨[], none⟩
  | operation :: rest =>
    match session.step operation with
    | .error fault => ⟨[], some ⟨fault, session.indexAtFault operation⟩⟩
    | .ok (after, entry) =>
      let later := trace after rest
      { later with steps := (after, entry) :: later.steps }

namespace Trace

def entries (trace : Trace) : List Entry := trace.steps.map Prod.snd

/-- The session after the last step of a run from `first`. -/
def last (trace : Trace) (first : Session) : Session := (trace.steps.map Prod.fst).getLastD first

/-- The index when the run is over. -/
def lastIndex (trace : Trace) (first : Session) : LineIndex :=
  (trace.interruption.map Interruption.index).getD (trace.last first).index

end Trace

/-- The trace of a run tells what the run comes to. -/
theorem run_eq_trace (session : Session) (operations : List Operation) :
    session.run operations =
      match (session.trace operations).interruption with
      | some interruption => .error interruption.fault
      | none =>
        .ok ((session.trace operations).last session, (session.trace operations).entries) := by
  induction operations generalizing session with
  | nil => rfl
  | cons operation rest ih =>
    rw [run, trace]
    cases session.step operation with
    | error fault => rfl
    | ok result =>
      obtain ⟨after, entry⟩ := result
      simp only [bind, Except.bind, ih]
      cases (after.trace rest).interruption with
      | some interruption => rfl
      | none =>
        simp only [Trace.last, Trace.entries, List.map_cons, List.getLastD_cons, pure, Except.pure]

end Session

structure Result where
  code : Text
  entries : List Entry

namespace Result

/-- One line for each operation. -/
def log (result : Result) : List Text := result.entries.map Entry.text

/-- The lines of the operations that were passed over. -/
def skipped (result : Result) : List Text :=
  (result.entries.filter (!·.isApplied)).map Entry.text

end Result

/-- The text after the operations, with a record of each. -/
def applyChanges (text : Text) (operations : List Operation) : Except Fault Result := do
  let session ← Session.ofText text
  let (last, entries) ← session.run operations
  return ⟨last.text, entries⟩

/-- Why a batch of JSON comes to nothing. -/
inductive Breakoff
  | unlisted (reason : Unlisted)
  | fault (fault : Fault)
  deriving DecidableEq, Repr

/-- The operations of a batch are all read before the text is looked at. -/
def applyJson (room : Nat) (text : Text) (batch : Json) : Except Breakoff Result := do
  let operations ← (Operation.listOfJson room batch).mapError .unlisted
  (applyChanges text operations).mapError .fault

end Swimlane.Patch
