import Swimlane.Diagram.Graph
import Swimlane.Diagram.Line
import Swimlane.Text.WholeNumber

/-! Where the nodes and lanes of a text stand, kept up to date by shifts when lines come and go. -/
namespace Swimlane.Patch

open Text

/-- The lines of a lane's opening and of its closing brace. -/
structure Span where
  opening : Int
  closing : Int
  deriving DecidableEq, Repr

/-- Lines are counted from zero. -/
structure LineIndex where
  nodeLines : OrderedMap Text Int
  nodeLanes : OrderedMap Text Text
  laneSpans : OrderedMap Text Span

/-- A number of too many digits, to be read or to be written. -/
inductive DigitLimit
  | reading (count : Nat)
  | writing
  deriving DecidableEq, Repr

def DigitLimit.message : DigitLimit → Text
  | .reading count => tooManyDigits (some count)
  | .writing => tooManyDigits none

/-- The digits of an identifier that is `n` and a number. -/
def sequentialDigits? : Text → Option Text
  | 'n' :: digits => if !digits.isEmpty && digits.all isDecimalDigit then some digits else none
  | _ => none

namespace LineIndex

def empty : LineIndex := ⟨.empty, .empty, .empty⟩

/-- Adds what the lines say from `number` on. `current` is the lane that is open there, with the
line that opened it. -/
def scanFrom (number : Int) (current : Option (Text × Int)) (index : LineIndex) :
    List Text → LineIndex
  | [] => index
  | line :: rest =>
    match Line.read line with
    | .laneOpen id _ => scanFrom (number + 1) (some (id, number)) index rest
    | .laneClose =>
      let index := match current with
        | some (id, opening) =>
          { index with laneSpans := index.laneSpans.insert id ⟨opening, number⟩ }
        | none => index
      scanFrom (number + 1) none index rest
    | .node id _ _ =>
      let lane := (current.map Prod.fst).getD defaultLane
      let index := { index with
        nodeLines := index.nodeLines.insert id number
        nodeLanes := index.nodeLanes.insert id lane }
      scanFrom (number + 1) current index rest
    | _ => scanFrom (number + 1) current index rest

def scan (lines : List Text) : LineIndex := scanFrom 0 none empty lines

def movedFrom (start delta position : Int) : Int :=
  if start ≤ position then position + delta else position

/-- Moves every line from `start` on by `delta`. -/
def shift (start delta : Int) (index : LineIndex) : LineIndex :=
  let moved := movedFrom start delta
  { index with
    nodeLines := index.nodeLines.mapValues moved
    laneSpans := index.laneSpans.mapValues fun span => ⟨moved span.opening, moved span.closing⟩ }

def forgetNode (id : Text) (index : LineIndex) : LineIndex :=
  { index with nodeLines := index.nodeLines.erase id, nodeLanes := index.nodeLanes.erase id }

def addNode (id lane : Text) (position : Int) (index : LineIndex) : LineIndex :=
  { index with
    nodeLines := index.nodeLines.insert id position
    nodeLanes := index.nodeLanes.insert id lane }

/-- The line of a node that stands in a lane. -/
def lineIn? (index : LineIndex) (lane : Text) (id : Text) : Option Int :=
  if index.nodeLanes.get? id = some lane then index.nodeLines.get? id else none

/-- The number in an identifier, zero if it has none. -/
def sequentialNumber (id : Text) : Except DigitLimit Nat :=
  match sequentialDigits? id with
  | none => .ok 0
  | some digits =>
    if maxDigits < digits.length then .error (.reading digits.length)
    else .ok (digitsValue digits)

/-- The highest number of an identifier that is `n` and a number. -/
def highestId (index : LineIndex) : Except DigitLimit Nat :=
  index.nodeLines.keys.foldlM (fun highest id => return max highest (← sequentialNumber id)) 0

end LineIndex

end Swimlane.Patch
