import Swimlane.Diagram.Attribute
import Swimlane.Diagram.Shape
import Swimlane.Text.Lowercase

/-! What a single line of diagram text declares. -/
namespace Swimlane

open Text Escaped

/-- A node as an edge names it, with the lane if the name has one. -/
structure Reference where
  node : Text
  lane : Option Text := none
  deriving DecidableEq, Repr

/-- The parts of a dotted name are the lane first and the node last. -/
def Reference.ofText (text : Text) : Reference :=
  match (trim text).splitOn '.' with
  | lane :: part :: rest => ⟨(part :: rest).getLast (by simp), some lane⟩
  | parts => ⟨parts.headD [], none⟩

inductive SkipKind
  | comment
  | loop
  | unrecognized
  deriving DecidableEq, Repr

def SkipKind.name : SkipKind → Text
  | .comment => "comment"
  | .loop => "loop"
  | .unrecognized => "unrecognized"

inductive Line
  | laneOpen (lane : Text) (label : Option Text)
  | laneClose
  | node (id : Text) (shape : Shape) (attributes : Attributes)
  | edge (source target : Reference) (sourceHandle targetHandle : Text) (label : Option Text)
  | skipped (text : Text) (kind : SkipKind)

namespace Line

/-- What may follow the brace that opens a lane: nothing, or a label after a number sign. -/
def laneLabel? (text : Text) : Option Text :=
  match trimLeft text with
  | [] => some []
  | c :: rest =>
    if c = '#' && !(trimLeft rest).contains '\n' then some (trimLeft rest) else none

/-- The lane's name and label, at the first brace that opens a lane. `before` holds the characters
read so far, last first. -/
def laneOpenFrom? (before : Text) : Text → Option (Text × Text)
  | [] => none
  | c :: rest =>
    if c = '\x7b' && !before.isEmpty then
      let name := (before.dropWhile isBlank).reverse
      match laneLabel? rest with
      | some label => if name.contains '\n' then none else some (name, label)
      | none => laneOpenFrom? (c :: before) rest
    else laneOpenFrom? (c :: before) rest

def laneOpen? (text : Text) : Option Line :=
  (laneOpenFrom? [] text).map fun (name, label) => .laneOpen name (nonempty? (trim label))

/-- The shape whose name is the first word of the text, and the text after it. -/
def leadingShape? (text : Text) : Option (Shape × Text) :=
  Shape.all.findSome? fun shape =>
    (after? shape.name text).bind fun rest =>
      if rest.head?.any isWord then none else some (shape, rest)

/-- An identifier, a colon and a shape, and the text after them. -/
def nodeHead? (text : Text) : Option (Text × Shape × Text) :=
  let id := text.takeWhile isWord
  if id.isEmpty then none
  else
    (after? [':'] (text.dropWhile isWord)).bind fun rest =>
      (leadingShape? (trimLeft rest)).map fun (shape, rest) => (id, shape, rest)

def arrow : Text := ['-', '>']

def node? (text : Text) : Option Line :=
  if mentions arrow text then none
  else
    (nodeHead? text).bind fun (id, shape, rest) =>
      let tail := trimLeft rest
      if tail.contains '\n' then none else some (.node id shape (readAttributes tail))

/-- A handle in parentheses, and the text after it. -/
def handle? (text : Text) : Option (Text × Text) :=
  (after? ".handle(" text).bind fun rest =>
    let handle := rest.takeWhile (· ≠ ')')
    match rest.dropWhile (· ≠ ')') with
    | [] => none
    | _ :: after => if handle.isEmpty then none else some (handle, after)

/-- One end of an edge as it is written, and the text after it. -/
structure EndPoint where
  name : Text
  handle : Text
  rest : Text
  deriving DecidableEq, Repr

/-- The first way to read an end of an edge that leads on, the shortest name first. Names stay on one
line. `before` holds the characters read so far, last first. -/
def endPointFrom? {α : Type} (lead : EndPoint → Option α) (before : Text) : Text → Option α
  | [] => none
  | c :: rest =>
    let here := if before.isEmpty then none else handle? (c :: rest)
    match here.bind fun (handle, after) => lead ⟨before.reverse, handle, after⟩ with
    | some found => some found
    | none => if c = '\n' then none else endPointFrom? lead (c :: before) rest

/-- The end that an arrow points to. If nothing but a handle follows the blanks after the arrow, the
last of those blanks is its name. -/
def target? (text : Text) : Option EndPoint :=
  match endPointFrom? some [] (trimLeft text) with
  | some point => some point
  | none =>
    match (text.takeWhile isBlank).getLast?, handle? (trimLeft text) with
    | some blank, some (handle, rest) => if blank = '\n' then none else some ⟨[blank], handle, rest⟩
    | _, _ => none

/-- The label in brackets at the start of the text, if there is a whole one. -/
def edgeLabel? (text : Text) : Option Text :=
  (after? "[label" (trimLeft text)).bind fun rest =>
    match valueAfter? rest with
    | some (_, body, ']' :: _) => some body
    | _ => none

/-- The edge from a source, if an arrow and a target follow. -/
def edgeFrom? (source : EndPoint) : Option Line :=
  (after? arrow (trimLeft source.rest)).bind fun rest =>
    (target? rest).map fun target =>
      .edge (.ofText source.name) (.ofText target.name) (lower (trim source.handle))
        (lower (trim target.handle)) (((edgeLabel? target.rest).bind nonempty?).map decode)

def edge? (text : Text) : Option Line := endPointFrom? edgeFrom? [] text

def isLoop (text : Text) : Bool :=
  match after? "loop" text with
  | some rest => (trimLeft rest).head? = some '['
  | none => false

def skipKind (text : Text) : SkipKind :=
  if text.head? = some '#' then .comment else if isLoop text then .loop else .unrecognized

/-- Reads a line: lanes first, then nodes, then edges; what is left declares nothing. -/
def read (text : Text) : Line :=
  let line := trim text
  match laneOpen? line with
  | some opened => opened
  | none =>
    if line = ['\x7d'] then .laneClose
    else
      match (node? line).or (edge? line) with
      | some declared => declared
      | none => .skipped line (skipKind line)

end Line

end Swimlane
