import Swimlane.Text.Basic

/-! Cutting text into lines, and the numbered lines that a diagram is read from. -/
namespace Swimlane.Text

/-- Every carriage return with a line feed becomes a line feed alone. -/
def joinBreakPairs : Text → Text
  | '\r' :: '\n' :: rest => '\n' :: joinBreakPairs rest
  | c :: rest => c :: joinBreakPairs rest
  | [] => []

/-- Every line break of any kind becomes a line feed. -/
def unifyBreaks (text : Text) : Text :=
  (joinBreakPairs text).map fun c => if c = '\r' then '\n' else c

/-- The pieces between pairs of a carriage return and a line feed. -/
def splitAtPairs : Text → List Text
  | '\r' :: '\n' :: rest => [] :: splitAtPairs rest
  | c :: rest => (splitAtPairs rest).modifyHead (c :: ·)
  | [] => [[]]

/-- A line without its outer blanks, and its number in the text from one. -/
structure NumberedLine where
  number : Nat
  text : Text
  deriving DecidableEq, Repr

/-- The lines that are not blank. -/
def numberedLines (text : Text) : List NumberedLine :=
  ((unifyBreaks text).splitOn '\n').zipIdx 1 |>.filterMap fun (line, number) =>
    (nonempty? (trim line)).map (⟨number, ·⟩)

end Swimlane.Text

namespace Swimlane

/-- What ends the lines of a text that is edited. -/
inductive Newline
  | lf
  | crlf
  deriving DecidableEq, Repr

namespace Newline

def text : Newline → Text
  | .lf => ['\n']
  | .crlf => ['\r', '\n']

/-- One pair anywhere in a text makes the pair its line end. -/
def ofText (text : Text) : Newline :=
  if Text.mentions ['\r', '\n'] text then .crlf else .lf

def split : Newline → Text → List Text
  | .lf, text => text.splitOn '\n'
  | .crlf, text => Text.splitAtPairs text

def join (newline : Newline) (lines : List Text) : Text := Text.join newline.text lines

end Newline

end Swimlane
