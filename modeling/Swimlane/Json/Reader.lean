import Swimlane.Json.Token
import Swimlane.OrderedMap

/-! A reader of JSON text that names the first flaw and where it is. It has room for so many lists and
objects one inside the other, and stops where one more is opened. -/
namespace Swimlane.Json

/-- A flaw and its position in the text. -/
structure ReadError where
  flaw : Flaw
  position : Nat
  source : Text

def Flaw.message : Flaw → Text
  | .expectingValue => "Expecting value"
  | .expectingName => "Expecting property name enclosed in double quotes"
  | .expectingColon => "Expecting ':' delimiter"
  | .expectingComma => "Expecting ',' delimiter"
  | .extraData => "Extra data"
  | .unterminatedString => "Unterminated string starting at"
  | .invalidEscape => "Invalid \\escape"
  | .invalidUnicodeEscape => "Invalid \\uXXXX escape"
  | .controlCharacter => "Invalid control character at"
  | .byteOrderMark => "Unexpected UTF-8 BOM (decode using utf-8-sig)"
  | .tooManyDigits count =>
    Text.tooManyDigits (some count)

/-- Where a position lies: the line and the column count from one, the character from zero. -/
def placeText (source : Text) (position : Nat) : Text :=
  let before := source.take position
  let line := before.count '\n' + 1
  let column := (before.reverse.takeWhile (· != '\n')).length + 1
  ": line " ++ Text.ofNat line ++ " column " ++ Text.ofNat column ++ " (char "
    ++ Text.ofNat position ++ ")"

def ReadError.message (error : ReadError) : Text :=
  match error.flaw with
  | .tooManyDigits _ => error.flaw.message
  | flaw => flaw.message ++ placeText error.source error.position

/-- What stops the reading of tokens. -/
inductive Stop
  | flaw (flaw : Flaw) (position : Nat)
  | tooDeep
  deriving DecidableEq, Repr

/-- Why a text is not read. -/
inductive Unread
  | flawed (error : ReadError)
  | tooDeep

/-- A list or an object whose end is still to come; its parts so far are kept last first. -/
inductive Open
  | items (read : List Json)
  | fields (read : List (Text × Json)) (name : Text)

/-- What may come next. -/
inductive Expected
  | value
  | valueOrClose
  | name (read : List (Text × Json))
  | nameOrClose
  | colon (read : List (Text × Json)) (name : Text)
  | after (value : Json)

/-- The fields in order of first appearance, each with its last value. -/
def gatherFields (read : List (Text × Json)) : List (Text × Json) :=
  read.reverse.foldl (fun fields (name, value) => putEntry name value fields) []

section

variable (room : Nat) (join : List Text.Sign → Text)

/-- Reads the tokens with the lists and objects that are open around the place, innermost first;
`join` makes a text of the signs of a string. -/
def assemble (expected : Expected) (around : List Open) :
    List (Nat × Token) → Except Stop Json
  | [] => .error (.flaw .expectingValue 0)
  | (position, token) :: rest =>
    match expected, token with
    | .value, .openArray | .valueOrClose, .openArray =>
      if room ≤ around.length then .error .tooDeep
      else assemble .valueOrClose (.items [] :: around) rest
    | .value, .openObject | .valueOrClose, .openObject =>
      if room ≤ around.length then .error .tooDeep else assemble .nameOrClose around rest
    | .value, .string signs | .valueOrClose, .string signs =>
      assemble (.after (.str (join signs))) around rest
    | .value, .scalar value | .valueOrClose, .scalar value => assemble (.after value) around rest
    | .value, .flawed flaw place | .valueOrClose, .flawed flaw place => .error (.flaw flaw place)
    | .valueOrClose, .closeArray => assemble (.after (.arr [])) (around.drop 1) rest
    | .value, _ | .valueOrClose, _ => .error (.flaw .expectingValue position)
    | .nameOrClose, .closeObject => assemble (.after (.obj [])) around rest
    | .nameOrClose, .string signs => assemble (.colon [] (join signs)) around rest
    | .name read, .string signs => assemble (.colon read (join signs)) around rest
    | .nameOrClose, .flawed flaw place | .name _, .flawed flaw place =>
      .error (if flaw.inString then .flaw flaw place else .flaw .expectingName position)
    | .nameOrClose, _ | .name _, _ => .error (.flaw .expectingName position)
    | .colon read name, .colon => assemble .value (.fields read name :: around) rest
    | .colon _ _, _ => .error (.flaw .expectingColon position)
    | .after value, token =>
      match around, token with
      | [], .finish => .ok value
      | [], _ => .error (.flaw .extraData position)
      | .items read :: around, .comma => assemble .value (.items (value :: read) :: around) rest
      | .items read :: around, .closeArray =>
        assemble (.after (.arr (value :: read).reverse)) around rest
      | .fields read name :: around, .comma => assemble (.name ((name, value) :: read)) around rest
      | .fields read name :: around, .closeObject =>
        assemble (.after (.obj (gatherFields ((name, value) :: read)))) around rest
      | _, _ => .error (.flaw .expectingComma position)

/-- Reads a whole text as one value. -/
def readWith (source : Text) : Except Unread Json :=
  if source.head? = some (Char.ofNat 0xFEFF) then .error (.flawed ⟨.byteOrderMark, 0, source⟩)
  else
    match assemble room join .value [] (tokens 0 source) with
    | .ok value => .ok value
    | .error (.flaw flaw position) => .error (.flawed ⟨flaw, position, source⟩)
    | .error .tooDeep => .error .tooDeep

end

/-- Reads a text; a half that stands alone in a string is read as the replacement character. -/
def read (room : Nat) (source : Text) : Except Unread Json :=
  readWith room (List.map Text.Sign.shown) source

/-- Reads a text whose strings keep halves. -/
def readKept (room : Nat) (source : Text) : Except Unread Json := readWith room Text.ofSigns source

end Swimlane.Json
