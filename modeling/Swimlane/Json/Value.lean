import Swimlane.Json.Double
import Swimlane.Text.Halves
import Swimlane.Text.Printable
import Swimlane.Text.WholeNumber

/-! JSON values with their order of keys, and the text that a value has inside a message. There is none
of a number with too many digits, or of lists and objects that are nested too deep. -/
namespace Swimlane

inductive Json
  | null
  | bool (value : Bool)
  | int (value : Int)
  | float (value : Double)
  | str (text : Text)
  | arr (items : List Json)
  | obj (fields : List (Text × Json))
  deriving Inhabited

namespace Json

instance : Coe Text Json := ⟨.str⟩

/-- The name of a value's kind. -/
def kindName : Json → Text
  | .null => "NoneType"
  | .bool _ => "bool"
  | .int _ => "int"
  | .float _ => "float"
  | .str _ => "str"
  | .arr _ => "list"
  | .obj _ => "dict"

/-- Nothing, false, zero and what is empty do not hold. -/
def holds : Json → Bool
  | .null => false
  | .bool value => value
  | .int value => value != 0
  | .float value => !value.isZero
  | .str text => !text.isEmpty
  | .arr items => !items.isEmpty
  | .obj fields => !fields.isEmpty

def str? : Json → Option Text
  | .str text => some text
  | _ => none

def arr? : Json → Option (List Json)
  | .arr items => some items
  | _ => none

def obj? : Json → Option (List (Text × Json))
  | .obj fields => some fields
  | _ => none

/-- The value of a field, if the fields have it. -/
def field? (fields : List (Text × Json)) (name : Text) : Option Json :=
  fields.lookup name

/-- The value of a field; a missing field reads as null. -/
def field (fields : List (Text × Json)) (name : Text) : Json :=
  (field? fields name).getD .null

def ofOption : Option Text → Json
  | some text => .str text
  | none => .null

def hexDigit (n : Nat) : Char :=
  if n < 10 then Char.ofNat (48 + n) else Char.ofNat (87 + n)

/-- The last `width` hexadecimal digits of a number. -/
def hexDigits : (width n : Nat) → Text
  | 0, _ => []
  | width + 1, n => hexDigits width (n / 16) ++ [hexDigit (n % 16)]

/-- A character inside quotation marks of the kind `mark`. -/
def quoteChar (mark c : Char) : Text :=
  if c = mark || c = '\\' then ['\\', c]
  else if c = '\n' then "\\n"
  else if c = '\r' then "\\r"
  else if c = '\t' then "\\t"
  else if Text.isPrintable c then [c]
  else if c.toNat < 0x100 then "\\x" ++ hexDigits 2 c.toNat
  else if c.toNat < 0x10000 then "\\u" ++ hexDigits 4 c.toNat
  else "\\U" ++ hexDigits 8 c.toNat

/-- The mark around a text: a single one, or a double one if the text has single ones only. -/
def quoteMark (text : Text) : Char :=
  if text.contains '\'' && !text.contains '"' then '"' else '\''

/-- A text in quotation marks. -/
def quote (text : Text) : Text :=
  let mark := quoteMark text
  mark :: text.flatMap (quoteChar mark) ++ [mark]

def quoteSign (mark : Char) : Text.Sign → Text
  | .char c => quoteChar mark c
  | .half number => "\\u" ++ hexDigits 4 (Text.Sign.unit number)

/-- A text that keeps halves in quotation marks. -/
def quoteKept (text : Text) : Text :=
  let mark := quoteMark text
  mark :: (Text.signs text).flatMap (quoteSign mark) ++ [mark]

/-- What there is too much of in a value for a text of it. -/
inductive Excess
  | digits
  | depth
  deriving DecidableEq, Repr

/-- How deep values may be nested where they are read, shown in a message, and written as JSON. -/
structure Depths where
  reading : Nat := 990
  showing : Nat := 990
  writing : Nat := 990
  /-- An object of texts can be written. -/
  writes : 0 < writing := by decide

/-- The decimal digits of a number. -/
def intText (value : Int) : Except Excess Text :=
  if Text.maxDigits < (Text.ofNat value.natAbs).length then .error .digits
  else .ok (Text.ofInt value)

section

variable (quote : Text → Text)

mutual

/-- A value as it stands inside a list or an object in a message, its strings in quotation marks. There
is room for so many values one inside the other. -/
def literalWith : (room : Nat) → Json → Except Excess Text
  | 0, _ => .error .depth
  | _ + 1, .null => .ok "None"
  | _ + 1, .bool true => .ok "True"
  | _ + 1, .bool false => .ok "False"
  | _ + 1, .int value => intText value
  | _ + 1, .float value => .ok value.text
  | _ + 1, .str text => .ok (quote text)
  | room + 1, .arr items => do
    let parts ← literalsWith room items
    return "[" ++ Text.join ", " parts ++ "]"
  | room + 1, .obj fields => do
    let parts ← literalFieldsWith room fields
    return "\x7b" ++ Text.join ", " parts ++ "\x7d"

def literalsWith (room : Nat) : List Json → Except Excess (List Text)
  | [] => .ok []
  | item :: rest => do
    let part ← literalWith room item
    return part :: (← literalsWith room rest)

def literalFieldsWith (room : Nat) : List (Text × Json) → Except Excess (List Text)
  | [] => .ok []
  | (name, value) :: rest => do
    let part ← literalWith room value
    return (quote name ++ ": " ++ part) :: (← literalFieldsWith room rest)

end

/-- The text of a value in a message: a string is shown without marks. -/
def displayWith (room : Nat) : Json → Except Excess Text
  | .str text => .ok text
  | value => literalWith quote room value

end

def display (room : Nat) (value : Json) : Except Excess Text := displayWith quote room value

/-- The text of a value whose strings keep halves. -/
def displayKept (room : Nat) (value : Json) : Except Excess Text := displayWith quoteKept room value

mutual

/-- A value as it stands among those whose strings keep halves. -/
def keep : Json → Json
  | .str text => .str (Text.keep text)
  | .arr items => .arr (keepItems items)
  | .obj fields => .obj (keepFields fields)
  | value => value

def keepItems : List Json → List Json
  | [] => []
  | item :: rest => keep item :: keepItems rest

def keepFields : List (Text × Json) → List (Text × Json)
  | [] => []
  | (name, value) :: rest => (Text.keep name, keep value) :: keepFields rest

end

end Json

end Swimlane
