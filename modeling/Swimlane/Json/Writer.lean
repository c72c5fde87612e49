import Swimlane.Json.Value

/-! JSON text in plain ASCII, on one line or indented. Strings keep halves, which have escapes. -/
namespace Swimlane.Json

def escapeUnit (unit : Nat) : Text := "\\u" ++ hexDigits 4 unit

/-- A character inside a JSON string; beyond 16 bits it takes two escapes. -/
def escapeChar (c : Char) : Text :=
  if c = '"' then "\\\""
  else if c = '\\' then "\\\\"
  else if c = '\n' then "\\n"
  else if c = '\r' then "\\r"
  else if c = '\t' then "\\t"
  else if c.toNat = 0x0C then "\\f"
  else if c.toNat = 0x08 then "\\b"
  else if 0x20 ≤ c.toNat && c.toNat < 0x7F then [c]
  else if c.toNat < 0x10000 then escapeUnit c.toNat
  else
    let above := c.toNat - 0x10000
    escapeUnit (0xD800 + above / 0x400) ++ escapeUnit (0xDC00 + above % 0x400)

def escapeSign : Text.Sign → Text
  | .char c => escapeChar c
  | .half number => escapeUnit (Text.Sign.unit number)

/-- A text that keeps halves as a JSON string. -/
def stringText (text : Text) : Text := '"' :: (Text.signs text).flatMap escapeSign ++ ['"']

def numberText : Double → Text
  | .infinite false => "Infinity"
  | .infinite true => "-Infinity"
  | .notANumber => "NaN"
  | value => value.text

mutual

/-- The value on one line, with a blank after each comma and colon. There is room for so many lists and
objects one inside the other. -/
def compact : (room : Nat) → Json → Except Excess Text
  | _, .null => .ok "null"
  | _, .bool true => .ok "true"
  | _, .bool false => .ok "false"
  | _, .int value => intText value
  | _, .float value => .ok (numberText value)
  | _, .str text => .ok (stringText text)
  | 0, .arr _ => .error .depth
  | 0, .obj _ => .error .depth
  | room + 1, .arr items => do
    let parts ← compactItems room items
    return "[" ++ Text.join ", " parts ++ "]"
  | room + 1, .obj fields => do
    let parts ← compactFields room fields
    return "\x7b" ++ Text.join ", " parts ++ "\x7d"

def compactItems (room : Nat) : List Json → Except Excess (List Text)
  | [] => .ok []
  | item :: rest => do
    let part ← compact room item
    return part :: (← compactItems room rest)

def compactFields (room : Nat) : List (Text × Json) → Except Excess (List Text)
  | [] => .ok []
  | (name, value) :: rest => do
    let part ← compact room value
    return (stringText name ++ ": " ++ part) :: (← compactFields room rest)

end

/-- Bracketed parts on lines of their own, two blanks deeper than the brackets. -/
def block (opening closing : Text) (depth : Nat) : List Text → Text
  | [] => opening ++ closing
  | parts =>
    let margin : Text := '\n' :: List.replicate (2 * (depth + 1)) ' '
    let lastMargin : Text := '\n' :: List.replicate (2 * depth) ' '
    opening ++ margin ++ Text.join ("," ++ margin) parts ++ lastMargin ++ closing

mutual

/-- The value with every item and field on a line of its own. What is written so comes from a diagram, so
that it is not deep and its numbers are short. -/
def indented (depth : Nat) : Json → Text
  | .arr items => block "[" "]" depth (indentedItems (depth + 1) items)
  | .obj fields => block "\x7b" "\x7d" depth (indentedFields (depth + 1) fields)
  | .null => "null"
  | .bool true => "true"
  | .bool false => "false"
  | .int value => Text.ofInt value
  | .float value => numberText value
  | .str text => stringText text

def indentedItems (depth : Nat) : List Json → List Text
  | [] => []
  | item :: rest => indented depth item :: indentedItems depth rest

def indentedFields (depth : Nat) : List (Text × Json) → List Text
  | [] => []
  | (name, value) :: rest =>
    (stringText name ++ ": " ++ indented depth value) :: indentedFields depth rest

end

end Swimlane.Json
