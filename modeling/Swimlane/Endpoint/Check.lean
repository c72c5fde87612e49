import Swimlane.Json.Writer
import Swimlane.Patch.Operation

/-! Checks of values from outside before anything is done with them. -/
namespace Swimlane.Endpoint

def maxCodeLength : Nat := 50000

inductive CodeFlaw
  | notAString
  | blank
  | tooLong
  deriving DecidableEq, Repr

def CodeFlaw.message (name : Text) : CodeFlaw → Text
  | .notAString => name ++ " must be a string"
  | .blank => name ++ " cannot be empty"
  | .tooLong => name ++ " exceeds maximum length of 50,000 characters"

/-- The text in a value, if it is one, is not blank unless it may be, and is not too long. -/
def checkCode (allowBlank : Bool) : Json → Except CodeFlaw Text
  | .str text =>
    if !allowBlank && (Text.trim text).isEmpty then .error .blank
    else if maxCodeLength < text.length then .error .tooLong
    else .ok text
  | _ => .error .notAString

/-- Controls other than a tab, a line feed and a carriage return. -/
def isControl (c : Char) : Bool :=
  (c.toNat < 0x20 && c != '\t' && c != '\n' && c != '\r') || c.toNat == 0x7F

def sanitize (text : Text) : Text := text.filter (!isControl ·)

inductive OperationsFlaw
  | notAnArray
  | invalid (operation : Json)

/-- What is said of it, with the operation as JSON, which has room for so many lists and objects one
inside the other. -/
def OperationsFlaw.message (room : Nat) : OperationsFlaw → Except Json.Excess Text
  | .notAnArray => .ok "operations must be an array"
  | .invalid operation => do
    let written ← operation.keep.compact room
    return "Invalid operation: " ++ written ++ ". op must be one of: "
      ++ Text.join ", " Patch.supportedOperations

/-- Whether a value is an object that names a supported operation. -/
def isSupported : Json → Bool
  | .obj fields =>
    match Json.field fields "op" with
    | .str op => op ∈ Patch.supportedOperations
    | _ => false
  | _ => false

/-- The items of a value, if it is an array of supported operations. -/
def checkOperations : Json → Except OperationsFlaw (List Json)
  | .arr items =>
    match items.find? (!isSupported ·) with
    | some item => .error (.invalid item)
    | none => .ok items
  | _ => .error .notAnArray

end Swimlane.Endpoint
