import Swimlane.Json.Value
import Swimlane.Text.WholeNumber

/-! The tokens of JSON text with the positions where they start. -/
namespace Swimlane.Json

/-- Why a text is not JSON. -/
inductive Flaw
  | expectingValue
  | expectingName
  | expectingColon
  | expectingComma
  | extraData
  | unterminatedString
  | invalidEscape
  | invalidUnicodeEscape
  | controlCharacter
  | byteOrderMark
  | tooManyDigits (count : Nat)
  deriving DecidableEq, Repr

/-- Whether the flaw is inside a string. -/
def Flaw.inString : Flaw → Bool
  | .unterminatedString | .invalidEscape | .invalidUnicodeEscape | .controlCharacter => true
  | _ => false

inductive Token
  | openArray
  | closeArray
  | openObject
  | closeObject
  | comma
  | colon
  | string (signs : List Text.Sign)
  | scalar (value : Json)
  | flawed (flaw : Flaw) (position : Nat)
  | finish

def isSpace (c : Char) : Bool := c == ' ' || c == '\t' || c == '\n' || c == '\r'

def hexValue? (c : Char) : Option Nat :=
  if '0' ≤ c && c ≤ '9' then some (c.toNat - 48)
  else if 'a' ≤ c && c ≤ 'f' then some (c.toNat - 87)
  else if 'A' ≤ c && c ≤ 'F' then some (c.toNat - 55)
  else none

/-- The number that four hexadecimal digits write. -/
def hexUnit? (digits : Text) : Option Nat :=
  if digits.length < 4 then none
  else (digits.take 4).foldl (fun value c => do return 16 * (← value) + (← hexValue? c)) (some 0)

def simpleEscape? : Char → Option Char
  | '"' => some '"'
  | '\\' => some '\\'
  | '/' => some '/'
  | 'b' => some (Char.ofNat 0x08)
  | 'f' => some (Char.ofNat 0x0C)
  | 'n' => some '\n'
  | 'r' => some '\r'
  | 't' => some '\t'
  | _ => none

/-- Reads a string after its opening mark, which stands at `start`. `units` holds what is read so
far, last first, and `position` is that of the next character. -/
def readString (start : Nat) (units : List Nat) (position : Nat) : Text → Token × Nat
  | [] => (.flawed .unterminatedString start, position)
  | c :: rest =>
    if c = '"' then (.string (Text.Sign.ofUnits units.reverse), position)
    else if c = '\\' then
      match rest with
      | [] => (.flawed .unterminatedString start, position)
      | 'u' :: a :: b :: c :: d :: rest =>
        match hexUnit? [a, b, c, d], rest with
        | some unit, _ :: _ => readString start (unit :: units) (position + 6) rest
        | _, _ => (.flawed .invalidUnicodeEscape (position + 1), position)
      | 'u' :: _ => (.flawed .invalidUnicodeEscape (position + 1), position)
      | e :: rest =>
        match simpleEscape? e with
        | some c => readString start (c.toNat :: units) (position + 2) rest
        | none => (.flawed .invalidEscape position, position)
    else if c.toNat < 0x20 then (.flawed .controlCharacter position, position)
    else readString start (c.toNat :: units) (position + 1) rest

/-- The parts of a number as they are written. -/
structure NumberParts where
  negative : Bool
  whole : Text
  fraction : Text
  power : Option (Bool × Text)

def readWhole : Text → Text
  | '0' :: _ => ['0']
  | text => text.takeWhile Char.isDigit

def readPower : Text → Option (Bool × Text) × Nat
  | mark :: text =>
    if mark = 'e' || mark = 'E' then
      let (negative, signs, digits) := match text with
        | '-' :: rest => (true, 1, rest.takeWhile Char.isDigit)
        | '+' :: rest => (false, 1, rest.takeWhile Char.isDigit)
        | _ => (false, 0, text.takeWhile Char.isDigit)
      if digits.isEmpty then (none, 0) else (some (negative, digits), 1 + signs + digits.length)
    else (none, 0)
  | [] => (none, 0)

/-- The longest number at the start of the text and its length. -/
def readNumber? (text : Text) : Option (NumberParts × Nat) :=
  let negative := text.head? == some '-'
  let unsigned := if negative then text.drop 1 else text
  let whole := readWhole unsigned
  if whole.isEmpty then none
  else
    let tail := unsigned.drop whole.length
    let fraction := if tail.head? == some '.' then (tail.drop 1).takeWhile Char.isDigit else []
    let tail := if fraction.isEmpty then tail else tail.drop (fraction.length + 1)
    let (power, powerLength) := readPower tail
    let length := (if negative then 1 else 0) + whole.length
      + (if fraction.isEmpty then 0 else fraction.length + 1) + powerLength
    some (⟨negative, whole, fraction, power⟩, length)

/-- A number with a point or a power is a double, any other a whole number. -/
def NumberParts.token (parts : NumberParts) (position : Nat) : Token :=
  if parts.fraction.isEmpty && parts.power.isNone then
    if Text.maxDigits < parts.whole.length then
      .flawed (.tooManyDigits parts.whole.length) position
    else
      let value := Text.digitsValue parts.whole
      .scalar (.int (if parts.negative then -value else value))
  else
    let digits := Text.digitsValue (parts.whole ++ parts.fraction)
    let power : Int := match parts.power with
      | some (true, digits) => -(Text.digitsValue digits : Int)
      | some (false, digits) => Text.digitsValue digits
      | none => 0
    .scalar (.float (.ofDecimal parts.negative digits (power - parts.fraction.length)))

/-- The values that are written as words. -/
def words : List (Text × Json) :=
  [("null", .null), ("true", .bool true), ("false", .bool false), ("NaN", .float .notANumber),
   ("Infinity", .float (.infinite false)), ("-Infinity", .float (.infinite true))]

/-- The token that starts with `c`, at `position`, and how many characters of `rest` it takes. -/
def lexeme (position : Nat) (c : Char) (rest : Text) : Token × Nat :=
  match c with
  | '[' => (.openArray, 0)
  | ']' => (.closeArray, 0)
  | '\x7b' => (.openObject, 0)
  | '\x7d' => (.closeObject, 0)
  | ',' => (.comma, 0)
  | ':' => (.colon, 0)
  | '"' =>
    let (token, last) := readString position [] (position + 1) rest
    (token, last - position)
  | _ =>
    match words.find? fun (word, _) => word.isPrefixOf (c :: rest) with
    | some (word, value) => (.scalar value, word.length - 1)
    | none =>
      match readNumber? (c :: rest) with
      | some (parts, length) => (parts.token position, length - 1)
      | none => (.flawed .expectingValue position, 0)

/-- Every token with its position; the last one is `finish`. -/
def tokens (position : Nat) : Text → List (Nat × Token)
  | [] => [(position, .finish)]
  | c :: rest =>
    if isSpace c then tokens (position + 1) rest
    else
      let (token, more) := lexeme position c rest
      (position, token) :: tokens (position + 1 + more) (rest.drop more)
  termination_by text => text.length
  decreasing_by all_goals simp; try omega

end Swimlane.Json
