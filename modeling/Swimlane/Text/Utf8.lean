import Swimlane.Text.DecimalDigit
import Swimlane.Text.Halves

/-! Text as UTF-8 bytes. Reading names the first byte that cannot be read and why. -/
namespace Swimlane.Utf8

open Text

abbrev Bytes := List UInt8

/-- A byte that holds the bits `n` below the mark of its place in a character. -/
def octet (mark n : Nat) : UInt8 := UInt8.ofNat (mark + n)

def encodeChar (c : Char) : Bytes :=
  let n := c.toNat
  if n < 0x80 then [octet 0 n]
  else if n < 0x800 then [octet 0xC0 (n / 0x40), octet 0x80 (n % 0x40)]
  else if n < 0x10000 then
    [octet 0xE0 (n / 0x1000), octet 0x80 (n / 0x40 % 0x40), octet 0x80 (n % 0x40)]
  else
    [octet 0xF0 (n / 0x40000), octet 0x80 (n / 0x1000 % 0x40), octet 0x80 (n / 0x40 % 0x40),
     octet 0x80 (n % 0x40)]

def encode (text : Text) : Bytes := text.flatMap encodeChar

inductive Flaw
  | invalidStart
  | invalidContinuation
  | unexpectedEnd
  deriving DecidableEq, Repr

/-- What is wrong with the `count` bytes from `position` on, the first of which is `byte`. -/
structure DecodeError where
  flaw : Flaw
  byte : UInt8
  position : Nat
  count : Nat
  deriving DecidableEq, Repr

def Flaw.text : Flaw → Text
  | .invalidStart => "invalid start byte"
  | .invalidContinuation => "invalid continuation byte"
  | .unexpectedEnd => "unexpected end of data"

def hexPair (byte : UInt8) : Text :=
  let digit (n : Nat) : Char := if n < 10 then Char.ofNat (48 + n) else Char.ofNat (87 + n)
  [digit (byte.toNat / 16), digit (byte.toNat % 16)]

def DecodeError.message (error : DecodeError) : Text :=
  let place :=
    if error.count = 1 then
      " 0x" ++ hexPair error.byte ++ " in position " ++ ofNat error.position
    else
      "s in position " ++ ofNat error.position ++ "-" ++ ofNat (error.position + error.count - 1)
  "'utf-8' codec can't decode byte" ++ place ++ ": " ++ error.flaw.text

/-- How many bytes follow a first byte, and between which bounds the first of those must lie. -/
def continuation? (byte : Nat) : Option (Nat × Nat × Nat) :=
  if 0xC2 ≤ byte ∧ byte < 0xE0 then some (1, 0x80, 0xBF)
  else if byte = 0xE0 then some (2, 0xA0, 0xBF)
  else if byte = 0xED then some (2, 0x80, 0x9F)
  else if 0xE1 ≤ byte ∧ byte < 0xF0 then some (2, 0x80, 0xBF)
  else if byte = 0xF0 then some (3, 0x90, 0xBF)
  else if byte = 0xF4 then some (3, 0x80, 0x8F)
  else if 0xF1 ≤ byte ∧ byte < 0xF4 then some (3, 0x80, 0xBF)
  else none

/-- A character that is not complete yet: its first byte and where that stands, how many bytes are
read and still missing, the bounds of the next one, and the bits so far. -/
structure Partial where
  byte : UInt8
  position : Nat
  read : Nat
  missing : Nat
  low : Nat
  high : Nat
  bits : Nat

def Partial.error (begun : Partial) (flaw : Flaw) : DecodeError :=
  ⟨flaw, begun.byte, begun.position, begun.read⟩

/-- Reads on from `position`; `done` holds the characters so far, last first. -/
def decodeFrom (done : Text) (position : Nat) :
    Option Partial → Bytes → Except DecodeError Text
  | none, [] => .ok done.reverse
  | some begun, [] => .error (begun.error .unexpectedEnd)
  | none, byte :: rest =>
    let n := byte.toNat
    if n < 0x80 then decodeFrom (Char.ofNat n :: done) (position + 1) none rest
    else
      match continuation? n with
      | none => .error ⟨.invalidStart, byte, position, 1⟩
      | some (missing, low, high) =>
        let bits := n % Nat.pow 2 (6 - missing)
        decodeFrom done (position + 1) (some ⟨byte, position, 1, missing, low, high, bits⟩) rest
  | some begun, byte :: rest =>
    let n := byte.toNat
    if n < begun.low || begun.high < n then .error (begun.error .invalidContinuation)
    else
      let bits := begun.bits * 0x40 + n % 0x40
      if begun.missing ≤ 1 then
        decodeFrom (Char.ofNat bits :: done) (position + 1) none rest
      else
        decodeFrom done (position + 1)
          (some ⟨begun.byte, begun.position, begun.read + 1, begun.missing - 1, 0x80, 0xBF, bits⟩)
          rest

def decode (bytes : Bytes) : Except DecodeError Text := decodeFrom [] 0 none bytes

/-- The first halves in a row that stand alone: which comes first, where it stands among the signs, and
how many there are. -/
structure EncodeError where
  half : Fin 0x800
  position : Nat
  count : Nat
  deriving DecidableEq, Repr

def EncodeError.message (error : EncodeError) : Text :=
  let unit := Sign.unit error.half
  let place :=
    if error.count = 1 then
      " '\\u" ++ hexPair (UInt8.ofNat (unit / 0x100)) ++ hexPair (UInt8.ofNat (unit % 0x100))
        ++ "' in position " ++ ofNat error.position
    else
      "s in position " ++ ofNat error.position ++ "-" ++ ofNat (error.position + error.count - 1)
  "'utf-8' codec can't encode character" ++ place ++ ": surrogates not allowed"

/-- What cannot be written of signs, the first of which stands at `position`. -/
def firstHalves? (position : Nat) : List Sign → Option EncodeError
  | [] => none
  | .char _ :: rest => firstHalves? (position + 1) rest
  | .half number :: rest => some ⟨number, position, 1 + (rest.takeWhile Sign.isHalf).length⟩

/-- The bytes of a text that keeps halves, if it has none. -/
def encodeKept (text : Text) : Except EncodeError Bytes :=
  match firstHalves? 0 (signs text) with
  | some error => .error error
  | none => .ok (encode (shown text))

end Swimlane.Utf8
