import Swimlane.Text.Basic

/-! Halves of a character beyond 16 bits that stand alone. No character stands for such a half, so a
text keeps it as two: a mark, and a character that tells the half. The mark itself is kept doubled. -/
namespace Swimlane.Text

/-- A character, or one of the halves from 0xD800 on. -/
inductive Sign
  | char (c : Char)
  | half (number : Fin 0x800)
  deriving DecidableEq, Repr

namespace Sign

/-- The character that is shown for a sign; a half has none and shows as the replacement character. -/
def shown : Sign → Char
  | .char c => c
  | .half _ => Char.ofNat 0xFFFD

def isHalf : Sign → Bool
  | .char _ => false
  | .half _ => true

/-- The unit of 16 bits that a half is. -/
def unit (number : Fin 0x800) : Nat := 0xD800 + number

/-- The sign of a unit, or of a whole character, that stands alone. -/
def ofUnit (unit : Nat) : Sign :=
  if h : 0xD800 ≤ unit ∧ unit < 0xE000 then .half ⟨unit - 0xD800, by omega⟩
  else .char (Char.ofNat unit)

/-- The signs of a row of units: a first half and a second one next to it make a character. -/
def ofUnits : List Nat → List Sign
  | [] => []
  | [unit] => [ofUnit unit]
  | first :: second :: rest =>
    if 0xD800 ≤ first && first < 0xDC00 && 0xDC00 ≤ second && second < 0xE000 then
      .char (Char.ofNat (0x10000 + (first - 0xD800) * 0x400 + (second - 0xDC00))) :: ofUnits rest
    else ofUnit first :: ofUnits (second :: rest)

end Sign

/-- The character that stands before a half, the last there is. -/
def halfMark : Char := Char.ofNat 0x10FFFF

/-- The character behind the mark that tells the half. -/
def halfName (number : Fin 0x800) : Char := Char.ofNat (0xE000 + number)

def Sign.kept : Sign → Text
  | .char c => if c = halfMark then [halfMark, halfMark] else [c]
  | .half number => [halfMark, halfName number]

/-- The half that a character behind the mark tells. -/
def halfNamed? (c : Char) : Option (Fin 0x800) :=
  if h : 0xE000 ≤ c.toNat ∧ c.toNat < 0xE800 then some ⟨c.toNat - 0xE000, by omega⟩ else none

/-- A text of signs that keeps the halves. -/
def ofSigns (signs : List Sign) : Text := signs.flatMap Sign.kept

/-- A text as it stands among those that keep halves. -/
def keep (text : Text) : Text := ofSigns (text.map .char)

/-- The signs of a text that keeps halves. A mark with nothing to tell stands for itself. -/
def signs : Text → List Sign
  | [] => []
  | [c] => [.char c]
  | c :: d :: rest =>
    if c = halfMark then
      if d = halfMark then .char halfMark :: signs rest
      else
        match halfNamed? d with
        | some number => .half number :: signs rest
        | none => .char c :: signs (d :: rest)
    else .char c :: signs (d :: rest)

/-- A text that keeps halves as it is shown. -/
def shown (text : Text) : Text := (signs text).map Sign.shown

end Swimlane.Text
