import Swimlane.Text.DecimalDigit

/-! Whole numbers as people type them: blanks around, a sign, and low lines between digits. -/
namespace Swimlane.Text

/-- Numbers with more digits are refused. -/
def maxDigits : Nat := 4300

/-- What is said of a number with too many digits; their count is known when one is read. -/
def tooManyDigits (count : Option Nat) : Text :=
  "Exceeds the limit (" ++ ofNat maxDigits ++ " digits) for integer string conversion"
    ++ (match count with
      | some count => ": value has " ++ ofNat count ++ " digits"
      | none => [])
    ++ "; use sys.set_int_max_str_digits() to increase the limit"

/-- The blanks that may stand around a number: those of the first 128 characters that move the
print position, and all later ones. -/
def isMargin (c : Char) : Bool :=
  if c.toNat < 128 then c == ' ' || (0x09 ≤ c.toNat && c.toNat ≤ 0x0D) else isBlank c

/-- Digits with single low lines between them, without the lines. -/
def groupedDigits? : Text → Option Text
  | [] => none
  | [c] => if isDecimalDigit c then some [c] else none
  | c :: '_' :: rest => if isDecimalDigit c then (groupedDigits? rest).map (c :: ·) else none
  | c :: rest => if isDecimalDigit c then (groupedDigits? rest).map (c :: ·) else none

/-- The number that a text writes, if it writes one. -/
def wholeNumber? (text : Text) : Option Int :=
  let inner := ((text.dropWhile isMargin).reverse.dropWhile isMargin).reverse
  let (negative, unsigned) := match inner with
    | '-' :: rest => (true, rest)
    | '+' :: rest => (false, rest)
    | rest => (false, rest)
  (groupedDigits? unsigned).bind fun digits =>
    if maxDigits < digits.length then none
    else
      let value : Int := digitsValue digits
      some (if negative then -value else value)

end Swimlane.Text
