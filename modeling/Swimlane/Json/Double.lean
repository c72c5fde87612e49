import Swimlane.Text.DecimalDigit

/-! Double-precision numbers as exact fractions: read from decimals, written with the fewest digits. -/
namespace Swimlane

/-- A finite number is its sign and `significand * 2 ^ exponent`. -/
inductive Double
  | finite (negative : Bool) (significand : Nat) (exponent : Int)
  | infinite (negative : Bool)
  | notANumber
  deriving DecidableEq, Repr

namespace Double

/-- A positive fraction. -/
structure Fraction where
  num : Nat
  den : Nat

/-- The fraction `n * base ^ exponent`. -/
def scaled (base n : Nat) (exponent : Int) : Fraction :=
  if 0 ≤ exponent then ⟨n * base.pow exponent.toNat, 1⟩ else ⟨n, base.pow (-exponent).toNat⟩

/-- The nearest whole number, a half going to the even neighbour. -/
def roundHalfEven (num den : Nat) : Nat :=
  let whole := num / den
  let twice := 2 * (num % den)
  if den < twice || (twice == den && whole % 2 == 1) then whole + 1 else whole

/-- The exponent of the largest power of two that the fraction reaches. -/
def binaryOrder (x : Fraction) : Int :=
  let guess : Int := (Nat.log2 x.num : Int) - Nat.log2 x.den
  let power := scaled 2 x.den guess
  if power.num ≤ x.num * power.den then guess else guess - 1

/-- The least significand of full length; a significand is less than twice as much. -/
def fullSignificand : Nat := Nat.pow 2 52

/-- The double nearest to a fraction, a tie going to the even significand. -/
def ofFraction (negative : Bool) (x : Fraction) : Double :=
  if x.num = 0 then .finite negative 0 (-1074)
  else
    let exponent := max (binaryOrder x - 52) (-1074)
    let unit := scaled 2 x.den exponent
    let significand := roundHalfEven (x.num * unit.den) unit.num
    let (significand, exponent) :=
      if significand = 2 * fullSignificand then (fullSignificand, exponent + 1)
      else (significand, exponent)
    if 971 < exponent then .infinite negative else .finite negative significand exponent

/-- The double nearest to `digits * 10 ^ exponent`. Magnitudes beyond every double are settled by
the number of digits alone. -/
def ofDecimal (negative : Bool) (digits : Nat) (exponent : Int) : Double :=
  let order : Int := (Text.ofNat digits).length + exponent
  if digits = 0 || order < -330 then .finite negative 0 (-1074)
  else if 310 < order then .infinite negative
  else ofFraction negative (scaled 10 digits exponent)

def isZero : Double → Bool
  | .finite _ 0 _ => true
  | _ => false

/-- The number with its fraction dropped, if it is finite. -/
def truncate? : Double → Option Int
  | .finite negative significand exponent =>
    let x := scaled 2 significand exponent
    let whole := x.num / x.den
    some (if negative then -whole else whole)
  | _ => none

/-- The exponent of the largest power of ten that the fraction reaches. -/
def decimalOrder (x : Fraction) : Int :=
  if x.den ≤ x.num then ((Text.ofNat (x.num / x.den)).length : Int) - 1
  else -(((List.range 400).find? fun k => x.den ≤ x.num * Nat.pow 10 k).getD 400 : Nat)

/-- The decimals `digits * 10 ^ exponent` that read back as a double: those between `low` and
`high`, in quarters of the double's last place, with the ends if its significand is even. -/
structure Interval where
  low : Nat
  middle : Nat
  high : Nat
  closed : Bool
  unit : Fraction

def interval (significand : Nat) (exponent : Int) : Interval where
  low := if significand = fullSignificand && -1074 < exponent then 4 * significand - 1
    else 4 * significand - 2
  middle := 4 * significand
  high := 4 * significand + 2
  closed := significand % 2 == 0
  unit := scaled 2 1 (exponent - 2)

/-- Whether `digits` steps of the grid `grid` lie in the interval. -/
def Interval.contains (around : Interval) (grid : Fraction) (digits : Nat) : Bool :=
  let point := digits * grid.num * around.unit.den
  let low := around.low * around.unit.num * grid.den
  let high := around.high * around.unit.num * grid.den
  if around.closed then low ≤ point && point ≤ high else low < point && point < high

/-- The point of the grid that lies in the interval and nearest to its middle, a tie going to the
even one. -/
def Interval.nearest? (around : Interval) (grid : Fraction) : Option Nat :=
  let num := around.middle * around.unit.num * grid.den
  let den := grid.num * around.unit.den
  let near := roundHalfEven num den
  let other := if near * den ≤ num then near + 1 else near - 1
  if around.contains grid near then some near
  else if around.contains grid other then some other
  else none

/-- The fewest digits that read back, and the exponent of the last of them. -/
def shortest (significand : Nat) (exponent : Int) : Nat × Int :=
  let around := interval significand exponent
  let order := decimalOrder (scaled 2 significand exponent)
  let found := (List.range 17).findSome? fun more =>
    let place := order - (more : Nat)
    (around.nearest? (scaled 10 1 place)).map fun digits => (digits, place)
  found.getD (significand, 0)

/-- The digits without the zeros at their end, and the place of the point among them. -/
def decimalPoint (digits : Nat) (place : Int) : Text × Int :=
  let written := Text.ofNat digits
  let kept := (written.reverse.dropWhile (· == '0')).reverse
  (kept, written.length + place)

/-- A number is written out from a ten-thousandth up to ten quadrillions, with a point and at least
one digit after it; others get a power of ten of at least two digits. -/
def layout (digits : Text) (point : Int) : Text :=
  if -4 < point && point ≤ 16 then
    if point ≤ 0 then
      "0." ++ List.replicate (-point).toNat '0' ++ digits
    else
      let whole := digits.take point.toNat
      let zeros := List.replicate (point.toNat - digits.length) '0'
      let after := digits.drop point.toNat
      whole ++ zeros ++ "." ++ (if after.isEmpty then ['0'] else after)
  else
    let power := point - 1
    let size := Text.ofNat power.natAbs
    digits.take 1 ++ (if digits.length ≤ 1 then [] else '.' :: digits.drop 1)
      ++ "e" ++ [if power < 0 then '-' else '+']
      ++ (if size.length < 2 then '0' :: size else size)

/-- The text of a number in messages. -/
def text : Double → Text
  | .finite negative significand exponent =>
    let magnitude :=
      if significand = 0 then ("0.0" : Text)
      else
        let (digits, place) := shortest significand exponent
        let (digits, point) := decimalPoint digits place
        layout digits point
    if negative then '-' :: magnitude else magnitude
  | .infinite false => "inf"
  | .infinite true => "-inf"
  | .notANumber => "nan"

end Double

end Swimlane
