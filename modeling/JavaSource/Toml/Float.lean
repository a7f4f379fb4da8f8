import JavaSource.Text.Written
import JavaSource.Toml.Scalar

/-!
# Floating-point numbers in words

A number with a fraction or an exponent stands for the double nearest to it.  In a message the
double is shown, by the fewest decimal digits that lead back to it and without an exponent: `1e3` is
shown as `1000.0`.  All comparisons are made between whole numbers.
-/

namespace JavaSource.Toml

/-- A fraction of whole numbers, the denominator not zero. -/
structure Fraction where
  numerator : Nat
  denominator : Nat

namespace Fraction

/-- `n` times a power of the base. -/
def scaled (n base : Nat) (exponent : Int) : Fraction :=
  ⟨n * Nat.pow base exponent.toNat, Nat.pow base (-exponent).toNat⟩

def le (a b : Fraction) : Bool := a.numerator * b.denominator ≤ b.numerator * a.denominator

def lt (a b : Fraction) : Bool := !b.le a

/-- The quotient, without what is left over. -/
def floorDiv (a b : Fraction) : Nat :=
  (a.numerator * b.denominator) / (a.denominator * b.numerator)

/-- The quotient as the nearest whole number, a half as the even one of its neighbours. -/
def roundDiv (a b : Fraction) : Nat :=
  let dividend := a.numerator * b.denominator
  let divisor := a.denominator * b.numerator
  let quotient := dividend / divisor
  let twice := 2 * (dividend % divisor)
  if twice < divisor || (twice == divisor && quotient % 2 == 0) then quotient else quotient + 1

end Fraction

/-- A positive double: a mantissa of at most 53 bits times a power of two. -/
structure Double where
  mantissa : Nat
  exponent : Int

namespace Double

/-- The least mantissa of full length. -/
def fullMantissa : Nat := Nat.pow 2 52

def minExponent : Int := -1074

def maxExponent : Int := 971

/-- The double nearest to a positive fraction, perhaps with a larger exponent than doubles have. -/
def nearest (value : Fraction) : Double :=
  -- With this exponent the mantissa has 53 or 54 bits before it is rounded.
  let estimate : Int := Nat.log2 value.numerator - Nat.log2 value.denominator - 53
  let isShort := value.floorDiv (.scaled 1 2 estimate) < 2 * fullMantissa
  let exponent := max minExponent (if isShort then estimate else estimate + 1)
  let mantissa := value.roundDiv (.scaled 1 2 exponent)
  if mantissa = 2 * fullMantissa then ⟨fullMantissa, exponent + 1⟩ else ⟨mantissa, exponent⟩

def isTooLarge (d : Double) : Bool := maxExponent < d.exponent

def value (d : Double) : Fraction := .scaled d.mantissa 2 d.exponent

/-- Whether the double is the one nearest to a decimal.  It is up to half the distance to the
neighbour below, which is shorter under a power of two, and half the distance to the one above; the
middle goes to the even mantissa. -/
def isNearestTo (d : Double) (decimal : Fraction) : Bool :=
  let below := if d.mantissa = fullMantissa ∧ minExponent < d.exponent then 1 else 2
  let low : Fraction := .scaled (4 * d.mantissa - below) 2 (d.exponent - 2)
  let high : Fraction := .scaled (4 * d.mantissa + 2) 2 (d.exponent - 2)
  if d.mantissa % 2 = 0 then low.le decimal && decimal.le high
  else low.lt decimal && decimal.lt high

/-- How many digits stand before the point, counted negatively from the zeros behind it. -/
def magnitude (d : Double) : Int :=
  let v := d.value
  if v.denominator ≤ v.numerator then (Text.digits 10 (v.numerator / v.denominator)).length
  else 1 - (Text.digits 10 ((v.denominator - 1) / v.numerator)).length

/-- A decimal with the given power of ten for its last place that is nearest to the double and leads
back to it. -/
def decimalAt? (d : Double) (place : Int) : Option Nat :=
  let down := d.value.floorDiv (.scaled 1 10 place)
  let fits := fun n => d.isNearestTo (.scaled n 10 place)
  let isCloserBelow := d.value.lt (.scaled (10 * down + 5) 10 (place - 1))
  if fits down && (isCloserBelow || !fits (down + 1)) then some down
  else if fits (down + 1) then some (down + 1)
  else none

/-- The digits of the shortest decimal that leads back to the double, and how many of them stand
before the point. -/
def shortest (d : Double) : List Char × Int :=
  let found := (List.range 18).findSome? fun (length : Nat) =>
    let place := d.magnitude - length
    (d.decimalAt? place).map fun n => (Text.digits 10 n, place)
  let (digits, place) := found.getD (['0'], 0)
  ((digits.reverse.dropWhile (· = '0')).reverse, place + digits.length)

/-- The double in decimal digits, with at least one on either side of the point. -/
def text (d : Double) : String :=
  let (digits, whole) := d.shortest
  let before := digits.take whole.toNat ++ List.replicate (whole.toNat - digits.length) '0'
  let after := List.replicate (-whole).toNat '0' ++ digits.drop whole.toNat
  let orZero := fun (cs : List Char) => if cs.isEmpty then ['0'] else cs
  String.ofList (orZero before ++ '.' :: orZero after)

end Double

/-- The distance of a written float from zero, shown as a double. -/
def magnitudeText (cs : List Char) : String :=
  let inNumber := fun c : Char => c.isDigit
  let fraction :=
    match cs.dropWhile inNumber with
    | '.' :: rest => rest.takeWhile inNumber
    | _ => []
  let exponent : Int :=
    match cs.dropWhile fun c => inNumber c || c == '.' with
    | _ :: '-' :: ds => -((natural? 10 ds).getD 0)
    | _ :: '+' :: ds => (natural? 10 ds).getD 0
    | _ :: ds => (natural? 10 ds).getD 0
    | [] => 0
  let digits := cs.takeWhile inNumber ++ fraction
  let number := (natural? 10 digits).getD 0
  let place := exponent - fraction.length
  -- Far beyond the range of doubles the power of ten is not worked out.
  if number = 0 ∨ place + digits.length < -400 then "0.0"
  else if 400 < place then "inf"
  else
    let double := Double.nearest (.scaled number 10 place)
    if double.mantissa = 0 then "0.0"
    else if double.isTooLarge then "inf"
    else double.text

/-- How a written float is shown. -/
def floatText (text : String) : String :=
  let cs := text.toList.filter (· ≠ '_')
  let body := dropSign cs
  if body = ['n', 'a', 'n'] then "NaN"
  else
    (if cs.head? = some '-' then "-" else "") ++
      if body = ['i', 'n', 'f'] then "inf" else magnitudeText body

end JavaSource.Toml
