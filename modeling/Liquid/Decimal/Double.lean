import Liquid.Decimal.Text

/-!
# Binary Doubles

The numbers of the common binary format with a significand of 53 bits, as far
as the language needs them. A host may hand over such a number, and moments in
time are counted in them.

A double is taken into decimals by its shortest text: the fewest digits that
read back as the same double, and of those the nearest. To find them, each
count of digits in turn lays a grid of decimals over the line, and the two
neighbours of the number on that grid are tried. If any point of the grid
reads back as the number, one of its two neighbours does, so the first grid
with a hit is the coarsest one. All this is done on fractions of integers, and
so is rounding in the other direction.

A host writes a double by the same decimal, positional near the point and with a
power of ten far from it. The exponent has a sign and two digits at least.

## Main definitions

* `Double`: The numbers.
* `Double.nearest`: The double nearest to a fraction.
* `Double.ofDecimal`: The double nearest to a decimal.
* `Double.shortest`: The shortest decimal that reads back as a double.
* `Double.toDecimal`: A double as a decimal.
* `Double.roundedFraction`: A fraction rounded to an integer, halves to even.
* `Double.scientific`: The text with a power of ten.
* `Double.text`: The text of a double.
-/

namespace Liquid

/-- A binary double: `significand * 2 ^ exponent`, negated if `negative`, or none of these. -/
inductive Double
  | finite (negative : Bool) (significand : Nat) (exponent : Int)
  | infinite (negative : Bool)
  | nan
deriving DecidableEq

namespace Double

/-- The fraction rounded to the nearest integer, a half to the even one. -/
def roundedFraction (num den : Nat) : Nat :=
  let quotient := num / den
  if Rounding.halfEven.isUp false quotient (num % den) den then quotient + 1 else quotient

/-- The fraction divided by a power of two. -/
def scaledBy (exponent : Int) (num den : Nat) : Nat × Nat :=
  (num * twoTo (-exponent).toNat, den * twoTo exponent.toNat)

/-- The exponent of the doubles around a fraction other than zero: such that 53 bits are left
before the point, unless the number is too small for that. -/
def exponentFor (num den : Nat) : Int :=
  -- The logarithms are rounded, so the guess may be one too small.
  let guess : Int := (Nat.log2 num : Int) - Nat.log2 den - 53
  let (n, d) := scaledBy guess num den
  max (-1074) (if twoTo 53 ≤ n / d then guess + 1 else guess)

/-- The double nearest to a fraction, a half to the even neighbour. -/
def nearest (negative : Bool) (num den : Nat) : Double :=
  if num == 0 then finite negative 0 (-1074)
  else
    let exponent := exponentFor num den
    let (n, d) := scaledBy exponent num den
    let significand := roundedFraction n d
    -- Rounding up may reach the power of two behind the largest double.
    if 971 < exponent || (exponent == 971 && twoTo 53 ≤ significand) then infinite negative
    else finite negative significand exponent

/-- The double nearest to a decimal. Decimals beyond the reach of doubles are told by the place of
their leading digit, before any power is formed. -/
def ofDecimal : Decimal → Double
  | .nan => nan
  | .infinite n => infinite n
  | .finite n c e =>
    if c == 0 || Decimal.leading c e < -400 then finite n 0 (-1074)
    else if 400 < Decimal.leading c e then infinite n
    else nearest n (c * tenTo e.toNat) (tenTo (-e).toNat)

/-- The ends of the interval of numbers that round to a double, over a common denominator, which
is four times that of the double itself; the interval includes them if the significand is even. -/
def interval (significand : Nat) (exponent : Int) : Nat × Nat :=
  -- Below a power of two the doubles lie twice as dense.
  let lowered :=
    if significand == twoTo 52 && -1074 < exponent then 4 * significand - 1 else 4 * significand - 2
  (lowered, 4 * significand + 2)

/-- The value of a double over the denominator of its interval, as a fraction. -/
def fractionOf (fourths : Nat) (exponent : Int) : Nat × Nat :=
  (fourths * twoTo exponent.toNat, 4 * twoTo (-exponent).toNat)

/-- Whether the point `digits * 10 ^ place` rounds to the double. -/
def readsBack (significand : Nat) (exponent : Int) (digits : Nat) (place : Int) : Bool :=
  let (low, high) := interval significand exponent
  let (lowNum, den) := fractionOf low exponent
  let (highNum, _) := fractionOf high exponent
  let point := digits * tenTo place.toNat * den
  let scale := tenTo (-place).toNat
  if significand % 2 == 0 then lowNum * scale ≤ point && point ≤ highNum * scale
  else lowNum * scale < point && point < highNum * scale

/-- The place of the leading digit of a fraction, given that of some number not above it. -/
def leadingPlace (num den : Nat) : Nat → Int → Int
  | 0, place => place
  | fuel + 1, place =>
    if den * tenTo (place + 1).toNat ≤ num * tenTo (-(place + 1)).toNat then
      leadingPlace num den fuel (place + 1)
    else place

/-- The nearest point on the grid of `count` digits that reads back, if one does. -/
def hit? (significand : Nat) (exponent : Int) (leading : Int) (count : Nat) :
    Option (Nat × Int) :=
  let place := leading - (count - 1)
  let (num, den) := fractionOf (4 * significand) exponent
  let num := num * tenTo (-place).toNat
  let den := den * tenTo place.toNat
  let below := num / den
  -- The farther neighbour may read back where the nearer one does not: the interval is lopsided
  -- at a power of two.
  let nearer := roundedFraction num den
  let other := if nearer == below then below + 1 else below
  if readsBack significand exponent nearer place then some (nearer, place)
  else if readsBack significand exponent other place then some (other, place)
  else none

/-- The shortest decimal that reads back as the double, from its digits and last place. -/
def shortest (significand : Nat) (exponent : Int) : Nat × Int :=
  let (num, den) := fractionOf (4 * significand) exponent
  let leading := leadingPlace num den 640 (-325)
  ((List.range 17).findSome? fun n => hit? significand exponent leading (n + 1)).getD (0, 0)

/-- The double as a decimal, by its shortest text. -/
def toDecimal : Double → Decimal
  | nan => .nan
  | infinite n => .infinite n
  | finite n significand exponent =>
    if significand == 0 then .finite n 0 (-1)
    else
      let (digits, place) := shortest significand exponent
      .finite n digits place

/-- The digits of a text with one digit before the point. -/
def mantissa (coefficient : Nat) : List Char :=
  match Decimal.dropZeros (Nat.toDigits 10 coefficient) with
  | [] => ['0']
  | [digit] => [digit]
  | digit :: digits => digit :: '.' :: digits

/-- The text with a power of ten. -/
def scientific (negative : Bool) (coefficient : Nat) (power : Int) : List Char :=
  let digits := Nat.toDigits 10 power.natAbs
  (if negative then ['-'] else []) ++ mantissa coefficient
    ++ 'e' :: (if power < 0 then '-' else '+')
      :: (List.replicate (2 - digits.length) '0' ++ digits)

/-- The text of a double. -/
def text (d : Double) : String :=
  match d.toDecimal with
  | .finite negative coefficient exponent =>
    let power := Decimal.leading coefficient exponent
    if power < -4 || 16 ≤ power then String.ofList (scientific negative coefficient power)
    else String.ofList (Decimal.fixed negative coefficient exponent)
  | decimal => decimal.text

end Double

end Liquid
