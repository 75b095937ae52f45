import Liquid.Power

/-!
# Decimals

Decimal numbers of any size and precision: a sign, a coefficient and a power of
ten, or one of the two infinities, or the single value that is no number.

A number may have many representations, since `1`, `1.0` and `10E-1` differ in
their coefficients. Nothing here normalizes them: comparison goes by value, and
so does the text. Zero keeps a sign, which the text shows and comparison
ignores.

Exponents may be far larger than any coefficient could be written out, so
magnitudes are compared by the place of their leading digit first. Only numbers
of equal leading place are brought to a common exponent, which costs no more
than the digits that they have.

## Main definitions

* `Decimal`: The numbers.
* `Decimal.compare`: The order of all decimals, the value that is no number
  last and equal to itself.
* `Decimal.leading`: The place of the leading digit.
* `Rounding`: What becomes of the digits that are cut off.
* `Rounding.shifted`: A coefficient without its last digits.
* `Decimal.toIntegral`: The nearest integer in a rounding.
* `Decimal.truncated?`: The integer part.
-/

namespace Liquid

/-- A decimal number. -/
inductive Decimal
  /-- The number `coefficient * 10 ^ exponent`, negated if `negative`. -/
  | finite (negative : Bool) (coefficient : Nat) (exponent : Int)
  | infinite (negative : Bool)
  | nan
deriving DecidableEq

namespace Decimal

/-- The number of decimal digits; zero has one. -/
def digitCount (n : Nat) : Nat :=
  (Nat.toDigits 10 n).length

/-- An integer as a decimal. -/
def ofInt (n : Int) : Decimal :=
  finite (n < 0) n.natAbs 0

/-- Whether the decimal is a number with an end to its digits. -/
def isFinite : Decimal → Bool
  | finite .. => true
  | _ => false

/-- Whether the decimal is a zero of either sign. -/
def isZero : Decimal → Bool
  | finite _ c _ => c == 0
  | _ => false

/-- The exponent of ten at the leading digit of `coefficient * 10 ^ exponent`. -/
def leading (coefficient : Nat) (exponent : Int) : Int :=
  exponent + digitCount coefficient - 1

/-- The order of two products of a coefficient and a power of ten, at a common exponent. -/
def compareScaled (c : Nat) (e : Int) (d : Nat) (f : Int) : Ordering :=
  let low := min e f
  Ord.compare (c * tenTo (e - low).toNat) (d * tenTo (f - low).toNat)

/-- The order of two products of a coefficient and a power of ten. -/
def compareMagnitude (c : Nat) (e : Int) (d : Nat) (f : Int) : Ordering :=
  -- A zero has no leading digit to go by.
  if c == 0 || d == 0 then Ord.compare c d
  else (Ord.compare (leading c e) (leading d f)).then (compareScaled c e d f)

/-- The order of all decimals: numbers by value, the infinities at the two ends, and behind them
the value that is no number. -/
def compare : Decimal → Decimal → Ordering
  | nan, nan => .eq
  | nan, _ => .gt
  | _, nan => .lt
  | infinite n, infinite m => Ord.compare m n
  | infinite n, finite .. => if n then .lt else .gt
  | finite .., infinite n => if n then .gt else .lt
  | finite n c e, finite m d f =>
    if c == 0 && d == 0 then .eq
    else if n && c != 0 then
      if m && d != 0 then compareMagnitude d f c e else .lt
    else if m && d != 0 then .gt
    else compareMagnitude c e d f

end Decimal

/-- What becomes of the digits that a number loses. -/
inductive Rounding
  /-- To the nearest, a half to the even neighbour. -/
  | halfEven
  /-- To the nearest, a half away from zero. -/
  | halfUp
  | floor
  | ceiling
deriving DecidableEq

namespace Rounding

/-- Whether the magnitude is rounded up, from the quotient kept and a remainder below `unit`. -/
def isUp (mode : Rounding) (negative : Bool) (quotient remainder unit : Nat) : Bool :=
  match mode with
  | halfEven => unit < 2 * remainder || (unit == 2 * remainder && quotient % 2 == 1)
  | halfUp => unit ≤ 2 * remainder
  | floor => negative && remainder != 0
  | ceiling => !negative && remainder != 0

/-- The coefficient without its last `count` digits. A count beyond the digits that there are is
as good as one more than these, since all that counts is that less than a tenth is left. -/
def shifted (mode : Rounding) (negative : Bool) (coefficient count : Nat) : Nat :=
  let unit := tenTo (min count (Decimal.digitCount coefficient + 1))
  let quotient := coefficient / unit
  let remainder := coefficient % unit
  if mode.isUp negative quotient remainder unit then quotient + 1 else quotient

end Rounding

namespace Decimal

/-- The nearest integer in the given rounding, as a decimal. -/
def toIntegral (mode : Rounding) : Decimal → Decimal
  | finite n c e => if 0 ≤ e then finite n c e else finite n (mode.shifted n c (-e).toNat) 0
  | d => d

/-- The integer with the given sign and magnitude. -/
def signed (negative : Bool) (magnitude : Nat) : Int :=
  if negative then -(magnitude : Int) else magnitude

/-- The integer part of a number with an end to its digits. -/
def truncated? : Decimal → Option Int
  | finite n c e =>
    if 0 ≤ e then some (signed n (c * tenTo e.toNat))
    -- All digits lie behind the point; no power is formed for that.
    else if digitCount c < (-e).toNat then some 0
    else some (signed n (c / tenTo (-e).toNat))
  | _ => none

/-- Whether the number has no fraction. -/
def isIntegral (d : Decimal) : Bool :=
  d.isFinite && d.compare (d.toIntegral .halfEven) == .eq

end Decimal

end Liquid
