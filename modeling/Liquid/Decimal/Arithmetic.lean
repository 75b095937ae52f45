import Liquid.Decimal

/-!
# Arithmetic to Twenty-Eight Digits

Sums, products and quotients of decimals, each rounded once to a fixed number
of digits, a half to the even neighbour. Exponents are bounded too: a result
too large is a failure, one too small loses digits and at last becomes zero.

Every operation first forms a coefficient that is exact, or exact but for a
tail that cannot matter, and then settles it. A tail cannot matter once it
lies two digits behind the last one kept; it is then enough to know whether it
is there. That keeps a sum of numbers of very different size, or a quotient
that never ends, as cheap as any other.

## Main definitions

* `Signal`: How arithmetic fails.
* `settle`: A coefficient and exponent rounded into the bounds.
* `add`, `sub`, `mul`, `div`, `abs`: The operations.
* `quantize`: A number rounded to a given last place.
* `placeUnit`: The last place that a number of decimal places asks for.
-/

namespace Liquid

namespace Decimal

/-- How arithmetic fails. -/
inductive Signal
  /-- The result would have more digits than are kept, or a place out of bounds. -/
  | invalidOperation
  /-- The result is too large. -/
  | overflow
deriving DecidableEq

/-- The number of digits that are kept. -/
def precision : Nat := 28

/-- The largest exponent that the leading digit of a result may have. -/
def largest : Int := 999999

/-- The smallest exponent that the last digit of a result may have. -/
def lowest : Int := -999999 - (precision - 1)

/-- The number rounded once into the bounds. -/
def settle (negative : Bool) (coefficient : Nat) (exponent : Int) : Except Signal Decimal :=
  if coefficient == 0 then
    .ok (finite negative 0 (max lowest (min largest exponent)))
  else
    -- The last place is as low as it was, unless there are too many digits or it is out of bounds.
    let kept := max lowest (max exponent (leading coefficient exponent - (precision - 1)))
    let rounded := Rounding.halfEven.shifted negative coefficient (kept - exponent).toNat
    if largest < leading rounded kept then .error .overflow
    else .ok (finite negative rounded kept)

/-- Two products of a coefficient and a power of ten at a common exponent, the first having the
larger exponent. A second one too small to matter is replaced by a one behind the digits kept. -/
def aligned (c : Nat) (e : Int) (d : Nat) (f : Int) : Nat × Nat × Int :=
  -- Two places behind the last digit that a sum with the first one can keep.
  let tail := e + min (-1) ((digitCount c : Int) - precision - 2)
  let (d, f) := if leading d f < tail then (1, tail) else (d, f)
  (c * tenTo (e - f).toNat, d, f)

/-- The sum of two numbers other than zero, the first having the larger exponent. -/
def addAligned (n : Bool) (c : Nat) (e : Int) (m : Bool) (d : Nat) (f : Int) :
    Except Signal Decimal :=
  let (c, d, low) := aligned c e d f
  let sum := signed n c + signed m d
  settle (sum < 0) sum.natAbs low

/-- The sum. Opposite numbers add up to the positive zero. -/
def add : Decimal → Decimal → Except Signal Decimal
  | finite n c e, finite m d f =>
    if c == 0 && d == 0 then settle (n && m) 0 (min e f)
    else if c == 0 then settle m d f
    else if d == 0 then settle n c e
    else if f ≤ e then addAligned n c e m d f
    else addAligned m d f n c e
  | _, _ => .error .invalidOperation

/-- The number with the other sign. -/
def neg : Decimal → Decimal
  | finite n c e => finite (!n) c e
  | infinite n => infinite (!n)
  | nan => nan

/-- The difference. -/
def sub (a b : Decimal) : Except Signal Decimal :=
  a.add b.neg

/-- The product. -/
def mul : Decimal → Decimal → Except Signal Decimal
  | finite n c e, finite m d f => settle (n != m) (c * d) (e + f)
  | _, _ => .error .invalidOperation

/-- The quotient by a number other than zero. A remainder shows as a last digit that no rounding
to nearest takes for a half or for nothing. -/
def div : Decimal → Decimal → Except Signal Decimal
  | finite n c e, finite m d f =>
    if c == 0 then settle (n != m) 0 (e - f)
    else
      -- Enough digits that the quotient has one more than are kept.
      let shift : Int := (digitCount d : Int) - digitCount c + precision + 1
      let top := c * tenTo shift.toNat
      let bottom := d * tenTo (-shift).toNat
      let quotient := top / bottom
      -- A last digit of 0 or 5 would pass for exact or for a half.
      let sticky := top % bottom != 0 && quotient % 5 == 0
      settle (n != m) (if sticky then quotient + 1 else quotient) (e - f - shift)
  | _, _ => .error .invalidOperation

/-- The magnitude, rounded like any other result. -/
def abs : Decimal → Except Signal Decimal
  | finite _ c e => settle false c e
  | _ => .error .invalidOperation

/-- The number rounded so that its last digit stands for `10 ^ place`. It must fit into the digits
that are kept. -/
def quantize (mode : Rounding) (place : Int) : Decimal → Except Signal Decimal
  | finite n c e =>
    if place < lowest || largest < place then .error .invalidOperation
    else if c == 0 then .ok (finite n 0 place)
    -- The digits are counted before they are written, for the exponent may be large.
    else if largest < leading c e || precision < leading c e - place + 1 then
      .error .invalidOperation
    else
      let scaled :=
        if place ≤ e then c * tenTo (e - place).toNat else mode.shifted n c (place - e).toNat
      -- Rounding may have carried into one digit more.
      if precision < digitCount scaled || largest < leading scaled place then
        .error .invalidOperation
      else .ok (finite n scaled place)
  | _ => .error .invalidOperation

/-- The last place of a number with the given number of decimal places, no lower than any result
may have. Asking for places far beyond that is refused. -/
def placeUnit (places : Nat) : Except Signal Int :=
  if 2 * (largest + precision) < places then .error .invalidOperation
  else .ok (max lowest (-(places : Int)))

end Decimal

end Liquid
