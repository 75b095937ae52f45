import Liquid.Decimal.Double
import Liquid.Moment

/-!
# Timestamps

Moments counted in seconds from the start of 1970, in universal time. A count
is taken as a double. Its whole seconds are exact; what is left is multiplied
into microseconds as a double again and then rounded, a half to the even one.

## Main definitions

* `Moment.microsOf?`: A double as a count of microseconds.
* `Moment.ofMicros?`: The moment with a count of microseconds.
* `Moment.ofTimestamp?`: The moment with a count of seconds.
-/

namespace Liquid

namespace Moment

/-- The fraction of a second rounded to microseconds, by way of a double. -/
def fractionMicros (num den : Nat) : Nat :=
  match Double.nearest false (num * microsPerSecond) den with
  | .finite _ significand exponent =>
    Double.roundedFraction (significand * twoTo exponent.toNat) (twoTo (-exponent).toNat)
  | _ => 0

/-- A count of seconds in microseconds. -/
def microsOf? : Double → Option Int
  | .finite negative significand exponent =>
    let num := significand * twoTo exponent.toNat
    let den := twoTo (-exponent).toNat
    let micros := num / den * microsPerSecond + fractionMicros (num % den) den
    some (Decimal.signed negative micros)
  | _ => none

/-- The number of the first day of 1970. -/
def epochDay : Nat := dayNumber 1970 1 1

/-- The moment with a count of microseconds from the start of 1970. -/
def ofMicros? (micros : Int) : Option Moment :=
  let total := micros + epochDay * microsPerDay
  let last := (daysBeforeYear 10000 + 1) * microsPerDay
  if total < microsPerDay || (last : Int) ≤ total then none
  else
    let total := total.toNat
    let (year, month, day) := dateOf (total / microsPerDay)
    let rest := total % microsPerDay
    let seconds := rest / microsPerSecond
    some ⟨year, month, day, seconds / 3600, seconds / 60 % 60, seconds % 60, rest % microsPerSecond,
      some 0⟩

/-- The moment with a count of seconds from the start of 1970. -/
def ofTimestamp? (seconds : Decimal) : Option Moment :=
  (microsOf? (Double.ofDecimal seconds)).bind ofMicros?

end Moment

end Liquid
