import Liquid.Decimal
import Liquid.Text.Digit

/-!
# Decimals as Text

Numbers as they are read and written. Written text is positional whatever the
exponent, with one digit after the point at least and no zero at the end but
that one. So texts of equal numbers of one sign are equal.

Reading takes what writing produces and more: a sign, digits of any script, a
point with digits on one side at least, and an exponent. Exponents beyond what
a decimal may have are refused.

## Main definitions

* `fixed`: The text of a finite number.
* `text`: The text of any decimal.
* `read?`: The number that a text writes.
* `readAny?`: The same, with the infinities and the value that is no number.
-/

namespace Liquid

namespace Decimal

/-- The list without its trailing zeros. -/
def dropZeros (digits : List Char) : List Char :=
  (digits.reverse.dropWhile (· == '0')).reverse

/-- The fraction as it is written: without trailing zeros, but with one digit at least. -/
def fraction (digits : List Char) : List Char :=
  match dropZeros digits with
  | [] => ['0']
  | ds => ds

/-- The positional text of a magnitude. -/
def positional (coefficient : Nat) (exponent : Int) : List Char :=
  let digits := Nat.toDigits 10 coefficient
  if 0 ≤ exponent then
    (if coefficient == 0 then digits else digits ++ List.replicate exponent.toNat '0') ++ ['.', '0']
  else
    let places := (-exponent).toNat
    let padded := List.replicate (places + 1 - digits.length) '0' ++ digits
    padded.take (padded.length - places) ++ '.' :: fraction (padded.drop (padded.length - places))

/-- The text of a finite number. -/
def fixed (negative : Bool) (coefficient : Nat) (exponent : Int) : List Char :=
  (if negative then ['-'] else []) ++ positional coefficient exponent

/-- The text of a decimal. -/
def text : Decimal → String
  | finite n c e => String.ofList (fixed n c e)
  | infinite n => if n then "-inf" else "inf"
  | nan => "nan"

/-- A sign at the start of a text, whether it is a minus, and what follows it. -/
def readSign : List Char → Bool × List Char
  | '-' :: cs => (true, cs)
  | '+' :: cs => (false, cs)
  | cs => (false, cs)

/-- An exponent that a text consists of; the empty text is the exponent zero. -/
def readExponent? : List Char → Option Int
  | [] => some 0
  | c :: cs =>
    if c == 'e' || c == 'E' then
      let (negative, digits) := readSign cs
      (Text.readNat? digits).map (signed negative)
    else none

/-- The number with the given parts, unless its exponents are out of bounds. -/
def bounded? (negative : Bool) (coefficient : Nat) (exponent : Int) : Option Decimal :=
  if exponent < -1999999999999999997 || 999999999999999999 < leading coefficient exponent then none
  else some (finite negative coefficient exponent)

/-- The number that a text writes. -/
def read? (cs : List Char) : Option Decimal := do
  let (negative, cs) := readSign cs
  let whole := cs.takeWhile Text.isDigit
  let rest := cs.dropWhile Text.isDigit
  let places := if rest.head? == some '.' then (rest.drop 1).takeWhile Text.isDigit else []
  let rest := if rest.head? == some '.' then (rest.drop 1).dropWhile Text.isDigit else rest
  let coefficient ← Text.readNat? (whole ++ places)
  let exponent ← readExponent? rest
  bounded? negative coefficient (exponent - places.length)

/-- The decimal that a text writes, where the words for the infinities and for the value that is
no number count too, in either case. -/
def readAny? (cs : List Char) : Option Decimal :=
  let (negative, word) := readSign cs
  let word := String.ofList (word.map Char.toLower)
  if word == "inf" || word == "infinity" then some (infinite negative)
  else if word == "nan" || word == "snan" then some nan
  else read? cs

end Decimal

end Liquid
