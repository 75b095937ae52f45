import Liquid.Text.CharSet

/-!
# Decimal Digits

The decimal digits of every script. Unicode lays each script's ten digits out
in one block from zero to nine, and blocks that touch have whole tens between
them, so a digit's value is its distance from the start of its run modulo ten.

## Main definitions

* `digits`: The decimal digits of every script.
* `isDigit`: Whether a character is a decimal digit.
* `digitValue?`: The value of a decimal digit.
* `readNat?`: The number that a non-empty run of digits writes.
-/

namespace Liquid

namespace Text

/-- The decimal digits of every script. -/
def digits : CharSet :=
  ⟨[
    48, 58, 1632, 1642, 1776, 1786, 1984, 1994, 2406, 2416, 2534, 2544, 2662, 2672, 2790, 2800,
    2918, 2928, 3046, 3056, 3174, 3184, 3302, 3312, 3430, 3440, 3558, 3568, 3664, 3674, 3792,
    3802, 3872, 3882, 4160, 4170, 4240, 4250, 6112, 6122, 6160, 6170, 6470, 6480, 6608, 6618,
    6784, 6794, 6800, 6810, 6992, 7002, 7088, 7098, 7232, 7242, 7248, 7258, 42528, 42538, 43216,
    43226, 43264, 43274, 43472, 43482, 43504, 43514, 43600, 43610, 44016, 44026, 65296, 65306,
    66720, 66730, 68912, 68922, 69734, 69744, 69872, 69882, 69942, 69952, 70096, 70106, 70384,
    70394, 70736, 70746, 70864, 70874, 71248, 71258, 71360, 71370, 71472, 71482, 71904, 71914,
    72016, 72026, 72784, 72794, 73040, 73050, 73120, 73130, 92768, 92778, 92864, 92874, 93008,
    93018, 120782, 120832, 123200, 123210, 123632, 123642, 125264, 125274, 130032, 130042
  ]⟩

/-- Whether the character is a decimal digit of some script. -/
def isDigit (c : Char) : Bool :=
  digits.has c

/-- The distance of a point from the start of its run, if it lies in one. -/
def CharSet.offset? : List Nat → Nat → Option Nat
  | first :: past :: flips, point =>
    if point < first then none
    else if point < past then some (point - first)
    else offset? flips point
  | _, _ => none

/-- The value of a decimal digit, from zero to nine. -/
def digitValue? (c : Char) : Option Nat :=
  (CharSet.offset? digits.flips c.toNat).map (· % 10)

/-- The number that the digits write after those that gave `acc`. -/
def readNatFrom? (acc : Nat) : List Char → Option Nat
  | [] => some acc
  | c :: cs => (digitValue? c).bind fun d => readNatFrom? (10 * acc + d) cs

/-- The number that a non-empty run of digits writes; `none` if another character is among them. -/
def readNat? : List Char → Option Nat
  | [] => none
  | cs => readNatFrom? 0 cs

end Text

end Liquid
