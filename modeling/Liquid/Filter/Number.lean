import Liquid.Filter

/-!
# Filters for Numbers

Arithmetic on values. Anything that is no finite number counts as zero. A
result is an integer if all operands are whole by their form: integers, texts
of digits, and all that counts as zero. Otherwise it is a decimal.

The sums and products of integers go through decimal arithmetic too, so they
are exact only as far as its digits go. Integer quotients and remainders do
not; they are exact at any size, and round to the floor.

## Main definitions

* `Filter.operand`: The number that a value counts as.
* `Filter.isWhole`: Whether a value is whole by its form.
* `Filter.resultOf`: A computed number as a value.
* `Filter.numberFilters`: The filters.
-/

namespace Liquid

namespace Filter

/-- The number that a value counts as. -/
def operand (v : Value) : Decimal :=
  match v.number? with
  | some (.finite n c e) => .finite n c e
  | _ => .finite false 0 0

/-- Whether a text consists of digits, with a sign before them or without. -/
def isIntegerText (cs : List Char) : Bool :=
  let (_, digits) := Decimal.readSign cs
  !digits.isEmpty && digits.all Text.isDigit

/-- Whether a value is whole by its form. -/
def isWhole : Value → Bool
  | .decimal _ => false
  | .string s => (Value.string s).number?.isNone || isIntegerText (Text.strip s.toList)
  | _ => true

/-- A computed number as a value: as an integer if it should be one and can. -/
def numberValue (whole : Bool) (d : Decimal) : Value :=
  if whole && d.isIntegral then .integer (d.truncated?.getD 0) else .decimal d

/-- A computed number as a value, from the operands that gave it. -/
def resultOf (operands : List Value) (d : Decimal) : Value :=
  numberValue (operands.all isWhole) d

/-- A result, or the failure of the arithmetic. -/
def arithmetic {α : Type} (result : Except Decimal.Signal α) : Except FilterFailure α :=
  result.mapError fun signal => .rejected (.arithmetic signal)

/-- The magnitude. -/
def magnitude (v : Value) : Except FilterFailure Value := do
  .ok (resultOf [v] (← arithmetic (operand v).abs))

/-- The sum. -/
def plus (v w : Value) : Except FilterFailure Value := do
  .ok (resultOf [v, w] (← arithmetic ((operand v).add (operand w))))

/-- The difference. -/
def minus (v w : Value) : Except FilterFailure Value := do
  .ok (resultOf [v, w] (← arithmetic ((operand v).sub (operand w))))

/-- The product. -/
def times (v w : Value) : Except FilterFailure Value := do
  .ok (resultOf [v, w] (← arithmetic ((operand v).mul (operand w))))

/-- The integer that a whole operand is. -/
def wholeOf (v : Value) : Int :=
  (operand v).truncated?.getD 0

/-- The quotient, of whole operands the floor of it. -/
def dividedBy (v w : Value) : Except FilterFailure Value :=
  if (operand w).isZero then .error (.rejected .divisionByZero)
  else if isWhole v && isWhole w then .ok (.integer (Int.fdiv (wholeOf v) (wholeOf w)))
  else do .ok (.decimal (← arithmetic ((operand v).div (operand w))))

/-- What the floor of the quotient leaves; it has the sign of the divisor. -/
def modulo (v w : Value) : Except FilterFailure Value :=
  if (operand w).isZero then .error (.rejected .divisionByZero)
  else if isWhole v && isWhole w then .ok (.integer (Int.fmod (wholeOf v) (wholeOf w)))
  else arithmetic do
    -- The quotient is rounded before its floor is taken, so both steps may fail.
    let quotient ← (operand v).div (operand w)
    let product ← (operand w).mul (quotient.toIntegral .floor)
    .ok (.decimal (← (operand v).sub product))

/-- The number rounded to so many decimal places, a half away from zero; to an integer if none are
asked for. -/
def round (v : Value) (digits : Option Value) : Except FilterFailure Value :=
  let places := (digits.bind Value.integer?).getD 0
  arithmetic do
    -- A number of places below zero asks for an integer too.
    if places ≤ 0 then
      let rounded ← (operand v).quantize .halfUp 0
      .ok (.integer (rounded.truncated?.getD 0))
    else
      let unit ← Decimal.placeUnit places.toNat
      .ok (.decimal (← (operand v).quantize .halfUp unit))

/-- The nearest integer in the given direction. -/
def toward (mode : Rounding) (v : Value) : Except FilterFailure Value :=
  .ok (.integer (((operand v).toIntegral mode).truncated?.getD 0))

/-- The greater of two numbers, the first of equal ones. -/
def atLeast (v w : Value) : Except FilterFailure Value :=
  .ok <|
    if ((operand v).compare (operand w)).isGE then resultOf [v] (operand v)
    else resultOf [w] (operand w)

/-- The smaller of two numbers, the first of equal ones. -/
def atMost (v w : Value) : Except FilterFailure Value :=
  .ok <|
    if ((operand v).compare (operand w)).isLE then resultOf [v] (operand v)
    else resultOf [w] (operand w)

/-- The filters for numbers. -/
def numberFilters : List Filter :=
  [ofUnary "abs" magnitude, ofBinary "plus" plus, ofBinary "minus" minus, ofBinary "times" times,
    ofBinary "divided_by" dividedBy, ofBinary "modulo" modulo, ofOptional "round" round,
    ofUnary "ceil" (toward .ceiling), ofUnary "floor" (toward .floor),
    ofBinary "at_least" atLeast, ofBinary "at_most" atMost]

end Filter

end Liquid
