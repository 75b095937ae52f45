import Liquid.Filter.Number
import Liquid.Proofs.Decimal.Integer
import Liquid.Proofs.Text.Digit
import Mathlib.Data.List.TakeWhile

/-!
# Filters on Integers

What the arithmetic filters make of integers, and of texts that write integers
in digits, however large they are.

Sums, differences, products and magnitudes go through decimal arithmetic. They
are integers again, and are what they should be exactly as long as decimal
arithmetic has room for it: beyond its digits they are rounded, without a sign
of it, and only a result of more than a million digits is refused. Quotients and
remainders do not go that way. They are exact at any size, so a quotient and a
remainder determine the dividend; but putting it together again takes a product
and a sum, and for these there must be room.

## Main definitions

* `Filter.Denotes`: The integer that a value is or writes.
* `Filter.RoundsTo`: What decimal arithmetic gives for an integer.

## Theorems

* `Filter.operand_of_denotes`: A text of digits counts as the integer it writes.
* `Filter.roundsTo_settle`: What is settled is rounded.
* `Filter.arithmetic_on_integers`: All six filters on integers.
-/

namespace Liquid

namespace Filter

open Decimal (Fits Nearest longest signed)

/-- Whether a value is the integer, or a text that writes it by a sign and digits between blanks. No
text is read that has more digits than an exponent can count. -/
inductive Denotes : Value → Int → Prop
  | integer (n : Int) : Denotes (.integer n) n
  | text {s : String} {negative : Bool} {digits : List Char} {c : Nat}
      (sign : Decimal.readSign (Text.strip s.toList) = (negative, digits))
      (all : ∀ d ∈ digits, Text.isDigit d = true) (read : Text.readNat? digits = some c)
      (bound : Decimal.digitCount c ≤ 1000000000000000000) :
      Denotes (.string s) (signed negative c)

/-- What decimal arithmetic gives where an integer should come out: the nearest integer that it has
room for, or a rejection if that is too long. It is the integer itself only if that fits. -/
structure RoundsTo (n : Int) (answer : Except FilterFailure Value) : Prop where
  nearest : ∃ m, Nearest n m ∧ answer =
    if Decimal.digitCount m.natAbs ≤ longest then .ok (.integer m)
    else .error (.rejected (.arithmetic .overflow))
  exact_iff : answer = .ok (.integer n) ↔ Fits n

section Denotes

variable {v w : Value} {a b : Int}

/-- Digits with a sign are read as what they write. -/
theorem read?_digits {cs digits : List Char} {negative : Bool} {c : Nat}
    (sign : Decimal.readSign cs = (negative, digits)) (all : ∀ d ∈ digits, Text.isDigit d = true)
    (read : Text.readNat? digits = some c)
    (bound : Decimal.digitCount c ≤ 1000000000000000000) :
    Decimal.read? cs = some (.finite negative c 0) := by
  have htake : digits.takeWhile Text.isDigit = digits := List.takeWhile_eq_self_iff.mpr all
  have hdrop : digits.dropWhile Text.isDigit = [] := List.dropWhile_eq_nil_iff.mpr all
  -- Few enough digits are in bounds without an exponent.
  have hbounded : Decimal.bounded? negative c 0 = some (.finite negative c 0) := by
    unfold Decimal.bounded? Decimal.leading
    rw [if_neg]
    simp only [Bool.or_eq_true, decide_eq_true_eq]
    omega
  unfold Decimal.read?
  simp [sign, htake, hdrop, read, Decimal.readExponent?, hbounded]

/-- What denotes an integer is read as that integer. -/
theorem operand_of_denotes (h : Denotes v a) :
    ∃ negative c, operand v = .finite negative c 0 ∧ signed negative c = a := by
  cases h with
  | integer n => exact ⟨_, _, rfl, Decimal.signed_natAbs a⟩
  | @text s negative digits c sign all read bound =>
      refine ⟨negative, c, ?_, rfl⟩
      unfold operand Value.number?
      simp only [read?_digits sign all read bound]

/-- What denotes an integer counts as whole. -/
theorem isWhole_of_denotes (h : Denotes v a) : isWhole v = true := by
  -- A text denotes an integer if there are digits behind its sign, and nothing else.
  cases h with
  | integer n => rfl
  | @text s negative digits c sign all read bound =>
      have hne : digits ≠ [] := by
        intro hnil
        rw [hnil] at read
        exact nomatch read
      have htext : isIntegerText (Text.strip s.toList) = true := by
        unfold isIntegerText
        simp only [sign]
        simpa [hne] using all
      unfold isWhole
      simp only [htext, Bool.or_true]

/-- The integer that is taken out of a value is the one that it denotes. -/
theorem wholeOf_of_denotes (h : Denotes v a) : wholeOf v = a := by
  rcases operand_of_denotes h with ⟨negative, c, hoperand, rfl⟩
  unfold wholeOf
  rw [hoperand, ← Int.natCast_zero, Decimal.truncated?_natCast]
  simp

theorem isZero_of_denotes (h : Denotes v a) (ha : a ≠ 0) : (operand v).isZero = false := by
  rcases operand_of_denotes h with ⟨negative, c, hoperand, rfl⟩
  have hc : c ≠ 0 := by
    intro hzero
    exact ha (hzero ▸ Decimal.signed_zero negative)
  rw [hoperand]
  unfold Decimal.isZero
  simpa using hc

end Denotes

section Rounds

variable {v w : Value} {a b : Int}

/-- An answer that is nearest is exact if the integer fits. -/
theorem roundsTo_of_nearest {n m : Int} {answer : Except FilterFailure Value} (h : Nearest n m)
    (hanswer : answer = if Decimal.digitCount m.natAbs ≤ longest then .ok (.integer m)
      else .error (.rejected (.arithmetic .overflow))) : RoundsTo n answer := by
  refine ⟨⟨m, h, hanswer⟩, ?_⟩
  unfold Fits
  rw [← h.eq_iff_dvd, hanswer]
  -- The nearest integer may have one digit more than fit.
  by_cases hlong : Decimal.digitCount m.natAbs ≤ longest
  · rw [if_pos hlong]
    constructor
    · intro hok
      cases hok
      exact ⟨rfl, hlong⟩
    · intro hfits
      rw [hfits.1]
  · rw [if_neg hlong]
    constructor
    · intro hok
      exact nomatch hok
    · intro hfits
      exact absurd (hfits.1 ▸ hfits.2) hlong

/-- What is settled is rounded, and is an integer again. -/
theorem roundsTo_settle (negative : Bool) (c : Nat) :
    RoundsTo (signed negative c)
      ((arithmetic (Decimal.settle negative c 0)).map (numberValue true)) := by
  -- What is settled is an integer again, so it is answered as one.
  rcases Decimal.settle_integer negative c with ⟨m, hnearest, hsettled⟩
  refine roundsTo_of_nearest hnearest ?_
  by_cases hlong : Decimal.digitCount m.natAbs ≤ longest
  · rw [if_pos hlong] at hsettled ⊢
    rcases hsettled with ⟨d, hd, hintegral, htruncated⟩
    rw [hd]
    unfold numberValue
    simp [arithmetic, Except.map, Except.mapError, hintegral, htruncated]
  · rw [if_neg hlong] at hsettled ⊢
    rw [hsettled]
    rfl

/-- Arithmetic that settles an integer, and whose operands are whole. -/
theorem roundsTo_result {operands : List Value} (hwhole : operands.all isWhole = true) {n : Int}
    {result : Except Decimal.Signal Decimal}
    (h : ∃ negative c, signed negative c = n ∧ result = Decimal.settle negative c 0) :
    RoundsTo n ((arithmetic result).map (resultOf operands)) := by
  rcases h with ⟨negative, c, rfl, hresult⟩
  have hresultOf : resultOf operands = numberValue true := by
    unfold resultOf
    rw [hwhole]
  rw [hresultOf, hresult]
  exact roundsTo_settle negative c

theorem all_isWhole (hv : Denotes v a) (hw : Denotes w b) : [v, w].all isWhole = true := by
  simp [isWhole_of_denotes hv, isWhole_of_denotes hw]

theorem roundsTo_magnitude (hv : Denotes v a) : RoundsTo a.natAbs (magnitude v) := by
  rcases operand_of_denotes hv with ⟨n, c, hv', rfl⟩
  refine roundsTo_result (by simp [isWhole_of_denotes hv]) ?_
  rw [hv', Decimal.natAbs_signed]
  exact ⟨false, c, rfl, rfl⟩

/-- A sum is the nearest integer that has few enough digits. -/
theorem roundsTo_plus (hv : Denotes v a) (hw : Denotes w b) : RoundsTo (a + b) (plus v w) := by
  rcases operand_of_denotes hv with ⟨n, c, hv', rfl⟩
  rcases operand_of_denotes hw with ⟨m, d, hw', rfl⟩
  refine roundsTo_result (all_isWhole hv hw) ?_
  rw [hv', hw']
  exact Decimal.add_integers n m c d

/-- A difference is the nearest such integer. -/
theorem roundsTo_minus (hv : Denotes v a) (hw : Denotes w b) : RoundsTo (a - b) (minus v w) := by
  rcases operand_of_denotes hv with ⟨n, c, hv', rfl⟩
  rcases operand_of_denotes hw with ⟨m, d, hw', rfl⟩
  refine roundsTo_result (all_isWhole hv hw) ?_
  rw [hv', hw']
  exact Decimal.sub_integers n m c d

/-- A product is the nearest such integer. -/
theorem roundsTo_times (hv : Denotes v a) (hw : Denotes w b) : RoundsTo (a * b) (times v w) := by
  rcases operand_of_denotes hv with ⟨n, c, hv', rfl⟩
  rcases operand_of_denotes hw with ⟨m, d, hw', rfl⟩
  refine roundsTo_result (all_isWhole hv hw) ?_
  rw [hv', hw']
  exact ⟨n != m, c * d, Decimal.signed_mul n m c d, rfl⟩

end Rounds

section Quotient

variable {v w : Value} {a b : Int}

/-- Quotients of integers are rounded down, and never to a number of digits. -/
theorem dividedBy_integers (hv : Denotes v a) (hw : Denotes w b) (hb : b ≠ 0) :
    dividedBy v w = .ok (.integer (a.fdiv b)) := by
  unfold dividedBy
  rw [isZero_of_denotes hw hb, isWhole_of_denotes hv, isWhole_of_denotes hw,
    wholeOf_of_denotes hv, wholeOf_of_denotes hw]
  rfl

/-- Remainders of integers are exact. -/
theorem modulo_integers (hv : Denotes v a) (hw : Denotes w b) (hb : b ≠ 0) :
    modulo v w = .ok (.integer (a.fmod b)) := by
  unfold modulo
  rw [isZero_of_denotes hw hb, isWhole_of_denotes hv, isWhole_of_denotes hw,
    wholeOf_of_denotes hv, wholeOf_of_denotes hw]
  rfl

/-- A remainder has the sign of the divisor and is smaller. -/
theorem fmod_between (a : Int) (hb : b ≠ 0) :
    (0 ≤ a.fmod b ∧ a.fmod b < b) ∨ (b < a.fmod b ∧ a.fmod b ≤ 0) := by
  rcases Int.lt_or_gt_of_ne hb with hneg | hpos
  · right
    -- With both signs turned it is a remainder by a positive number.
    have hturned := Int.neg_fmod_neg a b
    have hlower := Int.fmod_nonneg_of_pos (-a) (Int.neg_pos_of_neg hneg)
    have hupper := Int.fmod_lt_of_pos (-a) (Int.neg_pos_of_neg hneg)
    omega
  · left
    exact ⟨Int.fmod_nonneg_of_pos a hpos, Int.fmod_lt_of_pos a hpos⟩

end Quotient

/-- The arithmetic filters on integers, given as such or as texts. Sums, differences, products and
magnitudes are rounded to the digits that decimal arithmetic keeps, so they are what they should be
exactly if that fits. Quotients and remainders are exact at any size, and give the dividend back; to
put it together by the filters, the product and the sum must fit. -/
theorem arithmetic_on_integers {v w : Value} {a b : Int} (hv : Denotes v a) (hw : Denotes w b) :
    RoundsTo (a + b) (plus v w) ∧ RoundsTo (a - b) (minus v w) ∧ RoundsTo (a * b) (times v w) ∧
      RoundsTo a.natAbs (magnitude v) ∧
      (b ≠ 0 → ∃ q r, dividedBy v w = .ok (.integer q) ∧ modulo v w = .ok (.integer r) ∧
        q = a.fdiv b ∧ q * b + r = a ∧ ((0 ≤ r ∧ r < b) ∨ (b < r ∧ r ≤ 0)) ∧
        (Fits (q * b) → Fits a →
          ∃ p, times (.integer q) w = .ok p ∧ plus p (.integer r) = .ok (.integer a))) := by
  refine ⟨roundsTo_plus hv hw, roundsTo_minus hv hw, roundsTo_times hv hw, roundsTo_magnitude hv,
    ?_⟩
  intro hb
  -- Quotient and remainder make up the dividend.
  have hsplit : a.fdiv b * b + a.fmod b = a := by
    rw [Int.mul_comm]
    exact Int.mul_fdiv_add_fmod a b
  refine ⟨a.fdiv b, a.fmod b, dividedBy_integers hv hw hb, modulo_integers hv hw hb, rfl, hsplit,
    fmod_between a hb, ?_⟩
  intro hproduct hsum
  have htimes := (roundsTo_times (.integer (a.fdiv b)) hw).exact_iff.mpr hproduct
  have hplus := roundsTo_plus (.integer (a.fdiv b * b)) (.integer (a.fmod b))
  rw [hsplit] at hplus
  exact ⟨_, htimes, hplus.exact_iff.mpr hsum⟩

/-- A text of more digits than are kept, and a divisor. The quotient is exact, and since all that
its last digits lose are zeros, the dividend is put together again. -/
theorem arithmetic_on_integers_long :
    let v : Value := .string "-30000000000000000000000000010"
    Denotes v (-30000000000000000000000000010) ∧ Denotes (.integer 20) 20 ∧ (20 : Int) ≠ 0 ∧
      Fits (-1500000000000000000000000001 * 20) ∧ Fits (-30000000000000000000000000010) ∧
      dividedBy v (.integer 20) = .ok (.integer (-1500000000000000000000000001)) ∧
      modulo v (.integer 20) = .ok (.integer 10) ∧
      ∃ p, times (.integer (-1500000000000000000000000001)) (.integer 20) = .ok p ∧
        plus p (.integer 10) = .ok (.integer (-30000000000000000000000000010)) := by
  intro v
  have hv : Denotes v (-30000000000000000000000000010) :=
    .text rfl (List.all_eq_true.mp rfl) rfl (by decide)
  have hw : Denotes (.integer 20) 20 := .integer 20
  -- Zeros at the end make the product fit.
  have hproduct : Fits (-1500000000000000000000000001 * 20) := by decide
  have hdividend : Fits (-30000000000000000000000000010) := by decide
  have hall := arithmetic_on_integers hv hw
  rcases hall.2.2.2.2 (by decide) with ⟨q, r, hq, hr, hfloor, hsplit, _, hback⟩
  have hq' : q = -1500000000000000000000000001 := hfloor
  have hr' : r = 10 := by omega
  subst hq' hr'
  exact ⟨hv, hw, by decide, hproduct, hdividend, hq, hr, hback hproduct hdividend⟩

/-- A sum that is neither what it should be nor refused. -/
theorem plus_inexact :
    plus (.integer 10000000000000000000000000001) (.integer 0) =
        .ok (.integer 10000000000000000000000000000) ∧
      (10000000000000000000000000000 : Int) ≠ 10000000000000000000000000001 + 0 :=
  ⟨rfl, by decide⟩

end Filter

end Liquid
