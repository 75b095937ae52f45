import Liquid.Environment
import Liquid.Proofs.Decimal.Place
import Liquid.Proofs.Expr.Number
import Liquid.Proofs.Filter.Call
import Liquid.Proofs.Filter.Integer
import Liquid.Proofs.Value.Equality

/-!
# Numbers Written Out

A text that shows a number is as good as the number wherever a filter computes
with it. This is so although the text of a decimal is read with digits of its
own: `1E+3` is shown as `1000.0`. What a filter gives depends on three things
that are not lost with the digits: the number itself, whether it is whole by its
form, and its integer part.

So there are two steps. What is written out agrees with the number in these
three. And each filter takes operands that agree to results that are equal and of
one kind, or to one failure; for that its operations are known by the numbers
that they compute.

## Main definitions

* `Filter.WrittenOut`: Texts that show a number, between blanks.
* `Filter.Exchanged`: Operands that may have been written out.
* `Filter.Agree`: What filters see of their operands is the same.
* `Filter.OneNumber`: Equal numbers of one kind.

## Theorems

* `Filter.WrittenOut.agree`: What is written out agrees with the number.
* `Filter.numberFilters_matched`: Filters take operands that agree to results
  that match.
* `Filter.numberFilters_written`: Writing operands out does not change a result.
-/

namespace Liquid

namespace Filter

open Decimal (SameFinite toIntegral_floor toIntegral_ceiling)

/-- Whether the second value is a text that shows the number which the first one is, with blanks
around it or without. -/
inductive WrittenOut : Value → Value → Prop
  | intro {v : Value} {s : String} (before after : List Char) (numeric : v.isNumeric)
      (finite : v.numeral.isFinite) (bounds : v.numeral.InBounds)
      (blank_before : ∀ c ∈ before, Text.isBlank c = true)
      (blank_after : ∀ c ∈ after, Text.isBlank c = true)
      (text : s.toList = before ++ (v.display.toList ++ after)) : WrittenOut v (.string s)

/-- Whether the second operand is the first one, or that written out. -/
inductive Exchanged : Value → Value → Prop
  | same (v : Value) : Exchanged v v
  | written {v w : Value} (h : WrittenOut v w) : Exchanged v w

/-- Whether two operands agree in all that filters see of them. -/
structure Agree (v w : Value) : Prop where
  operand : SameFinite (operand v) (operand w)
  whole : isWhole v = isWhole w
  integer : v.integer? = w.integer?

/-- Whether two results are equal numbers of one kind. -/
inductive OneNumber : Value → Value → Prop
  | integer (n : Int) : OneNumber (.integer n) (.integer n)
  | decimal {a b : Decimal} (h : (Value.decimal a).equals (.decimal b)) :
      OneNumber (.decimal a) (.decimal b)

section Agree

variable {v w : Value}

theorem Agree.refl (v : Value) : Agree v v := by
  refine ⟨?_, rfl, rfl⟩
  unfold Filter.operand
  split
  · exact .intro rfl
  · exact .intro rfl

/-- Values that are read as one number agree, if both are whole by their form or neither is. -/
theorem agree_of_number {a b : Decimal} (hv : v.number? = some a) (hw : w.number? = some b)
    (h : SameFinite a b) (hwhole : isWhole v = isWhole w) : Agree v w := by
  refine ⟨?_, hwhole, ?_⟩
  · rcases h with ⟨h⟩
    unfold Filter.operand
    rw [hv, hw]
    exact .intro h
  · unfold Value.integer?
    rw [hv, hw]
    exact h.truncated?_eq

/-- A text that is read as a number is whole if it consists of digits. -/
theorem isWhole_of_number {s : String} {d : Decimal} (h : (Value.string s).number? = some d) :
    isWhole (.string s) = isIntegerText (Text.strip s.toList) := by
  change ((Value.string s).number?.isNone || _) = _
  rw [h]
  rfl

/-- What is shown of an integer is taken for an integer again. -/
theorem isIntegerText_toString (n : Int) : isIntegerText (toString n).toList = true := by
  have hdigits := Text.Written.toDigits n.natAbs
  have hsign :
      Decimal.readSign (toString n).toList = (decide (n < 0), Nat.toDigits 10 n.natAbs) := by
    rw [Value.toList_toString]
    cases hcs : Nat.toDigits 10 n.natAbs with
    | nil => exact absurd hcs hdigits.ne_nil
    | cons c cs => exact Decimal.readSign_digits _ (hdigits.isDigit c (hcs ▸ List.mem_cons_self)) cs
  unfold isIntegerText
  rw [hsign]
  simpa [hdigits.ne_nil] using hdigits.isDigit

/-- The text of a decimal has a point in it. -/
theorem isIntegerText_fixed (negative : Bool) (c : Nat) (e : Int) :
    isIntegerText (Decimal.fixed negative c e) = false := by
  rcases Decimal.positional_parts c e with ⟨whole, places, hparts⟩
  have hsign :
      Decimal.readSign (Decimal.fixed negative c e) = (negative, whole ++ '.' :: places) := by
    rw [Decimal.fixed, hparts.text]
    cases hcs : whole with
    | nil => exact absurd hcs hparts.written_whole.ne_nil
    | cons d ds =>
        exact Decimal.readSign_digits negative
          (hparts.written_whole.isDigit d (hcs ▸ List.mem_cons_self)) _
  -- The text has a point in it, which is no digit.
  have hpoint : Text.isDigit '.' = false := by decide
  unfold isIntegerText
  rw [hsign]
  simp [hpoint]

/-- A number that is written out agrees with the text. -/
theorem WrittenOut.agree (h : WrittenOut v w) : Agree v w := by
  rcases h with @⟨s, before, after, numeric, finite, bounds, hbefore, hafter, text⟩
  have hstrip (hblank : ∀ c ∈ v.display.toList, Text.isBlank c = false) :
      Text.strip s.toList = v.display.toList := by
    rw [text]
    exact (Text.strip_append_blank before after _ hbefore hafter).trans (Text.strip_eq_self hblank)
  cases v with
  | integer n =>
      have hread := hstrip (Value.shown_integer n).isBlank
      have hnumber : (Value.string s).number? = some (.ofInt n) := by
        rw [Value.number?, hread]
        exact Value.read?_toString bounds
      refine agree_of_number rfl hnumber (.intro rfl) ?_
      rw [isWhole_of_number hnumber, hread, Value.display, isIntegerText_toString]
      rfl
  | decimal d =>
      rcases d with ⟨n, c, e⟩ | n | _
      · have hshown := Value.shown_decimal n c e
        have htext : (Value.decimal (.finite n c e)).display.toList = Decimal.fixed n c e :=
          String.toList_ofList
        -- The digits that are read are not those of the decimal, but the number is.
        rcases Decimal.read?_fixed bounds with ⟨d, f, hfixed, hsame⟩
        have hread := hstrip (htext ▸ hshown.isBlank)
        rw [htext] at hread
        have hnumber : (Value.string s).number? = some (.finite n d f) := by
          rw [Value.number?, hread, hfixed]
        refine agree_of_number rfl hnumber (.intro hsame.2.symm) ?_
        rw [isWhole_of_number hnumber, hread, isIntegerText_fixed]
        rfl
      · cases finite
      · cases finite
  | _ => cases numeric

/-- A number and its text have the same operand, and are both whole or not. -/
theorem Exchanged.agree (h : Exchanged v w) : Agree v w := by
  cases h with
  | same => exact .refl v
  | written h => exact h.agree

end Agree

section Results

variable {v v' w w' : Value} {a b : Decimal}

theorem oneNumber_of_sameFinite (h : SameFinite a b) : OneNumber (.decimal a) (.decimal b) := by
  refine .decimal ((Value.equals_iff_compare _ _).mpr ?_)
  rw [Value.compare_number rfl rfl]
  exact (Decimal.compare_eq_eq_iff _ _).mpr h.sameNumber

/-- The same number is answered, as an integer or as a decimal. -/
theorem numberValue_oneNumber (whole : Bool) (h : SameFinite a b) :
    OneNumber (numberValue whole a) (numberValue whole b) := by
  unfold numberValue
  rw [h.isIntegral_eq, h.truncated?_eq]
  split
  · exact .integer _
  · exact oneNumber_of_sameFinite h

/-- Whether the answer is whole depends on the operands alone. -/
theorem resultOf_oneNumber {operands operands' : List Value}
    (hwhole : operands.all isWhole = operands'.all isWhole) (h : SameFinite a b) :
    OneNumber (resultOf operands a) (resultOf operands' b) := by
  unfold resultOf
  rw [hwhole]
  exact numberValue_oneNumber _ h

theorem Agree.all_isWhole (hv : Agree v v') (hw : Agree w w') :
    [v, w].all isWhole = [v', w'].all isWhole := by
  simp [hv.whole, hw.whole]

/-- Arithmetic that matches gives results that match. -/
theorem arithmetic_matched {result result' : Except Decimal.Signal Decimal} {f g : Decimal → Value}
    (h : Matched SameFinite result result')
    (hresult : ∀ a b, SameFinite a b → OneNumber (f a) (g b)) :
    Matched OneNumber (arithmetic result >>= fun a => .ok (f a))
      (arithmetic result' >>= fun b => .ok (g b)) :=
  (h.mapError _).bind fun a b hab => .ok (hresult a b hab)

theorem wholeOf_eq (h : Agree v v') : wholeOf v = wholeOf v' := by
  unfold wholeOf
  rw [h.operand.truncated?_eq]

end Results

section Filters

variable {v v' w w' : Value}

theorem magnitude_matched (hv : Agree v v') : Matched OneNumber (magnitude v) (magnitude v') :=
  arithmetic_matched hv.operand.abs fun _ _ => resultOf_oneNumber (by simp [hv.whole])

theorem plus_matched (hv : Agree v v') (hw : Agree w w') :
    Matched OneNumber (plus v w) (plus v' w') :=
  arithmetic_matched (hv.operand.add hw.operand) fun _ _ => resultOf_oneNumber (hv.all_isWhole hw)

theorem minus_matched (hv : Agree v v') (hw : Agree w w') :
    Matched OneNumber (minus v w) (minus v' w') :=
  arithmetic_matched (hv.operand.sub hw.operand) fun _ _ => resultOf_oneNumber (hv.all_isWhole hw)

theorem times_matched (hv : Agree v v') (hw : Agree w w') :
    Matched OneNumber (times v w) (times v' w') :=
  arithmetic_matched (hv.operand.mul hw.operand) fun _ _ => resultOf_oneNumber (hv.all_isWhole hw)

theorem dividedBy_matched (hv : Agree v v') (hw : Agree w w') :
    Matched OneNumber (dividedBy v w) (dividedBy v' w') := by
  unfold dividedBy
  rw [← hw.operand.isZero_eq, ← hv.whole, ← hw.whole, ← wholeOf_eq hv, ← wholeOf_eq hw]
  split_ifs with hzero
  · exact .error _
  · exact .ok (.integer _)
  · exact arithmetic_matched (hv.operand.div hw.operand (hw.operand.toRat_ne_zero hzero))
      fun _ _ => oneNumber_of_sameFinite

/-- The quotient, its floor, the product and the difference match one after the other. -/
theorem modulo_matched (hv : Agree v v') (hw : Agree w w') :
    Matched OneNumber (modulo v w) (modulo v' w') := by
  unfold modulo
  rw [← hw.operand.isZero_eq, ← hv.whole, ← hw.whole, ← wholeOf_eq hv, ← wholeOf_eq hw]
  split_ifs with hzero
  · exact .error _
  · exact .ok (.integer _)
  · have hquotient := hv.operand.div hw.operand (hw.operand.toRat_ne_zero hzero)
    refine (hquotient.bind fun a b hquotient => ?_).mapError _
    refine (hw.operand.mul (hquotient.toIntegral toIntegral_floor)).bind fun a b hproduct => ?_
    exact (hv.operand.sub hproduct).bind fun a b h => .ok (oneNumber_of_sameFinite h)

/-- The places are told by an integer, which is not exchanged. -/
theorem round_matched (hv : Agree v v') {digits digits' : Option Value}
    (hdigits : digits.bind Value.integer? = digits'.bind Value.integer?) :
    Matched OneNumber (round v digits) (round v' digits') := by
  unfold round
  rw [hdigits]
  refine Matched.mapError ?_ _
  -- Rounding to an integer, or to some places.
  split_ifs with hplaces
  · refine (hv.operand.quantize (by decide) le_rfl).bind fun a b h => ?_
    rw [h.truncated?_eq]
    exact .ok (.integer _)
  · -- How many places there are is one integer for both, and with it the unit.
    unfold Decimal.placeUnit
    split_ifs
    · exact .error _
    · refine (hv.operand.quantize (le_max_left ..) ?_).bind fun a b h => ?_
      · exact max_le (by decide) (by omega)
      · exact .ok (oneNumber_of_sameFinite h)

theorem toward_matched {mode : Rounding}
    (h : SameFinite ((operand v).toIntegral mode) ((operand v').toIntegral mode)) :
    Matched OneNumber (toward mode v) (toward mode v') := by
  unfold toward
  rw [h.truncated?_eq]
  exact .ok (.integer _)

theorem atLeast_matched (hv : Agree v v') (hw : Agree w w') :
    Matched OneNumber (atLeast v w) (atLeast v' w') := by
  unfold atLeast
  rw [hv.operand.compare_eq hw.operand]
  refine .ok ?_
  split_ifs
  · exact resultOf_oneNumber (by simp [hv.whole]) hv.operand
  · exact resultOf_oneNumber (by simp [hw.whole]) hw.operand

theorem atMost_matched (hv : Agree v v') (hw : Agree w w') :
    Matched OneNumber (atMost v w) (atMost v' w') := by
  unfold atMost
  rw [hv.operand.compare_eq hw.operand]
  refine .ok ?_
  split_ifs
  · exact resultOf_oneNumber (by simp [hv.whole]) hv.operand
  · exact resultOf_oneNumber (by simp [hw.whole]) hw.operand

end Filters

section Calls

variable {v v' : Value} {args args' : List Value} (options : Table Value)

theorem ofUnary_matched (name : String) {f : Value → Except FilterFailure Value}
    (h : Matched OneNumber (f v) (f v')) :
    Matched OneNumber ((ofUnary name f).apply v args options).result
      ((ofUnary name f).apply v' args' options).result := by
  rw [ofUnary_apply, ofUnary_apply]
  exact h

theorem ofBinary_matched (name : String) {f : Value → Value → Except FilterFailure Value}
    (hargs : List.Forall₂ Agree args args')
    (h : ∀ {w w'}, Agree w w' → Matched OneNumber (f v w) (f v' w')) :
    Matched OneNumber ((ofBinary name f).apply v args options).result
      ((ofBinary name f).apply v' args' options).result := by
  rw [ofBinary_apply, ofBinary_apply]
  cases hargs with
  | nil => exact .error _
  | cons hw _ => exact h hw

theorem ofOptional_round_matched (name : String) (hargs : List.Forall₂ Agree args args')
    (hv : Agree v v') :
    Matched OneNumber ((ofOptional name round).apply v args options).result
      ((ofOptional name round).apply v' args' options).result := by
  rw [ofOptional_apply, ofOptional_apply]
  refine round_matched hv ?_
  cases hargs with
  | nil => rfl
  | cons hw _ => exact hw.integer

/-- Filters take operands that agree to results that match. -/
theorem numberFilters_matched {f : Filter} (hf : f ∈ numberFilters) (hv : Agree v v')
    (hargs : List.Forall₂ Agree args args') :
    Matched OneNumber (f.apply v args options).result (f.apply v' args' options).result := by
  simp only [numberFilters, List.mem_cons, List.not_mem_nil, or_false] at hf
  -- A filter after the other, in the order of the list.
  rcases hf with rfl | rfl | rfl | rfl | rfl | rfl | rfl | rfl | rfl | rfl | rfl
  · exact ofUnary_matched options _ (magnitude_matched hv)
  · exact ofBinary_matched options _ hargs (plus_matched hv)
  · exact ofBinary_matched options _ hargs (minus_matched hv)
  · exact ofBinary_matched options _ hargs (times_matched hv)
  · exact ofBinary_matched options _ hargs (dividedBy_matched hv)
  · exact ofBinary_matched options _ hargs (modulo_matched hv)
  · exact ofOptional_round_matched options _ hargs hv
  · exact ofUnary_matched options _ (toward_matched (hv.operand.toIntegral toIntegral_ceiling))
  · exact ofUnary_matched options _ (toward_matched (hv.operand.toIntegral toIntegral_floor))
  · exact ofBinary_matched options _ hargs (atLeast_matched hv)
  · exact ofBinary_matched options _ hargs (atMost_matched hv)

theorem get?_of_mem_numberFilters (settings : Settings) {f : Filter} (hf : f ∈ numberFilters) :
    (Environment.create settings {}).1.filters.get? f.name = some f := by
  simp only [numberFilters, List.mem_cons, List.not_mem_nil, or_false] at hf
  rcases hf with rfl | rfl | rfl | rfl | rfl | rfl | rfl | rfl | rfl | rfl | rfl <;> rfl

/-- The filters for numbers give equal results of one kind, or fail alike, if any of their operands
are replaced by texts that show them. -/
theorem numberFilters_written (settings : Settings) {f : Filter} (hf : f ∈ numberFilters)
    (hv : Exchanged v v') (hargs : List.Forall₂ Exchanged args args') :
    (Environment.create settings {}).1.filters.get? f.name = some f ∧
      Matched OneNumber (f.apply v args options).result (f.apply v' args' options).result :=
  ⟨get?_of_mem_numberFilters settings hf, numberFilters_matched options hf hv.agree
    (hargs.imp fun _ _ => Exchanged.agree)⟩

/-- A decimal with a positive exponent, the text of which has digits of its own, and an integer in a
text with blanks. The remainders are equal and have other digits. -/
theorem numberFilters_written_remainder :
    let v : Value := .decimal (.finite false 1 3)
    let w : Value := .string "\t1000.0"
    let f := ofBinary "modulo" modulo
    Exchanged v w ∧ Exchanged (.integer (-7)) (.string " -7\n ") ∧
      Matched OneNumber (f.apply v [.integer (-7)] []).result
        (f.apply w [.string " -7\n "] []).result ∧
      (f.apply v [.integer (-7)] []).result = .ok (.decimal (.finite true 1 0)) ∧
      (f.apply w [.string " -7\n "] []).result = .ok (.decimal (.finite true 10 (-1))) := by
  intro v w f
  have hf : f ∈ numberFilters := by simp [numberFilters, f]
  have hv : Exchanged v w :=
    .written (.intro ['\t'] [] rfl rfl (by decide) (List.all_eq_true.mp rfl)
      (List.all_eq_true.mp rfl) (by decide))
  have hw : Exchanged (.integer (-7)) (.string " -7\n ") :=
    .written (.intro [' '] ['\n', ' '] rfl rfl (by decide) (List.all_eq_true.mp rfl)
      (List.all_eq_true.mp rfl) (by decide))
  exact ⟨hv, hw, (numberFilters_written [] {} hf hv (.cons hw .nil)).2, rfl, rfl⟩

end Calls

end Filter

end Liquid
