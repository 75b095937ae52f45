import Liquid.Environment
import Liquid.Proofs.Decimal.Place
import Liquid.Proofs.Filter.Call
import Liquid.Proofs.Filter.Remainder

/-!
# Rounding Filters

What the filters that round make of any value. One that is no finite number and
writes none counts as zero, so each value counts as some number. The floor and
the ceiling are exact, however long they are. Rounding to the nearest integer or
to decimal places is exact too, a half away from zero, but is refused where more
digits than are kept would be left.

Places are told by a unit, a one with that many digits behind the point. There
is no unit smaller than the smallest number that arithmetic knows: for places
beyond its last digit it is a zero, written down to that digit, and rounding
stops there. Only far beyond it are places refused. So a number that is smaller
than any unit is lost although there is room for it.

## Main definitions

* `Filter.CountsAs`: The number that a value counts as.
* `Filter.RoundsAt`: Answers that are the nearest multiple of a power of ten.
* `Filter.Rounds`: What rounding to places gives.

## Theorems

* `Filter.toward_floor`, `Filter.toward_ceiling`: The floor and the ceiling of a
  value.
* `Filter.round_rounds`: What rounding a value gives.
* `Filter.rounding_filters`: All three filters, with any arguments.
-/

namespace Liquid

namespace Filter

open Decimal (NearestAway digitCount precision lowest largest)

/-- The number that a value counts as: the one that it is or writes, or zero if there is none. -/
def CountsAs (v : Value) (a : ℚ) : Prop :=
  Counts v a ∨ ((¬∃ b, Counts v b) ∧ a = 0)

/-- The refusal of a result with too many digits, or of too many places. -/
def tooPrecise : FilterFailure :=
  .rejected (.arithmetic .invalidOperation)

/-- Whether an answer is a number rounded at a place: the nearest multiple of the power of ten, of
two equally near ones that farther from zero, unless it has more digits than are kept. -/
def RoundsAt (place : Int) (a : ℚ) (answer : Except FilterFailure Value) : Prop :=
  ∃ k : Int, NearestAway place a k ∧
    if digitCount k.natAbs ≤ precision
    then ∃ d, answer = .ok (.decimal d) ∧ Counts (.decimal d) (k * (10 : ℚ) ^ place)
    else answer = .error tooPrecise

/-- What rounding a number to so many places gives. -/
structure Rounds (a : ℚ) (places : Int) (answer : Except FilterFailure Value) : Prop where
  whole : places ≤ 0 → ∃ k : Int, NearestAway 0 a k ∧ answer =
    if digitCount k.natAbs ≤ precision then .ok (.integer k) else .error tooPrecise
  fraction : 0 < places → places ≤ -lowest → RoundsAt (-places) a answer
  /-- There is no place behind the lowest one, and a number is rounded at that instead. -/
  beyond : -lowest < places → places ≤ 2 * (largest + precision) → RoundsAt lowest a answer
  refused : 2 * (largest + precision) < places → answer = .error tooPrecise

/-- The places that the arguments of a call ask for. -/
def placesOf (args : List Value) : Int :=
  (args.head?.bind Value.integer?).getD 0

section Rounding

variable {v : Value} {a : ℚ}

/-- What a value counts as is always a finite number. -/
theorem operand_countsAs (v : Value) :
    ∃ n c e, operand v = .finite n c e ∧ CountsAs v (Decimal.finite n c e).toRat := by
  unfold operand
  rcases hnumber : v.number? with _ | ⟨n, c, e⟩ | n | _
  case some.finite => exact ⟨n, c, e, rfl, .inl ⟨n, c, e, hnumber, rfl⟩⟩
  all_goals
    refine ⟨false, 0, 0, rfl, .inr ⟨?_, Decimal.toRat_zero false 0⟩⟩
    rintro ⟨b, n, c, e, hfinite, -⟩
    rw [hnumber] at hfinite
    cases hfinite

variable {n : Bool} {c : Nat} {e : Int}

/-- What is rounded to an integer is answered as one. -/
theorem toward_of_integer {mode : Rounding} {i : Int} (hv : operand v = .finite n c e)
    (h : ∃ m k f, (Decimal.finite n c e).toIntegral mode = .finite m k f ∧
      (Decimal.finite m k f).toRat = i) : toward mode v = .ok (.integer i) := by
  rcases h with ⟨m, k, f, hintegral, heq⟩
  unfold toward
  rw [hv, hintegral, Decimal.truncated?_finite, heq, Decimal.towardZero_intCast]
  rfl

theorem toward_floor (hv : operand v = .finite n c e) :
    toward .floor v = .ok (.integer ⌊(Decimal.finite n c e).toRat⌋) :=
  toward_of_integer hv (Decimal.toIntegral_floor n c e)

theorem toward_ceiling (hv : operand v = .finite n c e) :
    toward .ceiling v = .ok (.integer ⌈(Decimal.finite n c e).toRat⌉) :=
  toward_of_integer hv (Decimal.toIntegral_ceiling n c e)

/-- Rounding at the point gives an integer. -/
theorem round_whole (hv : operand v = .finite n c e) {digits : Option Value}
    (hplaces : (digits.bind Value.integer?).getD 0 ≤ 0) :
    ∃ k : Int, NearestAway 0 (Decimal.finite n c e).toRat k ∧ round v digits =
      if digitCount k.natAbs ≤ precision then .ok (.integer k) else .error tooPrecise := by
  rcases Decimal.quantize_isQuantized n c e (by decide : lowest ≤ 0) le_rfl with ⟨k, hnear, hresult⟩
  refine ⟨k, hnear, ?_⟩
  unfold round
  rw [hv]
  simp only [if_pos hplaces]
  split_ifs at hresult ⊢
  · -- At the point the result is an integer, which is its own integer part.
    rcases hresult with ⟨m, d, hquantize, heq⟩
    rw [zpow_zero, mul_one] at heq
    rw [hquantize]
    change Except.ok (Value.integer ((Decimal.finite m d 0).truncated?.getD 0)) = _
    rw [Decimal.truncated?_finite, heq, Decimal.towardZero_intCast]
    rfl
  -- Where the digits do not fit, quantizing itself refuses them.
  · rw [hresult]
    rfl

/-- Rounding behind the point gives a decimal, at the place that there is a unit for. -/
theorem round_fraction (hv : operand v = .finite n c e) {digits : Option Value} {place : Int}
    (hplaces : 0 < (digits.bind Value.integer?).getD 0)
    (hunit : Decimal.placeUnit ((digits.bind Value.integer?).getD 0).toNat = .ok place)
    (hlow : lowest ≤ place) (hhigh : place ≤ 0) :
    RoundsAt place (Decimal.finite n c e).toRat (round v digits) := by
  rcases Decimal.quantize_isQuantized n c e hlow hhigh with ⟨k, hnear, hresult⟩
  -- There is a place to round to, so the result is a decimal.
  have hround : round v digits =
      arithmetic ((Decimal.finite n c e).quantize .halfUp place >>= fun d => .ok (.decimal d)) := by
    unfold round
    rw [hv]
    simp only [if_neg (not_le.mpr hplaces), hunit]
    rfl
  refine ⟨k, hnear, ?_⟩
  rw [hround]
  split_ifs at hresult ⊢
  · rcases hresult with ⟨m, d, hquantize, heq⟩
    rw [hquantize]
    exact ⟨_, rfl, m, d, place, rfl, heq⟩
  · rw [hresult]
    rfl

/-- Rounding is told by the number of places: none, few, more than there are, or too many. -/
theorem round_rounds (hv : operand v = .finite n c e) (digits : Option Value) :
    Rounds (Decimal.finite n c e).toRat ((digits.bind Value.integer?).getD 0) (round v digits) := by
  generalize hp : (digits.bind Value.integer?).getD 0 = places
  -- Up to this many places there is a unit to round to.
  have hunit {p : Nat} (hp : p ≤ 2 * (largest + precision)) :
      Decimal.placeUnit p = .ok (max lowest (-(p : Int))) := if_neg (by omega)
  refine ⟨?_, ?_, ?_, ?_⟩
  · intro hwhole
    exact round_whole hv (hp ▸ hwhole)
  · intro hpos hlow
    have hfew : (places.toNat : Int) ≤ 2 * (largest + precision) := by
      unfold lowest at hlow
      unfold largest precision at *
      omega
    refine round_fraction hv (hp ▸ hpos) ?_ (by omega) (by omega)
    rw [hp, hunit hfew]
    congr 1
    omega
  · -- The unit that is asked for is a zero at the lowest place.
    intro hbeyond hfew
    have hpos : 0 < places := lt_trans (by decide) hbeyond
    refine round_fraction hv (hp ▸ hpos) ?_ le_rfl (by decide)
    rw [hp, hunit (by omega)]
    congr 1
    omega
  -- Beyond it there is none, and the filter refuses.
  · intro hfar
    have hpos : 0 < places := lt_trans (by decide) hfar
    have hrefused : Decimal.placeUnit places.toNat = .error .invalidOperation := if_pos (by omega)
    unfold round
    simp only [hp, if_neg (not_le.mpr hpos), hrefused]
    rfl

/-- The three filters give the floor, the ceiling and the nearest multiple of what any value counts
as, or refuse to where there is no room for it. -/
theorem rounding_filters (settings : Settings) (v : Value) :
    ∃ a, CountsAs v a ∧
      (∃ floor ceil round, (Environment.create settings {}).1.filters.get? "floor" = some floor ∧
        (Environment.create settings {}).1.filters.get? "ceil" = some ceil ∧
        (Environment.create settings {}).1.filters.get? "round" = some round ∧
        ∀ args options,
          (∃ n : Int, floor.apply v args options = .ok (.integer n) ∧ n ≤ a ∧ a < n + 1) ∧
          (∃ n : Int, ceil.apply v args options = .ok (.integer n) ∧ (n - 1 : ℚ) < a ∧ a ≤ n) ∧
          Rounds a (placesOf args) (round.apply v args options).result) := by
  -- Every value counts as some number.
  rcases operand_countsAs v with ⟨n, c, e, hv, hcounts⟩
  refine ⟨_, hcounts, .ofUnary "floor" (toward .floor), .ofUnary "ceil" (toward .ceiling),
    .ofOptional "round" round, rfl, rfl, rfl, fun args options => ⟨?_, ?_, ?_⟩⟩
  · rw [ofUnary_apply, toward_floor hv]
    exact ⟨_, rfl, Int.floor_le _, Int.lt_floor_add_one _⟩
  · rw [ofUnary_apply, toward_ceiling hv]
    exact ⟨_, rfl, sub_lt_iff_lt_add.mpr (Int.ceil_lt_add_one _), Int.le_ceil _⟩
  · rw [ofOptional_apply]
    exact round_rounds hv args.head?

/-- A number with its last digit one behind the lowest place. It is a multiple of the unit that is
asked for, and becomes zero. -/
theorem round_beyond_unit :
    let v : Value := .decimal (.finite false 1 (-1000027))
    let a : ℚ := (1 : Int) * (10 : ℚ) ^ (-1000027 : Int)
    Counts v a ∧ NearestAway (-1000027) a 1 ∧
      round v (some (.integer 1000027)) = .ok (.decimal (.finite false 0 (-1000026))) ∧
      Counts (.decimal (.finite false 0 (-1000026))) 0 ∧
      ¬∃ k : Int, NearestAway (-1000027) a k ∧ 0 = k * (10 : ℚ) ^ (-1000027 : Int) := by
  intro v a
  -- The number is a multiple of the place that is asked for, so it should be kept.
  have hself : NearestAway (-1000027) a 1 := Decimal.nearestBy_self (-1000027) 1
  refine ⟨⟨false, 1, -1000027, rfl, Decimal.toRat_eq_signed ..⟩, hself, rfl,
    ⟨false, 0, -1000026, rfl, Decimal.toRat_zero ..⟩, ?_⟩
  rintro ⟨k, hk, hzero⟩
  have hten : (0 : ℚ) < (10 : ℚ) ^ (-1000027 : Int) := zpow_pos (by decide) _
  rw [hk.unique hself, Int.cast_one, one_mul] at hzero
  exact hten.ne hzero

end Rounding

end Filter

end Liquid
