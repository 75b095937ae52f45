import Liquid.Proofs.Decimal.Rounded
import Liquid.Proofs.Except
import Mathlib.Data.Int.Log

/-!
# Correct Rounding

What arithmetic to twenty-eight digits gives for any two finite numbers: the
sum, difference, product, quotient or magnitude, rounded once. The place that is
rounded at is told by the number alone, that is by its leading digit, and not by
the digits that it was computed from. So whatever represents the operands, the
result is one number, or too large in either case.

An exact coefficient is settled by rounding it. Where there is none, an integer
stands for the number. For a quotient that never ends it is one digit more than
are kept, with a last digit that no rounding mistakes for nothing. For a sum of
numbers of very different size it is the larger number, with a one behind it for
all that the smaller one adds or takes away.

## Main definitions

* `Decimal.placeOf`: The place that a number is rounded at.
* `Decimal.IsRounded`: What a number is rounded to.
* `Decimal.SameFinite`: Finite numbers that are one number.

## Theorems

* `Decimal.settle_isRounded`, `Decimal.StandsFor.isRounded`: Settling rounds.
* `Decimal.add_isRounded`, `Decimal.sub_isRounded`, `Decimal.mul_isRounded`,
  `Decimal.div_isRounded`, `Decimal.abs_isRounded`: All operations round once.
* `Decimal.IsRounded.matched`: A number is rounded to one number.
-/

namespace Liquid

namespace Decimal

/-- The place of the last digit that is kept of a number. -/
def placeOf (x : ℚ) : Int :=
  max lowest (Int.log 10 |x| - (precision - 1))

/-- Whether a result is what a number is rounded to: the nearest multiple at the last place that is
kept, of two equally near ones the even one, unless that is too large. -/
def IsRounded (x : ℚ) (result : Except Signal Decimal) : Prop :=
  ∃ k : Int, NearestEven (placeOf x) x k ∧
    if |(k : ℚ) * (10 : ℚ) ^ placeOf x| < (10 : ℚ) ^ (largest + 1)
    then ∃ n c e, result = .ok (finite n c e) ∧ (finite n c e).toRat = k * (10 : ℚ) ^ placeOf x
    else result = .error .overflow

section Place

variable {x : ℚ} {place k : Int}

/-- The place of a number is told by its leading digit. -/
theorem placeOf_eq {p : Int} (hle : (10 : ℚ) ^ p ≤ |x|) (hlt : |x| < (10 : ℚ) ^ (p + 1)) :
    placeOf x = max lowest (p - (precision - 1)) := by
  have hpos : 0 < |x| := (zpow_pos (by norm_num) p).trans_le hle
  have hlower : p ≤ Int.log 10 |x| :=
    (Int.zpow_le_iff_le_log (by norm_num) hpos).mp (by exact_mod_cast hle)
  have hupper : Int.log 10 |x| < p + 1 :=
    (Int.lt_zpow_iff_log_lt (by norm_num) hpos).mp (by exact_mod_cast hlt)
  have hlog : Int.log 10 |x| = p := by omega
  rw [placeOf, hlog]

theorem placeOf_finite (negative : Bool) {c : Nat} (hc : c ≠ 0) (e : Int) :
    placeOf (finite negative c e).toRat = max lowest (leading c e - (precision - 1)) := by
  refine placeOf_eq ?_ ?_
  · rw [abs_toRat_finite]
    exact ten_zpow_leading_le hc e
  · rw [abs_toRat_finite]
    exact lt_ten_zpow_leading c e

/-- Only a number with its leading digit behind the lowest place is rounded to zero. -/
theorem placeOf_le_largest (hx : x ≠ 0) (h : NearestEven (placeOf x) x 0) :
    placeOf x ≤ largest := by
  have hpos : 0 < |x| := abs_pos.mpr hx
  have hclose := h.close
  have hlog : (10 : ℚ) ^ Int.log 10 |x| ≤ |x| := by
    exact_mod_cast Int.zpow_log_le_self (by norm_num : 1 < 10) hpos
  rw [Int.cast_zero, zero_mul, zero_sub, abs_neg] at hclose
  -- The leading digit stands behind the last place that is kept, so this is the lowest place.
  have hlt : (10 : ℚ) ^ Int.log 10 |x| < (10 : ℚ) ^ placeOf x := by linarith
  have hbehind := (zpow_lt_zpow_iff_right₀ (by norm_num : (1 : ℚ) < 10)).mp hlt
  unfold placeOf at hbehind ⊢
  unfold lowest largest precision at *
  omega

end Place

section Settle

variable {negative : Bool} {k : Nat} {place j : Int} {x : ℚ}

/-- What is nearest is the result unless it is too large, and the digits tell when it is. -/
theorem isRounded_of_nearest (hnear : NearestEven (placeOf x) x j)
    (hnumber : (finite negative k place).toRat = j * (10 : ℚ) ^ placeOf x)
    (hzero : k = 0 → place ≤ largest) :
    IsRounded x (if largest < leading k place then .error .overflow
      else .ok (finite negative k place)) := by
  refine ⟨j, hnear, ?_⟩
  rw [← hnumber, abs_toRat_finite]
  -- The leading place of a zero says nothing about the number.
  by_cases hk : k = 0
  · have hleading : ¬largest < leading k place := by
      have hcount : digitCount 0 = 1 := rfl
      have hplace := hzero hk
      rw [hk, leading, hcount]
      omega
    rw [if_neg hleading, hk, Nat.cast_zero, zero_mul, if_pos (zpow_pos (by norm_num) _), ← hk]
    exact ⟨_, _, _, rfl, rfl⟩
  · by_cases hlarge : largest < leading k place
    · have hreach : (10 : ℚ) ^ (largest + 1) ≤ (k : ℚ) * (10 : ℚ) ^ place :=
        (zpow_le_zpow_right₀ (by norm_num) hlarge).trans (ten_zpow_leading_le hk place)
      rw [if_pos hlarge, if_neg (not_lt.mpr hreach)]
    · have hbelow : (k : ℚ) * (10 : ℚ) ^ place < (10 : ℚ) ^ (largest + 1) :=
        (lt_ten_zpow_leading k place).trans_le (zpow_le_zpow_right₀ (by norm_num) (by omega))
      rw [if_neg hlarge, if_pos hbelow]
      exact ⟨_, _, _, rfl, rfl⟩

/-- A number is settled by rounding it. -/
theorem settle_isRounded (negative : Bool) (c : Nat) (e : Int) :
    IsRounded (finite negative c e).toRat (settle negative c e) := by
  by_cases hc : c = 0
  · subst hc
    have hself : NearestEven (placeOf 0) _ 0 := nearestBy_self (placeOf 0) 0
    rw [Int.cast_zero, zero_mul] at hself
    rw [toRat_zero]
    refine ⟨0, hself, ?_⟩
    rw [Int.cast_zero, zero_mul, abs_zero, if_pos (zpow_pos (by norm_num) _)]
    exact ⟨_, _, _, settle_zero negative e, toRat_zero ..⟩
  have hplace := placeOf_finite negative hc e
  have hlast : lastPlace c e = max e (placeOf (finite negative c e).toRat) := by
    rw [hplace, lastPlace, max_left_comm]
  rw [settle_eq_of_ne_zero negative hc e]
  -- Either the number has digits below the place, or it ends at it or before.
  by_cases he : e ≤ placeOf (finite negative c e).toRat
  · have hnear := nearestEven_shifted negative c he
    rw [max_eq_right he] at hlast
    rw [hlast]
    refine isRounded_of_nearest hnear (toRat_eq_signed ..) fun hzero => ?_
    rw [hzero, signed_zero] at hnear
    exact placeOf_le_largest (toRat_finite_ne_zero negative hc e) hnear
  · -- All of its digits are kept, and zeros behind them.
    have hlow : placeOf (finite negative c e).toRat ≤ e := by omega
    have hself : Rounding.halfEven.shifted negative c (e - e).toNat = c := by
      have hdvd : 10 ^ (e - e).toNat ∣ c := by simp
      simpa using shifted_of_dvd negative hdvd
    have hnumber := toRat_raised negative c hlow
    rw [max_eq_left hlow] at hlast
    rw [hlast, hself]
    refine isRounded_of_nearest ?_ hnumber fun hzero => absurd hzero hc
    generalize placeOf (finite negative c e).toRat = place at hnumber ⊢
    rw [hnumber]
    exact nearestBy_self place _

/-- An integer that is settled in the stead of a number is rounded to what the number is. -/
theorem StandsFor.isRounded {q : Nat} {low : Int} (h : StandsFor q (x / (10 : ℚ) ^ low))
    (hdigits : 10 ^ precision ≤ q) (negative : Bool) :
    IsRounded ((if negative then -1 else 1) * x) (settle negative q low) := by
  have hten : 10 ≤ q := le_trans (by decide) hdigits
  have hcount : precision + 1 ≤ digitCount q := by
    by_contra hfew
    have hlt := (digitCount_le_iff (by decide)).mp (by omega : digitCount q ≤ precision)
    omega
  have hbetween := h.between_place hten
  have hpos : 0 < x := (zpow_pos (by norm_num) _).trans_le hbetween.1
  have habs : |(if negative then -1 else 1) * x| = x := by
    cases negative with
    | false => rw [if_neg Bool.false_ne_true, one_mul, abs_of_pos hpos]
    | true => rw [if_pos rfl, neg_one_mul, abs_neg, abs_of_pos hpos]
  have hplace : placeOf ((if negative then -1 else 1) * x) = lastPlace q low := by
    rw [← habs] at hbetween
    rw [placeOf_eq hbetween.1 hbetween.2]
    unfold lastPlace leading
    omega
  -- At least one digit is lost, so there is a nearest multiple to be chosen.
  have hlow : low < lastPlace q low := by
    unfold lastPlace leading
    omega
  have hnear := (h.nearestEven negative hlow).signed negative
  rw [settle_eq_of_ne_zero negative (by omega) low]
  rw [← hplace] at hnear ⊢
  refine isRounded_of_nearest hnear (toRat_eq_signed ..) fun hzero => ?_
  rw [hzero, signed_zero] at hnear
  refine placeOf_le_largest (fun hx => ?_) hnear
  rw [hx, abs_zero] at habs
  exact hpos.ne habs

end Settle

section Operations

variable (n m : Bool) (c d : Nat) (e f : Int)

/-- The product of the digits is exact, so it is rounded once. -/
theorem mul_isRounded :
    IsRounded ((finite n c e).toRat * (finite m d f).toRat)
      ((finite n c e).mul (finite m d f)) := by
  rw [← toRat_mul]
  exact settle_isRounded ..

theorem abs_isRounded : IsRounded |(finite n c e).toRat| (finite n c e).abs := by
  have hmagnitude : |(finite n c e).toRat| = (finite false c e).toRat := by
    rw [abs_toRat_finite, toRat_finite, Bool.false_and, if_neg Bool.false_ne_true]
  rw [hmagnitude]
  exact settle_isRounded ..

variable {c d}

/-- The quotient carries more digits than are kept, and a last one that tells which way to go. -/
theorem div_isRounded (hd : d ≠ 0) :
    IsRounded ((finite n c e).toRat / (finite m d f).toRat)
      ((finite n c e).div (finite m d f)) := by
  by_cases hc : c = 0
  · subst hc
    have hzero := settle_isRounded (n != m) 0 (e - f)
    rw [toRat_zero] at hzero
    rw [toRat_zero, zero_div]
    exact hzero
  · -- What is settled is an integer with one digit more than are kept.
    rcases exists_standsFor hc hd n m e f with ⟨q, low, hq, hstands, hdiv⟩
    rw [toRat_div, hdiv]
    exact hstands.isRounded hq (n != m)

end Operations

section Sum

variable {n m : Bool} {c d : Nat} {e f low : Int}

/-- Beside a coefficient that ends with a zero, it does not matter how much less than one unit the
other number is. -/
theorem standsFor_tail {t : ℚ} (hc : c ≠ 0) (hten : 10 ∣ c) (ht : 0 < t) (ht' : t < 1) :
    StandsFor (if n = m then c + 1 else c - 1) (c + if n = m then t else -t) := by
  refine .inr ?_
  by_cases hsign : n = m
  · rw [if_pos hsign, if_pos hsign]
    refine ⟨?_, by omega⟩
    rw [Nat.cast_succ, abs_lt]
    constructor <;> linarith
  · rw [if_neg hsign, if_neg hsign]
    refine ⟨?_, by omega⟩
    rw [Nat.cast_pred (Nat.pos_of_ne_zero hc), abs_lt]
    constructor <;> linarith

/-- A one behind a coefficient adds to it or takes from it, as the signs are. -/
theorem signed_add_one (n m : Bool) (hc : c ≠ 0) :
    signed n c + signed m 1 = signed n (if n = m then c + 1 else c - 1) := by
  cases n <;> cases m <;> simp [signed] <;> omega

/-- A sum in units of the last digit of the first number. -/
theorem add_toRat_units (n m : Bool) (c d : Nat) (e f : Int) :
    (finite n c e).toRat + (finite m d f).toRat = (if n then -1 else 1) *
      ((c + if n = m then (d : ℚ) * (10 : ℚ) ^ f / (10 : ℚ) ^ e
        else -((d : ℚ) * (10 : ℚ) ^ f / (10 : ℚ) ^ e)) * (10 : ℚ) ^ e) := by
  have hten : (10 : ℚ) ^ e ≠ 0 := (zpow_pos (by norm_num) e).ne'
  have hunits := div_mul_cancel₀ ((d : ℚ) * (10 : ℚ) ^ f) hten
  rw [add_mul]
  cases n <;> cases m <;> simp [toRat, neg_mul, hunits]
  all_goals ring

/-- A second number that is too small to matter may be replaced: the sum is rounded to what it would
be. -/
theorem tail_isRounded (n m : Bool) (hlong : 10 ^ (precision + 1) ≤ c) (hten : 10 ∣ c) (hd : d ≠ 0)
    (hsmall : leading d f < low) :
    IsRounded ((finite n c low).toRat + (finite m d f).toRat)
      (settle (signed n c + signed m 1 < 0) (signed n c + signed m 1).natAbs low) := by
  have hunit : (0 : ℚ) < (10 : ℚ) ^ low := zpow_pos (by norm_num) low
  have hpos : 0 < (d : ℚ) * (10 : ℚ) ^ f / (10 : ℚ) ^ low := div_pos (magnitude_pos hd f) hunit
  have hlt : (d : ℚ) * (10 : ℚ) ^ f / (10 : ℚ) ^ low < 1 := by
    rw [div_lt_one hunit]
    exact (lt_ten_zpow_leading d f).trans_le (zpow_le_zpow_right₀ (by norm_num) (by omega))
  have hpower : 0 < 10 ^ precision := Nat.pow_pos (by decide)
  rw [pow_succ] at hlong
  have hc : c ≠ 0 := by omega
  -- Taking one away may cost a digit, and there are two more than are kept.
  have hdigits : 10 ^ precision ≤ if n = m then c + 1 else c - 1 := by
    split <;> omega
  have hstands := standsFor_tail (n := n) (m := m) hc hten hpos hlt
  rw [signed_add_one n m hc, add_toRat_units]
  generalize (if n = m then c + 1 else c - 1) = q at *
  have hsign : decide (signed n q < 0) = n := by
    cases n with
    | false => simp [signed]
    | true =>
        simp only [signed, if_pos, decide_eq_true_eq]
        omega
  rw [hsign, natAbs_signed]
  refine StandsFor.isRounded ?_ hdigits n
  rwa [mul_div_cancel_right₀ _ hunit.ne']

/-- A sum is rounded once, also where the smaller number is only a trace of itself. -/
theorem addAligned_isRounded (hc : c ≠ 0) (hd : d ≠ 0) (hle : f ≤ e) (n m : Bool) :
    IsRounded ((finite n c e).toRat + (finite m d f).toRat) (addAligned n c e m d f) := by
  unfold addAligned aligned
  dsimp only
  generalize htail : e + min (-1) ((digitCount c : Int) - precision - 2) = tail
  by_cases hsmall : leading d f < tail
  · -- Behind that many zeros the smaller number only tells which way is nearest.
    simp only [if_pos hsmall]
    have hbefore : tail ≤ e := by omega
    have hcount := digitCount_mul_pow hc (e - tail).toNat
    rw [toRat_raised n c hbefore, ← toRat_eq_signed]
    refine tail_isRounded n m ?_ ?_ hd hsmall
    · have hdigits : precision + 1 ≤ digitCount (c * 10 ^ (e - tail).toNat) - 1 := by omega
      refine (Nat.pow_le_pow_right (by decide) hdigits).trans (ten_pow_pred_digitCount_le ?_)
      exact Nat.mul_ne_zero hc (Nat.pow_pos (by decide)).ne'
    · exact Dvd.dvd.mul_left (dvd_pow_self 10 (by omega)) c
  · simp only [if_neg hsmall]
    -- At the smaller exponent the sum of the digits is exact.
    rw [toRat_raised n c hle, toRat_eq_signed m d, ← add_mul, ← Int.cast_add]
    generalize signed n (c * tenTo (e - f).toNat) + signed m d = sum
    have hsum : (sum : ℚ) * (10 : ℚ) ^ f = (finite (sum < 0) sum.natAbs f).toRat := by
      rw [toRat_eq_signed, signed_natAbs]
    rw [hsum]
    exact settle_isRounded ..

/-- A sum is rounded once, whatever the exponents are. -/
theorem add_isRounded (n m : Bool) (c d : Nat) (e f : Int) :
    IsRounded ((finite n c e).toRat + (finite m d f).toRat)
      ((finite n c e).add (finite m d f)) := by
  unfold add
  -- A zero has no leading digit to align with, so the other number is settled by itself.
  by_cases hc : c = 0
  · subst hc
    by_cases hd : d = 0
    · subst hd
      have hzero := settle_isRounded (n && m) 0 (min e f)
      rw [toRat_zero] at hzero
      simpa using hzero
    · simpa [hd] using settle_isRounded m d f
  by_cases hd : d = 0
  · subst hd
    simpa [hc] using settle_isRounded n c e
  by_cases hle : f ≤ e
  · simpa [hc, hd, hle] using addAligned_isRounded hc hd hle n m
  · rw [add_comm]
    simpa [hc, hd, hle] using addAligned_isRounded hd hc (by omega) m n

/-- A difference is the sum with the opposite. -/
theorem sub_isRounded (n m : Bool) (c d : Nat) (e f : Int) :
    IsRounded ((finite n c e).toRat - (finite m d f).toRat)
      ((finite n c e).sub (finite m d f)) := by
  rw [sub_eq_add_neg, ← toRat_neg]
  exact add_isRounded n (!m) c d e f

end Sum

/-- Two finite numbers that are one number, whatever their digits. -/
inductive SameFinite : Decimal → Decimal → Prop
  | intro {n m : Bool} {c d : Nat} {e f : Int}
      (h : (finite n c e).toRat = (finite m d f).toRat) : SameFinite (finite n c e) (finite m d f)

section SameFinite

/-- Two finite numbers are the same if their values are. -/
theorem SameFinite.sameNumber {a b : Decimal} (h : SameFinite a b) : SameNumber a b := by
  cases h with
  | intro h => exact ⟨rfl, h⟩

/-- A number is rounded to one number, or too large at every attempt. -/
theorem IsRounded.matched {x : ℚ} {result result' : Except Signal Decimal}
    (h : IsRounded x result) (h' : IsRounded x result') : Matched SameFinite result result' := by
  rcases h with ⟨k, hnear, hresult⟩
  rcases h' with ⟨l, hnear', hresult'⟩
  rw [← hnear.unique hnear'] at hresult'
  split_ifs at hresult hresult'
  · rcases hresult with ⟨n, c, e, rfl, heq⟩
    rcases hresult' with ⟨m, d, f, rfl, heq'⟩
    exact .ok (.intro (heq.trans heq'.symm))
  · rw [hresult, hresult']
    exact .error _

variable {a a' b b' : Decimal}

theorem SameFinite.abs (h : SameFinite a a') : Matched SameFinite a.abs a'.abs := by
  rcases h with ⟨h⟩
  exact (abs_isRounded ..).matched (h ▸ abs_isRounded ..)

theorem SameFinite.add (ha : SameFinite a a') (hb : SameFinite b b') :
    Matched SameFinite (a.add b) (a'.add b') := by
  rcases ha with ⟨ha⟩
  rcases hb with ⟨hb⟩
  exact (add_isRounded ..).matched (ha ▸ hb ▸ add_isRounded ..)

theorem SameFinite.sub (ha : SameFinite a a') (hb : SameFinite b b') :
    Matched SameFinite (a.sub b) (a'.sub b') := by
  rcases ha with ⟨ha⟩
  rcases hb with ⟨hb⟩
  exact (sub_isRounded ..).matched (ha ▸ hb ▸ sub_isRounded ..)

theorem SameFinite.mul (ha : SameFinite a a') (hb : SameFinite b b') :
    Matched SameFinite (a.mul b) (a'.mul b') := by
  rcases ha with ⟨ha⟩
  rcases hb with ⟨hb⟩
  exact (mul_isRounded ..).matched (ha ▸ hb ▸ mul_isRounded ..)

theorem SameFinite.div (ha : SameFinite a a') (hb : SameFinite b b') (hne : b.toRat ≠ 0) :
    Matched SameFinite (a.div b) (a'.div b') := by
  rcases ha with ⟨ha⟩
  rcases hb with @⟨n, m, c, d, e, f, hb⟩
  have hc : c ≠ 0 := fun hzero => hne (by rw [hzero, toRat_zero])
  have hd : d ≠ 0 := fun hzero => hne (by rw [hb, hzero, toRat_zero])
  exact (div_isRounded _ _ _ _ hc).matched (ha ▸ hb ▸ div_isRounded _ _ _ _ hd)

end SameFinite

end Decimal

end Liquid
