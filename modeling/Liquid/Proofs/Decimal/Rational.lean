import Liquid.Decimal
import Mathlib.Algebra.Order.Field.Rat
import Mathlib.Algebra.Order.Field.Power
import Mathlib.Tactic.NormNum
import Mathlib.Tactic.Ring

/-!
# Decimals as Rational Numbers

The number that a decimal stands for, and the order of decimals as the order
of these numbers.

The comparison of decimals never forms the number. It goes by the place of the
leading digit first, because an exponent may be far too large for its power of
ten to be written out, and only among numbers of equal leading place does it
bring the coefficients to a common exponent. Here the powers cost nothing, so
both of its steps can be compared with the one thing that they are about.

A decimal that is no finite number has no rational number to stand for. It is
told by its tier: the infinities have a tier at each end, and behind them comes
the one that is no number. Order is by tier first and by number inside the one
tier that has more than one member, which makes it lexicographic and hence
transitive for reasons that have nothing to do with decimals.

## Main definitions

* `Decimal.toRat`: The rational number that a finite decimal stands for.
* `Decimal.tier`: Where a decimal stands among the infinities and the numbers.
* `Decimal.SameNumber`: Two decimals that stand for one number.

## Theorems

* `Decimal.digitCount_le_iff`: The number of digits as a bound on the number.
* `Decimal.ten_zpow_leading_le`, `Decimal.lt_ten_zpow_leading`: The leading
  digit pins the number between two powers of ten.
* `Decimal.compareScaled_eq_compare`: Bringing to a common exponent keeps the
  order.
* `Decimal.compareMagnitude_eq_compare`: The order of magnitudes is the order
  of the numbers.
* `Decimal.compare_eq_then`: The order of decimals is by tier, then by number.
* `Decimal.compare_eq_eq_iff`: Decimals compare as equal exactly if they stand
  for one number.
* `Decimal.compare_ofInt`: Integers compare as decimals as they do themselves.
-/

namespace Liquid

theorem tenTo_eq_pow (n : Nat) : tenTo n = 10 ^ n := rfl

namespace Decimal

/-- The rational number that a finite decimal stands for, and zero for the others, which have
    their tier to be told by. -/
def toRat : Decimal → ℚ
  | finite negative c e => (if negative then -1 else 1) * ((c : ℚ) * (10 : ℚ) ^ e)
  | _ => 0

/-- Where a decimal stands: at one of the two ends, among the finite numbers, or behind all. -/
def tier : Decimal → Nat
  | infinite true => 0
  | finite .. => 1
  | infinite false => 2
  | nan => 3

/-- Two decimals that stand for one number, or for one of the things that are no finite number. -/
def SameNumber (a b : Decimal) : Prop :=
  a.tier = b.tier ∧ a.toRat = b.toRat

theorem toRat_ofInt (n : Int) : (ofInt n).toRat = n := by
  have habs : ((n.natAbs : ℕ) : ℚ) = |(n : ℚ)| := by
    rw [Nat.cast_natAbs, Int.cast_abs]
  simp only [ofInt, toRat, zpow_zero, mul_one, habs, decide_eq_true_eq]
  by_cases hn : n < 0
  · have hneg : (n : ℚ) < 0 := by exact_mod_cast hn
    rw [if_pos hn, abs_of_neg hneg]
    ring
  · have hpos : (0 : ℚ) ≤ n := by exact_mod_cast not_lt.mp hn
    rw [if_neg hn, abs_of_nonneg hpos, one_mul]

/-- The count of digits is what powers of ten say of it. -/
theorem digitCount_le_iff {n k : Nat} (hk : 0 < k) : digitCount n ≤ k ↔ n < 10 ^ k :=
  Nat.length_toDigits_le_iff (by decide) hk

theorem digitCount_pos (n : Nat) : 0 < digitCount n :=
  Nat.length_toDigits_pos

theorem lt_ten_pow_digitCount (n : Nat) : n < 10 ^ digitCount n :=
  (digitCount_le_iff (digitCount_pos n)).mp (le_refl _)

/-- A number other than zero has no more digits than it needs. -/
theorem ten_pow_pred_digitCount_le {n : Nat} (hn : n ≠ 0) : 10 ^ (digitCount n - 1) ≤ n := by
  rcases Nat.eq_zero_or_pos (digitCount n - 1) with hzero | hpos
  · rw [hzero, pow_zero]
    omega
  · by_contra hlt
    -- One digit less would do.
    have hle := (digitCount_le_iff hpos).mpr (Nat.lt_of_not_le hlt)
    omega

theorem magnitude_nonneg (c : Nat) (e : Int) : (0 : ℚ) ≤ (c : ℚ) * (10 : ℚ) ^ e :=
  mul_nonneg (Nat.cast_nonneg c) (zpow_nonneg (by norm_num) e)

theorem magnitude_pos {c : Nat} (hc : c ≠ 0) (e : Int) : (0 : ℚ) < (c : ℚ) * (10 : ℚ) ^ e :=
  mul_pos (by exact_mod_cast Nat.pos_of_ne_zero hc) (zpow_pos (by norm_num) e)

/-- A number is no less than the unit of its leading digit. -/
theorem ten_zpow_leading_le {c : Nat} (hc : c ≠ 0) (e : Int) :
    (10 : ℚ) ^ leading c e ≤ (c : ℚ) * (10 : ℚ) ^ e := by
  have hcount := digitCount_pos c
  have hsplit : leading c e = ((digitCount c - 1 : ℕ) : ℤ) + e := by
    unfold leading
    omega
  have hle : ((10 : ℚ) ^ (digitCount c - 1)) ≤ c := by
    exact_mod_cast ten_pow_pred_digitCount_le hc
  rw [hsplit, zpow_add₀ (by norm_num), zpow_natCast]
  exact mul_le_mul_of_nonneg_right hle (zpow_nonneg (by norm_num) e)

/-- A number is less than ten times the unit of its leading digit. -/
theorem lt_ten_zpow_leading (c : Nat) (e : Int) :
    (c : ℚ) * (10 : ℚ) ^ e < (10 : ℚ) ^ (leading c e + 1) := by
  have hsplit : leading c e + 1 = ((digitCount c : ℕ) : ℤ) + e := by
    unfold leading
    omega
  have hlt : (c : ℚ) < (10 : ℚ) ^ digitCount c := by
    exact_mod_cast lt_ten_pow_digitCount c
  rw [hsplit, zpow_add₀ (by norm_num), zpow_natCast]
  exact mul_lt_mul_of_pos_right hlt (zpow_pos (by norm_num) e)

/-- A lower leading place means a smaller number: the powers of ten that pin the two numbers do
    not overlap. -/
theorem lt_of_leading_lt {c d : Nat} {e f : Int} (hd : d ≠ 0)
    (h : leading c e < leading d f) :
    (c : ℚ) * (10 : ℚ) ^ e < (d : ℚ) * (10 : ℚ) ^ f := by
  have hpow : (10 : ℚ) ^ (leading c e + 1) ≤ (10 : ℚ) ^ leading d f :=
    zpow_le_zpow_right₀ (by norm_num) (by omega)
  exact lt_of_lt_of_le (lt_ten_zpow_leading c e) (hpow.trans (ten_zpow_leading_le hd f))

/-- A coefficient brought down to a lower exponent, as a rational number. -/
theorem cast_mul_tenTo {c : Nat} {e low : Int} (h : low ≤ e) :
    ((c * tenTo (e - low).toNat : ℕ) : ℚ) * (10 : ℚ) ^ low = (c : ℚ) * (10 : ℚ) ^ e := by
  have hexp : e = ((e - low).toNat : ℤ) + low := by omega
  rw [tenTo_eq_pow, Nat.cast_mul, Nat.cast_pow, mul_assoc]
  conv_rhs => rw [hexp, zpow_add₀ (by norm_num), zpow_natCast]
  norm_num

/-- At a common exponent, digits are compared as integers. -/
theorem compareScaled_eq_compare (c : Nat) (e : Int) (d : Nat) (f : Int) :
    compareScaled c e d f
      = Ord.compare ((c : ℚ) * (10 : ℚ) ^ e) ((d : ℚ) * (10 : ℚ) ^ f) := by
  have hcast : ∀ a b : ℕ, Ord.compare a b = cmp (a : ℚ) (b : ℚ) := fun a b => by
    rw [← cmp_eq_compare, Nat.strictMono_cast.cmp_map_eq]
  have hlow : (0 : ℚ) < (10 : ℚ) ^ min e f := zpow_pos (by norm_num) _
  -- Both numbers are whole multiples of the power with the lower exponent.
  simp only [compareScaled]
  rw [hcast, ← cmp_mul_pos_right hlow, cast_mul_tenTo (min_le_left e f),
    cast_mul_tenTo (min_le_right e f), cmp_eq_compare]

/-- Magnitudes are compared as numbers, by their leading digits alone where these differ. -/
theorem compareMagnitude_eq_compare (c : Nat) (e : Int) (d : Nat) (f : Int) :
    compareMagnitude c e d f
      = Ord.compare ((c : ℚ) * (10 : ℚ) ^ e) ((d : ℚ) * (10 : ℚ) ^ f) := by
  unfold compareMagnitude
  by_cases hc : c = 0
  · -- Zero has no leading digit; it is below everything else.
    subst hc
    rcases Nat.eq_zero_or_pos d with rfl | hd
    · simp
    · have hlt := magnitude_pos (by omega : d ≠ 0) f
      simp only [beq_self_eq_true, Bool.true_or, if_true, Nat.cast_zero, zero_mul]
      rw [Nat.compare_eq_lt.mpr hd, eq_comm, compare_lt_iff_lt]
      exact hlt
  · by_cases hd : d = 0
    · -- The same from the other side.
      subst hd
      have hlt := magnitude_pos hc e
      simp only [beq_self_eq_true, Bool.or_true, if_true, Nat.cast_zero, zero_mul]
      rw [Nat.compare_eq_gt.mpr (Nat.pos_of_ne_zero hc), eq_comm, compare_gt_iff_gt]
      exact hlt
    · rw [if_neg (by simp [hc, hd]), compareScaled_eq_compare]
      -- The place of the leading digit decides, and the digits only where it is the same.
      rcases lt_trichotomy (leading c e) (leading d f) with hlt | heq | hgt
      · rw [compare_lt_iff_lt.mpr hlt, compare_lt_iff_lt.mpr (lt_of_leading_lt hd hlt)]
        rfl
      · rw [compare_eq_iff_eq.mpr heq]
        rfl
      · rw [compare_gt_iff_gt.mpr hgt, compare_gt_iff_gt.mpr (lt_of_leading_lt hc hgt)]
        rfl

/-- A zero has no sign as a rational number, so the sign only counts in front of something. -/
theorem toRat_finite (negative : Bool) (c : Nat) (e : Int) :
    (finite negative c e).toRat
      = if negative && c != 0 then -((c : ℚ) * (10 : ℚ) ^ e) else (c : ℚ) * (10 : ℚ) ^ e := by
  by_cases hc : c = 0
  · simp [toRat, hc]
  · cases negative <;> simp [toRat, hc]

/-- Finite numbers are compared by their values. -/
theorem compare_finite (n m : Bool) (c d : Nat) (e f : Int) :
    (finite n c e).compare (finite m d f)
      = Ord.compare (finite n c e).toRat (finite m d f).toRat := by
  rw [toRat_finite, toRat_finite]
  simp only [compare]
  -- Two zeros are equal whatever their signs are.
  by_cases hzero : (c == 0 && d == 0) = true
  · simp only [Bool.and_eq_true, beq_iff_eq] at hzero
    simp [hzero.1, hzero.2]
  rw [if_neg hzero]
  by_cases hn : (n && c != 0) = true
  · have hc : c ≠ 0 := by simp_all
    rw [if_pos hn, if_pos hn]
    by_cases hm : (m && d != 0) = true
    · -- Among two negative numbers the larger magnitude is the smaller number.
      rw [if_pos hm, if_pos hm, compareMagnitude_eq_compare]
      rcases lt_trichotomy ((d : ℚ) * (10 : ℚ) ^ f) ((c : ℚ) * (10 : ℚ) ^ e) with hlt | heq | hgt
      · rw [compare_lt_iff_lt.mpr hlt, compare_lt_iff_lt.mpr (neg_lt_neg hlt)]
      · rw [heq, compare_eq_iff_eq.mpr rfl, compare_eq_iff_eq.mpr rfl]
      · rw [compare_gt_iff_gt.mpr hgt, compare_gt_iff_gt.mpr (neg_lt_neg hgt)]
    -- A negative number is below one that is not.
    · rw [if_neg hm, if_neg hm, eq_comm, compare_lt_iff_lt]
      exact lt_of_lt_of_le (neg_neg_of_pos (magnitude_pos hc e)) (magnitude_nonneg d f)
  · rw [if_neg hn, if_neg hn]
    by_cases hm : (m && d != 0) = true
    · have hd : d ≠ 0 := by simp_all
      rw [if_pos hm, if_pos hm, eq_comm, compare_gt_iff_gt]
      exact lt_of_lt_of_le (neg_neg_of_pos (magnitude_pos hd f)) (magnitude_nonneg c e)
    · rw [if_neg hm, if_neg hm, compareMagnitude_eq_compare]

/-- The order of decimals is by tier, and inside the tier of the finite numbers by number. -/
theorem compare_eq_then (a b : Decimal) :
    a.compare b = (Ord.compare a.tier b.tier).then (Ord.compare a.toRat b.toRat) := by
  rcases a with ⟨n, c, e⟩ | n | _ <;> rcases b with ⟨m, d, f⟩ | m | _
  case finite.finite =>
      rw [compare_finite]
      rfl
  all_goals first | rfl | cases n <;> rfl | cases m <;> rfl | cases n <;> cases m <;> rfl

/-- To be equal is to be the same number. -/
theorem compare_eq_eq_iff (a b : Decimal) : a.compare b = .eq ↔ SameNumber a b := by
  rw [compare_eq_then, Ordering.then_eq_eq, compare_eq_iff_eq, compare_eq_iff_eq]
  rfl

theorem sameNumber_ofInt_iff (n : Int) (d : Decimal) :
    SameNumber (ofInt n) d ↔ d.isFinite ∧ d.toRat = n := by
  have htier : (ofInt n).tier = d.tier ↔ d.isFinite := by
    rcases d with _ | ⟨_ | _⟩ | _ <;> simp [ofInt, tier, isFinite]
  rw [SameNumber, htier, toRat_ofInt, eq_comm (a := (n : ℚ))]

/-- Integers are compared as integers. -/
theorem compare_ofInt (m n : Int) : (ofInt m).compare (ofInt n) = Ord.compare m n := by
  rw [compare_eq_then, toRat_ofInt, toRat_ofInt, ← cmp_eq_compare (m : ℚ),
    Int.cast_strictMono.cmp_map_eq, cmp_eq_compare]
  rfl

end Decimal

end Liquid
