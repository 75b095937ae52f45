import Liquid.Decimal.Arithmetic
import Liquid.Proofs.Decimal.Rational

/-!
# Integers in Arithmetic to Twenty-Eight Digits

Sums, products and magnitudes of integers are formed exactly and then settled,
so all that happens to an integer happens there. An integer of no more digits
than are kept stays as it is. A longer one loses its last digits: what is left
is the nearest multiple of a power of ten, of two equally near ones the even
one, and it is the integer itself only if the digits that it lost were zeros.
One of more than a million digits is a failure.

Here an integer is a sign and a coefficient with the exponent zero. Settling may
raise the exponent, and never lowers it, so the result is an integer again.

## Main definitions

* `Decimal.lost`, `Decimal.kept`: How many digits there is no room for, and what
  the others are rounded to.
* `Decimal.unit`: The distance of the integers that arithmetic can tell apart.
* `Decimal.Nearest`: What an integer is rounded to.
* `Decimal.Fits`: The integers that are not rounded.

## Theorems

* `Decimal.Nearest.eq_iff_dvd`: Rounding leaves an integer alone exactly if it
  is a multiple of its unit.
* `Decimal.nearest_kept`: The digits that are kept make the nearest multiple.
* `Decimal.settle_integer`: What becomes of an integer.
* `Decimal.add_integers`, `Decimal.sub_integers`, `Decimal.signed_mul`: Sums,
  differences and products are exact before they are settled.
-/

namespace Liquid

namespace Decimal

/-- How many digits of a coefficient are not kept. -/
def lost (c : Nat) : Nat :=
  digitCount c - precision

/-- The digits of a coefficient that are kept, once those that are lost have rounded them. -/
def kept (negative : Bool) (c : Nat) : Nat :=
  Rounding.halfEven.shifted negative c (lost c)

/-- The distance of the integers about as large as the given one that have only the digits kept. -/
def unit (n : Int) : Nat :=
  10 ^ lost n.natAbs

/-- Whether the second integer is the multiple of the unit that is nearest to the first one, of two
equally near ones that with the even last digit. -/
structure Nearest (n m : Int) : Prop where
  dvd : (unit n : Int) ∣ m
  close : 2 * (n - m).natAbs ≤ unit n
  even : 2 * (n - m).natAbs = unit n → 2 * (unit n : Int) ∣ m

/-- The number of digits that a result may have before the point. -/
def longest : Nat := 1000000

/-- Whether an integer is a result of arithmetic as it is. -/
def Fits (n : Int) : Prop :=
  (unit n : Int) ∣ n ∧ digitCount n.natAbs ≤ longest

instance : DecidablePred Fits :=
  fun n => inferInstanceAs (Decidable ((unit n : Int) ∣ n ∧ digitCount n.natAbs ≤ longest))

section Nearest

variable {n m : Int}

theorem unit_pos (n : Int) : 0 < unit n :=
  Nat.pow_pos (by decide)

/-- Two multiples of the unit are not nearer to each other than it is. -/
theorem Nearest.eq_iff_dvd (h : Nearest n m) : m = n ↔ (unit n : Int) ∣ n := by
  constructor
  · intro heq
    exact heq ▸ h.dvd
  · intro hdvd
    have hunit := unit_pos n
    have hclose := h.close
    have hzero : n - m = 0 := Int.eq_zero_of_dvd_of_natAbs_lt_natAbs (Int.dvd_sub hdvd h.dvd)
      (by rw [Int.natAbs_natCast]; omega)
    omega

/-- A sign in front of both changes nothing. -/
theorem nearest_signed (negative : Bool) {c d : Nat} (h : Nearest c d) :
    Nearest (signed negative c) (signed negative d) := by
  cases negative with
  | false => exact h
  | true =>
      -- Neither the unit nor the distance depends on the sign.
      have hunit : unit (-(c : Int)) = unit c := by
        unfold unit
        rw [Int.natAbs_neg]
      have hdist : (-(c : Int) - -(d : Int)).natAbs = ((c : Int) - d).natAbs := by omega
      refine ⟨?_, ?_, ?_⟩
      · exact hunit ▸ (Int.dvd_neg.mpr h.dvd)
      · change 2 * (-(c : Int) - -(d : Int)).natAbs ≤ unit (-(c : Int))
        rw [hunit, hdist]
        exact h.close
      · intro htie
        change 2 * (-(c : Int) - -(d : Int)).natAbs = unit (-(c : Int)) at htie
        rw [hunit, hdist] at htie
        exact hunit ▸ (Int.dvd_neg.mpr (h.even htie))

end Nearest

section Kept

/-- A number of digits to lose need not be bounded by the digits that there are. -/
theorem shifted_eq (mode : Rounding) (negative : Bool) (c count : Nat) :
    mode.shifted negative c count =
      if mode.isUp negative (c / 10 ^ count) (c % 10 ^ count) (10 ^ count)
        then c / 10 ^ count + 1 else c / 10 ^ count := by
  unfold Rounding.shifted
  -- The shift is cut to one more than all of the digits, and so is the unit.
  by_cases hcount : count ≤ digitCount c + 1
  · rw [Nat.min_eq_left hcount]
    rfl
  · -- Nothing is left, and what is lost is less than half of either unit.
    have hpow : 10 ^ (digitCount c + 1) ≤ 10 ^ count := Nat.pow_le_pow_right (by decide) (by omega)
    have hlt : 2 * c < 10 ^ (digitCount c + 1) := by
      have hc := lt_ten_pow_digitCount c
      rw [Nat.pow_succ]
      omega
    have hsame : mode.isUp negative 0 c (10 ^ (digitCount c + 1)) =
        mode.isUp negative 0 c (10 ^ count) := by
      cases mode with
      | halfEven =>
          simp [Rounding.isUp]
          omega
      | halfUp =>
          simp [Rounding.isUp]
          omega
      | floor => rfl
      | ceiling => rfl
    have hlost {unit : Nat} (hunit : 2 * c < unit) : c / unit = 0 ∧ c % unit = c :=
      ⟨Nat.div_eq_of_lt (by omega), Nat.mod_eq_of_lt (by omega)⟩
    rw [Nat.min_eq_right (by omega), tenTo_eq_pow]
    simp only [hlost hlt, hlost (hlt.trans_le hpow), hsame]

theorem shifted_halfEven (negative : Bool) (c count : Nat) :
    Rounding.halfEven.shifted negative c count =
      if 10 ^ count < 2 * (c % 10 ^ count) ∨
          (10 ^ count = 2 * (c % 10 ^ count) ∧ c / 10 ^ count % 2 = 1)
        then c / 10 ^ count + 1 else c / 10 ^ count := by
  rw [shifted_eq]
  simp only [Rounding.isUp, Bool.or_eq_true, Bool.and_eq_true, decide_eq_true_eq, beq_iff_eq]

theorem kept_eq (negative : Bool) (c : Nat) :
    kept negative c =
      if 10 ^ lost c < 2 * (c % 10 ^ lost c) ∨
          (10 ^ lost c = 2 * (c % 10 ^ lost c) ∧ c / 10 ^ lost c % 2 = 1)
        then c / 10 ^ lost c + 1 else c / 10 ^ lost c :=
  shifted_halfEven negative c (lost c)

/-- A multiple of the unit and a rest, rounded: up if the rest is more than half a unit, or just
half of one and the multiple is odd. -/
theorem close_of_rest {u q r k : Nat} (hlt : r < u)
    (hk : k = if u < 2 * r ∨ (u = 2 * r ∧ q % 2 = 1) then q + 1 else q) :
    2 * (((u * q + r : ℕ) : Int) - (k * u : ℕ)).natAbs ≤ u ∧
      (2 * (((u * q + r : ℕ) : Int) - (k * u : ℕ)).natAbs = u → k % 2 = 0) := by
  have hmul : u * q = q * u := Nat.mul_comm u q
  -- Either the rest is what is missing to the next multiple, or it is what is beyond the last.
  by_cases hup : u < 2 * r ∨ (u = 2 * r ∧ q % 2 = 1)
  · rw [if_pos hup] at hk
    have hnext : k * u = q * u + u := by
      rw [hk, Nat.succ_mul]
    have hdist : (((u * q + r : ℕ) : Int) - (k * u : ℕ)).natAbs = u - r := by omega
    rw [hdist]
    constructor
    · omega
    · intro htie
      omega
  · rw [if_neg hup] at hk
    have hdist : (((u * q + r : ℕ) : Int) - (k * u : ℕ)).natAbs = r := by
      rw [hk]
      omega
    rw [hdist]
    constructor
    · omega
    · intro htie
      omega

/-- The digits that are left make the nearest multiple. -/
theorem shifted_close (negative : Bool) (c count : Nat) :
    2 * ((c : Int) - (Rounding.halfEven.shifted negative c count * 10 ^ count : ℕ)).natAbs ≤
      10 ^ count := by
  have hpos : 0 < 10 ^ count := Nat.pow_pos (by decide)
  have hclose := (close_of_rest (Nat.mod_lt c hpos) (shifted_halfEven negative c count)).1
  rwa [Nat.div_add_mod] at hclose

/-- Of two equally near multiples the digits that are left make the even one. -/
theorem shifted_even (negative : Bool) (c count : Nat)
    (htie : 2 * ((c : Int) - (Rounding.halfEven.shifted negative c count * 10 ^ count : ℕ)).natAbs =
      10 ^ count) : Rounding.halfEven.shifted negative c count % 2 = 0 := by
  have hpos : 0 < 10 ^ count := Nat.pow_pos (by decide)
  have heven := (close_of_rest (Nat.mod_lt c hpos) (shifted_halfEven negative c count)).2
  rw [Nat.div_add_mod] at heven
  exact heven htie

/-- The digits that are kept make the nearest multiple of the unit. -/
theorem nearest_kept (negative : Bool) (c : Nat) :
    Nearest c (kept negative c * 10 ^ lost c : ℕ) := by
  refine ⟨?_, shifted_close negative c (lost c), ?_⟩
  · exact Int.natCast_dvd_natCast.mpr (Nat.dvd_mul_left _ _)
  · intro htie
    have heven := Nat.dvd_of_mod_eq_zero (shifted_even negative c (lost c) htie)
    exact_mod_cast Nat.mul_dvd_mul_right heven (10 ^ lost c)

/-- Zeros at the end add to the digits. -/
theorem digitCount_mul_pow {c : Nat} (hc : c ≠ 0) (k : Nat) :
    digitCount (c * 10 ^ k) = digitCount c + k := by
  have hpos := digitCount_pos c
  apply Nat.le_antisymm
  · rw [digitCount_le_iff (by omega), Nat.pow_add]
    exact Nat.mul_lt_mul_of_pos_right (lt_ten_pow_digitCount c) (Nat.pow_pos (by decide))
  · by_contra hlt
    have hfew : digitCount (c * 10 ^ k) ≤ digitCount c - 1 + k := by omega
    -- With fewer digits the number would be less than the power of ten that it reaches.
    have hless := lt_of_lt_of_le (lt_ten_pow_digitCount (c * 10 ^ k))
      (Nat.pow_le_pow_right (by decide) hfew)
    rw [Nat.pow_add] at hless
    have hreach := Nat.mul_le_mul_right (10 ^ k) (ten_pow_pred_digitCount_le hc)
    omega

/-- The digits that are lost are not all that there are. -/
theorem kept_ne_zero (negative : Bool) {c : Nat} (hc : c ≠ 0) : kept negative c ≠ 0 := by
  have hfewer : lost c ≤ digitCount c - 1 := by
    unfold lost precision
    omega
  have hreach : 10 ^ lost c ≤ c :=
    (Nat.pow_le_pow_right (by decide) hfewer).trans (ten_pow_pred_digitCount_le hc)
  have hquotient : 0 < c / 10 ^ lost c := Nat.div_pos hreach (Nat.pow_pos (by decide))
  rw [kept_eq]
  split
  · omega
  · omega

end Kept

section Settle

/-- An integer is settled by keeping the digits that there is room for. -/
theorem settle_eq (negative : Bool) (c : Nat) :
    settle negative c 0 =
      if digitCount (kept negative c * 10 ^ lost c) ≤ longest
        then .ok (finite negative (kept negative c) (lost c)) else .error .overflow := by
  by_cases hc : c = 0
  · subst hc
    have hlost : lost 0 = 0 := by decide
    have hkept : kept negative 0 = 0 := by
      rw [kept_eq, hlost]
      rfl
    rw [hkept, hlost]
    rfl
  -- An integer that is too long ends where its last digits are lost.
  have hplace : max lowest (max 0 (leading c 0 - ((precision : Int) - 1))) = (lost c : Int) := by
    unfold lowest leading lost precision
    omega
  have hcount : ((lost c : Int) - 0).toNat = lost c := by omega
  have hlimit : largest < leading (kept negative c) (lost c) ↔
      ¬ digitCount (kept negative c) + lost c ≤ longest := by
    unfold largest leading longest
    omega
  unfold settle
  rw [if_neg (by simpa using hc), digitCount_mul_pow (kept_ne_zero negative hc)]
  simp only [hplace, hcount]
  by_cases hfits : digitCount (kept negative c) + lost c ≤ longest
  · rw [if_pos hfits]
    exact if_neg fun hlarge => hlimit.mp hlarge hfits
  · rw [if_neg hfits]
    exact if_pos (hlimit.mpr hfits)

theorem isIntegral_natCast (negative : Bool) (c k : Nat) :
    (finite negative c k).isIntegral = true := by
  have hself : (finite negative c k).toIntegral .halfEven = finite negative c k :=
    by simp [toIntegral]
  have hsame : (finite negative c k).compare (finite negative c k) = .eq :=
    (compare_eq_eq_iff _ _).mpr ⟨rfl, rfl⟩
  unfold isIntegral
  rw [hself, hsame]
  rfl

/-- Nothing is cut off an integer. -/
theorem truncated?_natCast (negative : Bool) (c k : Nat) :
    (finite negative c k).truncated? = some (signed negative (c * 10 ^ k)) := by
  simp [truncated?, tenTo_eq_pow]

theorem natAbs_signed (negative : Bool) (c : Nat) : (signed negative c).natAbs = c := by
  cases negative with
  | false => exact Int.natAbs_natCast c
  | true => exact (Int.natAbs_neg _).trans (Int.natAbs_natCast c)

/-- What becomes of an integer: the nearest one that there is room for, unless that is too long. -/
theorem settle_integer (negative : Bool) (c : Nat) :
    ∃ m, Nearest (signed negative c) m ∧
      if digitCount m.natAbs ≤ longest
        then ∃ d, settle negative c 0 = .ok d ∧ d.isIntegral = true ∧ d.truncated? = some m
        else settle negative c 0 = .error .overflow := by
  refine ⟨signed negative (kept negative c * 10 ^ lost c), nearest_signed negative ?_, ?_⟩
  · exact nearest_kept negative c
  rw [natAbs_signed, settle_eq]
  by_cases hfits : digitCount (kept negative c * 10 ^ lost c) ≤ longest
  · rw [if_pos hfits, if_pos hfits]
    exact ⟨_, rfl, isIntegral_natCast _ _ _, truncated?_natCast _ _ _⟩
  · rw [if_neg hfits, if_neg hfits]

end Settle

section Operations

variable (n m : Bool) (c d : Nat)

theorem signed_zero : signed n 0 = 0 := by
  cases n with
  | false => rfl
  | true => rfl

/-- An integer is its absolute value with its sign. -/
theorem signed_natAbs (k : Int) : signed (k < 0) k.natAbs = k := by
  unfold signed
  by_cases hk : k < 0
  · rw [if_pos (decide_eq_true hk)]
    omega
  · rw [if_neg (by simpa using hk)]
    omega

theorem truncated?_ofInt (k : Int) : (ofInt k).truncated? = some k := by
  have hparts := truncated?_natCast (k < 0) k.natAbs 0
  rw [Nat.pow_zero, Nat.mul_one, signed_natAbs] at hparts
  exact hparts

/-- The sign of a product is that of one of the factors and not of both. -/
theorem signed_mul : signed (n != m) (c * d) = signed n c * signed m d := by
  cases n with
  | false =>
      cases m with
      | false => exact Int.natCast_mul c d
      | true => simp [signed]
  | true =>
      cases m with
      | false => simp [signed]
      | true => simp [signed]

/-- A sum of two integers, neither of which is too small beside the other to be counted digit by
digit. -/
theorem addAligned_integers :
    addAligned n c 0 m d 0 =
      settle (signed n c + signed m d < 0) (signed n c + signed m d).natAbs 0 := by
  have hcounted : ¬ leading d 0 < 0 + min (-1) ((digitCount c : Int) - precision - 2) := by
    have hpos := digitCount_pos d
    unfold leading
    omega
  unfold addAligned aligned
  simp only [if_neg hcounted]
  simp [tenTo_eq_pow]

/-- A sum of integers is formed exactly, and then settled. -/
theorem add_integers :
    ∃ negative sum, signed negative sum = signed n c + signed m d ∧
      (finite n c 0).add (finite m d 0) = settle negative sum 0 := by
  unfold add
  -- Zeros are left out of a sum, and only two other integers are aligned.
  by_cases hc : c = 0
  · subst hc
    rw [signed_zero, Int.zero_add]
    by_cases hd : d = 0
    · subst hd
      exact ⟨n && m, 0, (signed_zero _).trans (signed_zero m).symm, rfl⟩
    · exact ⟨m, d, rfl, by simp [hd]⟩
  · by_cases hd : d = 0
    · subst hd
      rw [signed_zero, Int.add_zero]
      exact ⟨n, c, rfl, by simp [hc]⟩
    · refine ⟨_, _, signed_natAbs _, ?_⟩
      rw [← addAligned_integers]
      simp [hc, hd]

/-- A difference is the sum with the opposite number. -/
theorem sub_integers :
    ∃ negative difference, signed negative difference = signed n c - signed m d ∧
      (finite n c 0).sub (finite m d 0) = settle negative difference 0 := by
  have hneg : signed (!m) d = -signed m d := by
    cases m with
    | false => rfl
    | true => exact (Int.neg_neg _).symm
  rcases add_integers n (!m) c d with ⟨negative, difference, hsigned, hadd⟩
  rw [hneg] at hsigned
  exact ⟨negative, difference, hsigned, hadd⟩

end Operations

end Decimal

end Liquid
