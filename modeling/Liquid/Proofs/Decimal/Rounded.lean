import Liquid.Proofs.Decimal.Nearest
import Mathlib.Algebra.Order.Floor.Ring
import Mathlib.Data.Rat.Floor
import Mathlib.Tactic.Positivity

/-!
# Decimal Arithmetic on Rational Numbers

What decimal arithmetic gives for numbers with any digits behind the point, told
by the rational numbers that they stand for.

A number that can be written with the digits that are kept, and with its last
digit at some place that is not out of bounds, is settled without a change,
however many zeros its coefficient ends with. So products, and sums of numbers
that share such a place, are what they should be whenever they can be written
like that themselves.

A quotient seldom can. It is rounded to nearest at the last of the digits that
are kept, as if all of its digits had been there: the integer that is rounded in
its stead is less than one away from it and ends with no 0 and no 5, and so
there is no multiple and no half between them.

Any result may be too large instead, which is the one way for the arithmetic of
finite numbers to fail.

## Main definitions

* `Decimal.FitsAt`: Numbers that can be written down to a given place.
* `Decimal.Gives`: Results that are numbers, unless they are too large.
* `Decimal.StandsFor`: Integers that are rounded in the stead of a number.

## Theorems

* `Decimal.settle_exact`: What can be written is not changed.
* `Decimal.mul_exact`, `Decimal.add_exact`, `Decimal.sub_exact`: Products, sums
  and differences.
* `Decimal.div_close`: Quotients are rounded to nearest.
* `Decimal.toIntegral_floor`: The floor of a decimal.
-/

namespace Liquid

namespace Decimal

/-- Whether a number can be written with its last digit at the given place and no more digits than
are kept. -/
def FitsAt (place : Int) (x : ℚ) : Prop :=
  ∃ n : Int, n.natAbs < 10 ^ precision ∧ (n : ℚ) * (10 : ℚ) ^ place = x

/-- The place of the last digit that is kept. -/
def lastPlace (c : Nat) (e : Int) : Int :=
  max lowest (max e (leading c e - (precision - 1)))

section Settle

variable {negative : Bool} {c : Nat} {e : Int}

/-- The value of a number is its signed digits at its exponent. -/
theorem toRat_eq_signed (negative : Bool) (c : Nat) (e : Int) :
    (finite negative c e).toRat = (signed negative c : ℚ) * (10 : ℚ) ^ e := by
  cases negative <;> simp [toRat, signed]

/-- Zeros behind a coefficient do not change the number. -/
theorem toRat_raised (negative : Bool) (c : Nat) {e low : Int} (h : low ≤ e) :
    (finite negative c e).toRat =
      (signed negative (c * tenTo (e - low).toNat) : ℚ) * (10 : ℚ) ^ low := by
  rw [← toRat_eq_signed]
  simp only [toRat]
  rw [cast_mul_tenTo h]

/-- A number with no digits behind the point is an integer. -/
theorem toRat_of_nonneg (negative : Bool) (c : Nat) {e : Int} (he : 0 ≤ e) :
    (finite negative c e).toRat = (signed negative (c * tenTo e.toNat) : ℚ) := by
  rw [toRat_raised negative c he, zpow_zero, mul_one, sub_zero]

/-- Digits behind the point make a quotient. -/
theorem toRat_of_neg (negative : Bool) (c : Nat) {e : Int} (he : ¬0 ≤ e) :
    (finite negative c e).toRat = (signed negative c : ℚ) / ((10 ^ (-e).toNat : ℕ) : ℚ) := by
  rw [toRat_eq_signed]
  push_cast
  rw [← zpow_natCast, div_eq_mul_inv, ← zpow_neg]
  congr 2
  omega

@[simp]
theorem toRat_zero (negative : Bool) (e : Int) : (finite negative 0 e).toRat = 0 := by
  rw [toRat_eq_signed, signed_zero, Int.cast_zero, zero_mul]

theorem abs_toRat_finite (negative : Bool) (c : Nat) (e : Int) :
    |(finite negative c e).toRat| = (c : ℚ) * (10 : ℚ) ^ e := by
  have hmagnitude := magnitude_nonneg c e
  cases negative with
  | false => rw [toRat_finite, Bool.false_and, if_neg Bool.false_ne_true, abs_of_nonneg hmagnitude]
  | true => simp [toRat, abs_of_nonneg hmagnitude]

theorem toRat_finite_ne_zero (negative : Bool) (hc : c ≠ 0) (e : Int) :
    (finite negative c e).toRat ≠ 0 := by
  rw [← abs_pos, abs_toRat_finite]
  exact magnitude_pos hc e

/-- What becomes of a number other than zero: its last digits are lost, unless what is left is too
large. -/
theorem settle_eq_of_ne_zero (negative : Bool) (hc : c ≠ 0) (e : Int) :
    let k := Rounding.halfEven.shifted negative c (lastPlace c e - e).toNat
    settle negative c e = if largest < leading k (lastPlace c e) then .error .overflow
      else .ok (finite negative k (lastPlace c e)) := by
  unfold settle
  rw [if_neg (by simpa using hc)]
  rfl

/-- A number is settled at its last place, or is too large. -/
theorem settle_of_ne_zero (negative : Bool) (hc : c ≠ 0) (e : Int) :
    let k := Rounding.halfEven.shifted negative c (lastPlace c e - e).toNat
    settle negative c e = .error .overflow ∨
      settle negative c e = .ok (finite negative k (lastPlace c e)) := by
  intro k
  rw [settle_eq_of_ne_zero negative hc e]
  split
  · exact .inl rfl
  · exact .inr rfl

/-- Digits that are zeros are lost without a trace. -/
theorem shifted_of_dvd (negative : Bool) {c count : Nat} (h : 10 ^ count ∣ c) :
    Rounding.halfEven.shifted negative c count * 10 ^ count = c := by
  have hclose := shifted_close negative c count
  have hpos : 0 < 10 ^ count := Nat.pow_pos (by decide)
  have hdvd := Int.natCast_dvd_natCast.mpr h
  have hmultiple := Int.natCast_dvd_natCast.mpr
    (Nat.dvd_mul_left (10 ^ count) (Rounding.halfEven.shifted negative c count))
  have hzero := Int.eq_zero_of_dvd_of_natAbs_lt_natAbs (Int.dvd_sub hdvd hmultiple)
    (by rw [Int.natAbs_natCast]; omega)
  omega

theorem settle_zero (negative : Bool) (e : Int) :
    settle negative 0 e = .ok (finite negative 0 (max lowest (min largest e))) :=
  rfl

/-- The coefficients of a number in the digits that it has and in those that are kept. -/
theorem FitsAt.exists_natAbs {place : Int} (h : FitsAt place (finite negative c e).toRat) :
    ∃ n : ℕ, n < 10 ^ precision ∧ (c : ℚ) * (10 : ℚ) ^ e = (n : ℚ) * (10 : ℚ) ^ place := by
  rcases h with ⟨n, hn, heq⟩
  have hten : (0 : ℚ) < (10 : ℚ) ^ place := zpow_pos (by norm_num) place
  refine ⟨n.natAbs, hn, ?_⟩
  rw [← abs_toRat_finite negative, ← heq, abs_mul, abs_of_pos hten, Nat.cast_natAbs, Int.cast_abs]

/-- A number that can be written with the digits that are kept has its leading digit among
them. -/
theorem leading_lt_of_fitsAt (hc : c ≠ 0) {place : Int}
    (h : FitsAt place (finite negative c e).toRat) : leading c e < place + precision := by
  rcases h.exists_natAbs with ⟨n, hn, heq⟩
  have hten : (0 : ℚ) < (10 : ℚ) ^ place := zpow_pos (by norm_num) place
  have hlt : (n : ℚ) < (10 : ℚ) ^ precision := by exact_mod_cast hn
  have hpow : (10 : ℚ) ^ leading c e < (10 : ℚ) ^ (place + precision) := by
    rw [zpow_add₀ (by norm_num), zpow_natCast, mul_comm]
    refine (ten_zpow_leading_le hc e).trans_lt ?_
    rw [heq]
    exact mul_lt_mul_of_pos_right hlt hten
  exact (zpow_lt_zpow_iff_right₀ (by norm_num)).mp hpow

/-- A number that can be written to a place has its leading digit there or before it. -/
theorem le_leading_of_fitsAt (hc : c ≠ 0) {place : Int}
    (h : FitsAt place (finite negative c e).toRat) : place ≤ leading c e := by
  rcases h.exists_natAbs with ⟨n, -, heq⟩
  have hn : n ≠ 0 := by
    rintro rfl
    have hpos := magnitude_pos hc e
    rw [heq, Nat.cast_zero, zero_mul] at hpos
    exact lt_irrefl _ hpos
  -- A multiple of the unit that is not zero is one unit at least.
  have hone : (1 : ℚ) ≤ n := by exact_mod_cast Nat.pos_of_ne_zero hn
  have hpow : (10 : ℚ) ^ place < (10 : ℚ) ^ (leading c e + 1) := by
    refine lt_of_le_of_lt ?_ (lt_ten_zpow_leading c e)
    rw [heq]
    exact le_mul_of_one_le_left (zpow_nonneg (by norm_num) place) hone
  have hlt := (zpow_lt_zpow_iff_right₀ (by norm_num)).mp hpow
  omega

/-- Digits behind the place that a number can be written to are zeros. -/
theorem dvd_of_fitsAt {place low : Int} (h : FitsAt place (finite negative c e).toRat)
    (hlow : low ≤ place) : 10 ^ (low - e).toNat ∣ c := by
  by_cases hle : low ≤ e
  · rw [Int.toNat_of_nonpos (by omega), pow_zero]
    exact Nat.one_dvd c
  rcases h.exists_natAbs with ⟨n, -, heq⟩
  have hten : (10 : ℚ) ^ e ≠ 0 := (zpow_pos (by norm_num) e).ne'
  rw [← cast_mul_tenTo (by omega : e ≤ place)] at heq
  have hc : c = n * tenTo (place - e).toNat := by
    exact_mod_cast mul_right_cancel₀ hten heq
  rw [hc]
  exact Dvd.dvd.mul_left (Nat.pow_dvd_pow 10 (by omega)) n

/-- Whether a result is a number with some property, unless it is too large. -/
def Gives (P : ℚ → Prop) (result : Except Signal Decimal) : Prop :=
  result = .error .overflow ∨
    ∃ n c e, result = .ok (finite n c e) ∧ P (finite n c e).toRat

/-- What each step gives is taken up by the next one. -/
theorem Gives.bind {P Q : ℚ → Prop} {result : Except Signal Decimal} (h : Gives P result)
    {next : Decimal → Except Signal Decimal}
    (hnext : ∀ n c e, P (finite n c e).toRat → Gives Q (next (finite n c e))) :
    Gives Q (result >>= next) := by
  rcases h with rfl | ⟨n, c, e, rfl, hnumber⟩
  · exact .inl rfl
  · exact hnext n c e hnumber

/-- A number that can be written with the digits that are kept is not changed. -/
theorem settle_exact {place : Int} (hplace : lowest ≤ place)
    (h : FitsAt place (finite negative c e).toRat) :
    Gives (· = (finite negative c e).toRat) (settle negative c e) := by
  by_cases hc : c = 0
  · subst hc
    exact .inr ⟨_, _, _, settle_zero negative e, by rw [toRat_zero, toRat_zero]⟩
  have hlast : lastPlace c e ≤ e ∨ lastPlace c e ≤ place := by
    have hleading := leading_lt_of_fitsAt hc h
    unfold lastPlace
    omega
  -- Only zeros stand behind the last place, so nothing is lost.
  have hdvd : 10 ^ (lastPlace c e - e).toNat ∣ c := by
    rcases hlast with hlast | hlast
    · rw [Int.toNat_of_nonpos (by omega), pow_zero]
      exact Nat.one_dvd c
    · exact dvd_of_fitsAt h hlast
  refine (settle_of_ne_zero negative hc e).imp_right fun hsettle => ⟨_, _, _, hsettle, ?_⟩
  have hle : e ≤ lastPlace c e := (le_max_left ..).trans (le_max_right ..)
  simp only [toRat]
  rw [← cast_mul_tenTo hle, tenTo_eq_pow, shifted_of_dvd negative hdvd]

/-- Any number at all is settled to a number, unless it is too large. -/
theorem settle_gives (negative : Bool) (c : Nat) (e : Int) :
    Gives (fun _ => True) (settle negative c e) := by
  by_cases hc : c = 0
  · subst hc
    exact .inr ⟨_, _, _, settle_zero negative e, trivial⟩
  · exact (settle_of_ne_zero negative hc e).imp_right fun hsettle => ⟨_, _, _, hsettle, trivial⟩

end Settle

section Exact

variable (n m : Bool) (c d : Nat) (e f : Int) {place : Int}

/-- The product of the digits, at the sum of the exponents, is the product. -/
theorem toRat_mul :
    (finite (n != m) (c * d) (e + f)).toRat = (finite n c e).toRat * (finite m d f).toRat := by
  rw [toRat_eq_signed, toRat_eq_signed, toRat_eq_signed, signed_mul, Int.cast_mul,
    zpow_add₀ (by norm_num)]
  ring

theorem toRat_div : (finite n c e).toRat / (finite m d f).toRat =
    (if n != m then -1 else 1) * ((c : ℚ) * (10 : ℚ) ^ e / ((d : ℚ) * (10 : ℚ) ^ f)) := by
  cases n <;> cases m <;> simp [toRat, neg_div, div_neg]

/-- A product is what it should be if it can be written with the digits that are kept. -/
theorem mul_exact (hplace : lowest ≤ place)
    (h : FitsAt place ((finite n c e).toRat * (finite m d f).toRat)) :
    Gives (· = (finite n c e).toRat * (finite m d f).toRat)
      ((finite n c e).mul (finite m d f)) := by
  rw [← toRat_mul] at h ⊢
  exact settle_exact hplace h

/-- The opposite has the opposite value. -/
theorem toRat_neg : (finite n c e).neg.toRat = -(finite n c e).toRat := by
  cases n <;> simp [neg, toRat]

/-- A sum of numbers that can both be written to one place is formed digit by digit. -/
theorem aligned_of_fitsAt {n m : Bool} {c d : Nat} {e f : Int} (hc : c ≠ 0) (hd : d ≠ 0)
    (ha : FitsAt place (finite n c e).toRat) (hb : FitsAt place (finite m d f).toRat) :
    aligned c e d f = (c * tenTo (e - f).toNat, d, f) := by
  have hplace := le_leading_of_fitsAt hd hb
  have hcounted : ¬ leading d f < e + min (-1) ((digitCount c : Int) - precision - 2) := by
    have hleading := leading_lt_of_fitsAt hc ha
    unfold leading at hleading
    omega
  unfold aligned
  simp only [if_neg hcounted]

/-- A sum is what it should be if both numbers and the sum itself can be written to one place. -/
theorem addAligned_exact {n m : Bool} {c d : Nat} {e f : Int} (hc : c ≠ 0) (hd : d ≠ 0)
    (hle : f ≤ e) (hplace : lowest ≤ place) (ha : FitsAt place (finite n c e).toRat)
    (hb : FitsAt place (finite m d f).toRat)
    (h : FitsAt place ((finite n c e).toRat + (finite m d f).toRat)) :
    Gives (· = (finite n c e).toRat + (finite m d f).toRat) (addAligned n c e m d f) := by
  let sum := signed n (c * tenTo (e - f).toNat) + signed m d
  have hsum : (finite (sum < 0) sum.natAbs f).toRat =
      (finite n c e).toRat + (finite m d f).toRat := by
    -- The digits of the larger exponent are raised to the smaller one.
    have hraised : (signed n (c * tenTo (e - f).toNat) : ℚ) * (10 : ℚ) ^ f =
        (finite n c e).toRat := by
      rw [← toRat_eq_signed]
      simp only [toRat]
      rw [cast_mul_tenTo hle]
    rw [toRat_eq_signed, signed_natAbs, Int.cast_add, add_mul, hraised, ← toRat_eq_signed]
  unfold addAligned
  rw [aligned_of_fitsAt hc hd ha hb, ← hsum]
  rw [← hsum] at h
  exact settle_exact hplace h

/-- A sum is exact if both numbers and the sum itself fit at a place. -/
theorem add_exact (hplace : lowest ≤ place) (ha : FitsAt place (finite n c e).toRat)
    (hb : FitsAt place (finite m d f).toRat)
    (h : FitsAt place ((finite n c e).toRat + (finite m d f).toRat)) :
    Gives (· = (finite n c e).toRat + (finite m d f).toRat)
      ((finite n c e).add (finite m d f)) := by
  -- A zero leaves the other number to be settled by itself.
  by_cases hc : c = 0
  · subst hc
    rw [toRat_zero, zero_add]
    by_cases hd : d = 0
    · subst hd
      exact .inr ⟨_, _, _, rfl, by rw [toRat_zero, toRat_zero]⟩
    · have hsettle : (finite n 0 e).add (finite m d f) = settle m d f := by simp [add, hd]
      rw [hsettle]
      exact settle_exact hplace hb
  by_cases hd : d = 0
  · subst hd
    have hsettle : (finite n c e).add (finite m 0 f) = settle n c e := by simp [add, hc]
    rw [toRat_zero, add_zero, hsettle]
    exact settle_exact hplace ha
  by_cases hle : f ≤ e
  · have haligned : (finite n c e).add (finite m d f) = addAligned n c e m d f := by
      simp [add, hc, hd, hle]
    rw [haligned]
    exact addAligned_exact hc hd hle hplace ha hb h
  · have haligned : (finite n c e).add (finite m d f) = addAligned m d f n c e := by
      simp [add, hc, hd, hle]
    rw [add_comm] at h ⊢
    rw [haligned]
    exact addAligned_exact hd hc (by omega) hplace hb ha h

/-- A difference is a sum with the other sign. -/
theorem sub_exact (hplace : lowest ≤ place) (ha : FitsAt place (finite n c e).toRat)
    (hb : FitsAt place (finite m d f).toRat)
    (h : FitsAt place ((finite n c e).toRat - (finite m d f).toRat)) :
    Gives (· = (finite n c e).toRat - (finite m d f).toRat)
      ((finite n c e).sub (finite m d f)) := by
  have hneg := toRat_neg m d f
  rw [sub_eq_add_neg, ← hneg] at h ⊢
  refine add_exact n (!m) c d e f hplace ha ?_ h
  rcases hb with ⟨k, hk, heq⟩
  refine ⟨-k, by rwa [Int.natAbs_neg], ?_⟩
  change _ = (finite m d f).neg.toRat
  rw [hneg, ← heq, Int.cast_neg, neg_mul]

/-- A sum is a number, unless it is too large. -/
theorem addAligned_gives : Gives (fun _ => True) (addAligned n c e m d f) := by
  unfold addAligned
  rcases aligned c e d f with ⟨c', d', low⟩
  exact settle_gives ..

/-- A difference of finite numbers is a number, unless it is too large. -/
theorem sub_gives : Gives (fun _ => True) ((finite n c e).sub (finite m d f)) := by
  change Gives _ (add (finite n c e) (finite (!m) d f))
  unfold add
  dsimp only
  split_ifs
  · exact settle_gives ..
  · exact settle_gives ..
  · exact settle_gives ..
  · exact addAligned_gives ..
  · exact addAligned_gives ..

/-- A quotient of finite numbers is a number, unless it is too large. -/
theorem div_gives : Gives (fun _ => True) ((finite n c e).div (finite m d f)) := by
  unfold div
  dsimp only
  split_ifs
  · exact settle_gives ..
  · exact settle_gives ..
  · exact settle_gives ..

end Exact

section Quotient

/-- Whether an integer is as good as a number when its last digit is rounded off: it is that number,
or it is less than one away from it and its last digit is no 0 and no 5, so that the number is on
the same side of each multiple and of each half. -/
def StandsFor (q : Nat) (t : ℚ) : Prop :=
  t = q ∨ (|(q : ℚ) - t| < 1 ∧ q % 5 ≠ 0)

/-- A quotient without its fraction stands for the whole quotient, once its last digit tells that
there is a fraction. -/
theorem standsFor_quotient (top : Nat) {bottom : Nat} (hbottom : bottom ≠ 0) :
    StandsFor
      (if top % bottom != 0 && top / bottom % 5 == 0 then top / bottom + 1 else top / bottom)
      ((top : ℚ) / bottom) := by
  have hpos : (0 : ℚ) < bottom := by exact_mod_cast Nat.pos_of_ne_zero hbottom
  have hsplit : (top : ℚ) / bottom = (top / bottom : ℕ) + ((top % bottom : ℕ) : ℚ) / bottom := by
    rw [div_eq_iff hpos.ne', add_mul, div_mul_cancel₀ _ hpos.ne']
    exact_mod_cast (Nat.div_add_mod' top bottom).symm
  have hfraction : ((top % bottom : ℕ) : ℚ) / bottom < 1 := by
    rw [div_lt_one hpos]
    exact_mod_cast Nat.mod_lt top (Nat.pos_of_ne_zero hbottom)
  by_cases hrest : top % bottom = 0
  · rw [hrest, Nat.cast_zero, zero_div, add_zero] at hsplit
    exact .inl (by simpa [hrest] using hsplit)
  have hfraction' : 0 < ((top % bottom : ℕ) : ℚ) / bottom :=
    div_pos (by exact_mod_cast Nat.pos_of_ne_zero hrest) hpos
  right
  rw [hsplit]
  -- A digit of zero or five would be taken for a tie, so a rest behind it makes it one more.
  by_cases hfive : top / bottom % 5 = 0
  · rw [if_pos (by simp [hrest, hfive])]
    refine ⟨?_, by omega⟩
    rw [abs_lt, Nat.cast_succ]
    constructor <;> linarith
  · rw [if_neg (by simp [hfive])]
    refine ⟨?_, hfive⟩
    rw [abs_lt]
    constructor <;> linarith

variable {q count : Nat} {t : ℚ}

/-- An integer that is no half is far enough from one for the number to be on the same side. -/
theorem lt_half_of_close (hlt : |(q : ℚ) - t| < 1) (hdigit : q % 5 ≠ 0) (negative : Bool)
    (hcount : count ≠ 0) :
    2 * |(Rounding.halfEven.shifted negative q count : ℚ) * (10 : ℚ) ^ count - t| <
      (10 : ℚ) ^ count := by
  have hclose := shifted_close negative q count
  have hdist := abs_sub_natCast (Rounding.halfEven.shifted negative q count) q count
  have hfive : 5 ∣ 10 ^ count := dvd_pow (by decide) hcount
  have heven : 2 ∣ 10 ^ count := dvd_pow (by decide) hcount
  have hmultiple := Dvd.dvd.mul_left hfive (Rounding.halfEven.shifted negative q count)
  -- The last digit is neither zero nor five, so the quotient is no tie, and is a digit away from
  -- one.
  have hnear : 2 * ((q : Int) - (Rounding.halfEven.shifted negative q count * 10 ^ count : ℕ)).natAbs
      + 2 ≤ 10 ^ count := by
    generalize Rounding.halfEven.shifted negative q count * 10 ^ count = k at *
    omega
  have hnear' : 2 * |(Rounding.halfEven.shifted negative q count : ℚ) * (10 : ℚ) ^ count - q| + 2 ≤
      (10 : ℚ) ^ count := by
    rw [hdist]
    exact_mod_cast hnear
  have htriangle :=
    abs_sub_le ((Rounding.halfEven.shifted negative q count : ℚ) * (10 : ℚ) ^ count) q t
  linarith

/-- Rounding the integer rounds the number to nearest. -/
theorem StandsFor.close (h : StandsFor q t) (negative : Bool) (hcount : count ≠ 0) :
    2 * |(Rounding.halfEven.shifted negative q count : ℚ) * (10 : ℚ) ^ count - t| ≤
      (10 : ℚ) ^ count := by
  rcases h with rfl | ⟨hlt, hdigit⟩
  · rw [abs_sub_natCast]
    exact_mod_cast shifted_close negative q count
  · exact (lt_half_of_close hlt hdigit negative hcount).le

/-- The number is in the middle of two multiples only if it is the integer. -/
theorem StandsFor.even (h : StandsFor q t) (negative : Bool) (hcount : count ≠ 0)
    (htie : 2 * |(Rounding.halfEven.shifted negative q count : ℚ) * (10 : ℚ) ^ count - t| =
      (10 : ℚ) ^ count) : 2 ∣ Rounding.halfEven.shifted negative q count := by
  rcases h with rfl | ⟨hlt, hdigit⟩
  · rw [abs_sub_natCast] at htie
    exact Nat.dvd_of_mod_eq_zero (shifted_even negative q count (by exact_mod_cast htie))
  · exact absurd htie (lt_half_of_close hlt hdigit negative hcount).ne

/-- The integer has as many digits before the point as the number. -/
theorem StandsFor.between (h : StandsFor q t) (hdigits : 10 ≤ q) :
    (10 : ℚ) ^ (digitCount q - 1) ≤ t ∧ t < (10 : ℚ) ^ digitCount q := by
  have hle := ten_pow_pred_digitCount_le (by omega : q ≠ 0)
  have hlt := lt_ten_pow_digitCount q
  rcases h with rfl | ⟨hclose, hdigit⟩
  · exact ⟨by exact_mod_cast hle, by exact_mod_cast hlt⟩
  have hmore : ¬ digitCount q ≤ 1 := fun hone => by
    have hfew := (digitCount_le_iff Nat.one_pos).mp hone
    omega
  -- A power of ten ends in a zero, which the last digit does not.
  have hfive : 5 ∣ 10 ^ (digitCount q - 1) := dvd_pow (by decide) (by omega)
  have hle' : 10 ^ (digitCount q - 1) + 1 ≤ q := by omega
  have hlower : ((10 : ℚ) ^ (digitCount q - 1)) + 1 ≤ q := by exact_mod_cast hle'
  have hupper : (q : ℚ) + 1 ≤ (10 : ℚ) ^ digitCount q := by exact_mod_cast hlt
  rw [abs_lt] at hclose
  constructor <;> linarith

/-- With zeros behind one of two coefficients, their quotient is that of the numbers at a lower or
higher place. -/
theorem quotient_shifted (c d : Nat) (e f shift : Int) :
    (c : ℚ) * (10 : ℚ) ^ e / ((d : ℚ) * (10 : ℚ) ^ f) / (10 : ℚ) ^ (e - f - shift) =
      ((c * tenTo shift.toNat : ℕ) : ℚ) / ((d * tenTo (-shift).toNat : ℕ) : ℚ) := by
  have hcast (count : Nat) : (tenTo count : ℚ) = (10 : ℚ) ^ (count : Int) := by
    rw [tenTo_eq_pow, zpow_natCast]
    push_cast
    rfl
  have hshift : (shift.toNat : Int) - ((-shift).toNat : Int) = shift := by omega
  rw [Nat.cast_mul, Nat.cast_mul, hcast, hcast, mul_div_mul_comm, mul_div_mul_comm,
    ← zpow_sub₀ (by norm_num), ← zpow_sub₀ (by norm_num), mul_div_assoc,
    ← zpow_sub₀ (by norm_num), hshift]
  congr 2
  omega

/-- If as many zeros are added as division adds, the quotient has one digit more than are kept. -/
theorem ten_pow_precision_le_quotient {c d : Nat} (hc : c ≠ 0) (hd : d ≠ 0) {shift : Int}
    (hshift : shift = (digitCount d : Int) - digitCount c + precision + 1) :
    10 ^ precision ≤ c * tenTo shift.toNat / (d * tenTo (-shift).toNat) := by
  have hbottom : 0 < d * tenTo (-shift).toNat :=
    Nat.mul_pos (Nat.pos_of_ne_zero hd) (Nat.pow_pos (by decide))
  have hcount := digitCount_pos c
  -- The shift is chosen so that the numerator has this many digits more than the denominator.
  have hexponent : precision + (digitCount d + (-shift).toNat) =
      digitCount c - 1 + shift.toNat := by omega
  rw [Nat.le_div_iff_mul_le hbottom]
  calc 10 ^ precision * (d * tenTo (-shift).toNat)
      ≤ 10 ^ precision * (10 ^ digitCount d * 10 ^ (-shift).toNat) :=
        Nat.mul_le_mul_left _ (Nat.mul_le_mul_right _ (lt_ten_pow_digitCount d).le)
    _ = 10 ^ (digitCount c - 1) * 10 ^ shift.toNat := by
        rw [← Nat.pow_add, ← Nat.pow_add, ← Nat.pow_add, hexponent]
    _ ≤ c * tenTo shift.toNat := Nat.mul_le_mul_right _ (ten_pow_pred_digitCount_le hc)

/-- The integer that a quotient is settled from stands for the quotient, and has more digits than
are kept. -/
theorem exists_standsFor {c d : Nat} (hc : c ≠ 0) (hd : d ≠ 0) (n m : Bool) (e f : Int) :
    ∃ q low, 10 ^ precision ≤ q ∧
      StandsFor q ((c : ℚ) * (10 : ℚ) ^ e / ((d : ℚ) * (10 : ℚ) ^ f) / (10 : ℚ) ^ low) ∧
      (finite n c e).div (finite m d f) = settle (n != m) q low := by
  let shift : Int := (digitCount d : Int) - digitCount c + precision + 1
  let top := c * tenTo shift.toNat
  let bottom := d * tenTo (-shift).toNat
  have hbottom : bottom ≠ 0 := Nat.mul_ne_zero hd (Nat.pow_pos (by decide)).ne'
  -- The dividend is raised until the quotient has more digits than are kept.
  have hlarge : 10 ^ precision ≤ top / bottom := ten_pow_precision_le_quotient hc hd rfl
  refine ⟨if top % bottom != 0 && top / bottom % 5 == 0 then top / bottom + 1 else top / bottom,
    e - f - shift, ?_, ?_, ?_⟩
  · split
    · omega
    · exact hlarge
  · rw [quotient_shifted]
    exact standsFor_quotient top hbottom
  · exact if_neg (by simpa using hc)

/-- The integer has the leading digit of the number, wherever the digits before the point end. -/
theorem StandsFor.between_place {x : ℚ} {low : Int} (h : StandsFor q (x / (10 : ℚ) ^ low))
    (hdigits : 10 ≤ q) :
    (10 : ℚ) ^ leading q low ≤ x ∧ x < (10 : ℚ) ^ (leading q low + 1) := by
  have hten : (0 : ℚ) < (10 : ℚ) ^ low := zpow_pos (by norm_num) low
  have hcount := digitCount_pos q
  -- The same at the exponent of the last digit.
  have hlower : ((digitCount q - 1 : ℕ) : Int) + low = leading q low := by
    unfold leading
    omega
  have hupper : (digitCount q : Int) + low = leading q low + 1 := by
    unfold leading
    omega
  have hleading := h.between hdigits
  rwa [le_div_iff₀ hten, div_lt_iff₀ hten, ← zpow_natCast, ← zpow_natCast,
    ← zpow_add₀ (by norm_num), ← zpow_add₀ (by norm_num), hlower, hupper] at hleading

/-- The same for rounding, at a place behind which there is at least one digit. -/
theorem StandsFor.nearestEven {x : ℚ} {low place : Int} (h : StandsFor q (x / (10 : ℚ) ^ low))
    (negative : Bool) (hplace : low < place) :
    NearestEven place x (Rounding.halfEven.shifted negative q (place - low).toNat) := by
  have hcount : (place - low).toNat ≠ 0 := by omega
  refine nearestBy_of_units hplace.le (h.close negative hcount) fun htie => ?_
  exact_mod_cast h.even negative hcount htie

/-- A quotient is rounded to nearest at the last of the digits that are kept, counted from the
leading digit of the quotient itself. -/
theorem div_close {c d : Nat} (hc : c ≠ 0) (hd : d ≠ 0) (n m : Bool) (e f : Int) :
    let x : ℚ := (c : ℚ) * (10 : ℚ) ^ e / ((d : ℚ) * (10 : ℚ) ^ f)
    ∃ p : Int, (10 : ℚ) ^ p ≤ x ∧ x < (10 : ℚ) ^ (p + 1) ∧
      let place := max lowest (p - (precision - 1))
      ((finite n c e).div (finite m d f) = .error .overflow ∨
        ∃ k : Nat, (finite n c e).div (finite m d f) = .ok (finite (n != m) k place) ∧
          2 * |(k : ℚ) * (10 : ℚ) ^ place - x| ≤ (10 : ℚ) ^ place) := by
  intro x
  rcases exists_standsFor hc hd n m e f with ⟨q, low, hq, hstands, hdiv⟩
  -- The quotient has more digits than are kept, so it is cut at its place.
  have hdigits : precision < digitCount q := by
    by_contra hfew
    have hlt := (digitCount_le_iff (by decide)).mp (not_lt.mp hfew)
    omega
  have hten : 10 ≤ q := le_trans (by decide) hq
  have hplace : lastPlace q low = max lowest (leading q low - (precision - 1)) := by
    unfold lastPlace leading
    omega
  have hlow : low < lastPlace q low := by
    unfold lastPlace leading
    omega
  have hleading := hstands.between_place hten
  refine ⟨leading q low, hleading.1, hleading.2, ?_⟩
  rw [hdiv, ← hplace]
  exact (settle_of_ne_zero _ (by omega) low).imp_right fun hsettle =>
    ⟨_, hsettle, by exact_mod_cast (hstands.nearestEven (n != m) hlow).close⟩

end Quotient

section Floor

/-- Without its last digits, and away from zero for a negative number that loses any, a coefficient
is a quotient rounded down. -/
theorem signed_shifted_floor (negative : Bool) (c count : Nat) :
    signed negative (Rounding.floor.shifted negative c count) =
      signed negative c / (10 ^ count : ℕ) := by
  have hpos : 0 < 10 ^ count := Nat.pow_pos (by decide)
  rw [shifted_eq]
  generalize 10 ^ count = unit at *
  cases negative with
  | false => exact Int.natCast_div c unit
  | true =>
      have hsign : (unit : Int).sign = 1 := Int.sign_eq_one_of_pos (by exact_mod_cast hpos)
      change -(_ : Int) = -(c : Int) / unit
      -- Below zero, a rest makes the quotient one less.
      have hdvd : (unit : Int) ∣ c ↔ c % unit = 0 :=
        Int.natCast_dvd_natCast.trans Nat.dvd_iff_mod_eq_zero
      rw [Int.neg_ediv, hsign, ← Int.natCast_div]
      by_cases hrest : c % unit = 0
      · rw [if_pos (hdvd.mpr hrest), if_neg (by simp [Rounding.isUp, hrest]), Int.sub_zero]
      · rw [if_neg (mt hdvd.mp hrest), if_pos (by simp [Rounding.isUp, hrest])]
        omega

/-- The floor as a decimal is the floor of the number. -/
theorem toIntegral_floor (n : Bool) (c : Nat) (e : Int) :
    ∃ m k f, (finite n c e).toIntegral .floor = finite m k f ∧
      (finite m k f).toRat = ⌊(finite n c e).toRat⌋ := by
  unfold toIntegral
  by_cases he : 0 ≤ e
  · refine ⟨n, c, e, if_pos he, ?_⟩
    rw [toRat_of_nonneg n c he, Int.floor_intCast]
  · refine ⟨n, Rounding.floor.shifted n c (-e).toNat, 0, if_neg he, ?_⟩
    rw [toRat_of_neg n c he, Rat.floor_intCast_div_natCast, ← signed_shifted_floor,
      toRat_eq_signed, zpow_zero, mul_one]

end Floor

end Decimal

end Liquid
