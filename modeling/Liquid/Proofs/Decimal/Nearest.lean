import Liquid.Proofs.Decimal.Integer
import Mathlib.Tactic.Linarith

/-!
# Nearest Multiples

What a number is rounded to: the multiple of a power of ten that is nearest to
it. The two roundings to nearest differ in the middle of two multiples only, and
there either of them chooses one. So each number has one nearest multiple, and
whatever is known to be one is what rounding gives, however it was computed.

A coefficient without its last digits counts such a multiple. This is all that
is used of it.

## Main definitions

* `Decimal.NearestBy`: Nearest multiples, with a condition for the middle.
* `Decimal.NearestEven`, `Decimal.NearestAway`: The two roundings to nearest.

## Theorems

* `Decimal.NearestEven.unique`, `Decimal.NearestAway.unique`: There is one
  nearest multiple.
* `Decimal.nearestBy_of_units`: It does not matter what is counted in.
* `Decimal.nearestEven_shifted`, `Decimal.nearestAway_shifted`: Coefficients
  that have lost digits count nearest multiples.
-/

namespace Liquid

namespace Decimal

/-- Whether an integer counts the multiple of a power of ten that is nearest to a number. Of two
equally near ones the condition says which. -/
structure NearestBy (condition : Int → Prop) (place : Int) (x : ℚ) (k : Int) : Prop where
  close : 2 * |(k : ℚ) * (10 : ℚ) ^ place - x| ≤ (10 : ℚ) ^ place
  tie : 2 * |(k : ℚ) * (10 : ℚ) ^ place - x| = (10 : ℚ) ^ place → condition k

/-- The nearest multiple, of two equally near ones that with the even last digit. -/
def NearestEven (place : Int) (x : ℚ) (k : Int) : Prop :=
  NearestBy (2 ∣ ·) place x k

/-- The nearest multiple, of two equally near ones that farther from zero. -/
def NearestAway (place : Int) (x : ℚ) (k : Int) : Prop :=
  NearestBy (fun k => |x| < |(k : ℚ) * (10 : ℚ) ^ place|) place x k

section NearestBy

variable {condition : Int → Prop} {place k l : Int} {x : ℚ}

/-- A multiple is nearest to itself. -/
theorem nearestBy_self (place k : Int) :
    NearestBy condition place ((k : ℚ) * (10 : ℚ) ^ place) k := by
  have hten : (0 : ℚ) < (10 : ℚ) ^ place := zpow_pos (by norm_num) place
  constructor
  · rw [sub_self, abs_zero, mul_zero]
    exact hten.le
  · intro htie
    rw [sub_self, abs_zero, mul_zero] at htie
    exact absurd htie hten.ne

/-- Two nearest multiples are one, unless the condition chooses both neighbours of a half. -/
theorem NearestBy.unique (h : NearestBy condition place x k) (h' : NearestBy condition place x l)
    (hone : ∀ j : Int, 2 * x = 2 * ((j : ℚ) * (10 : ℚ) ^ place) + (10 : ℚ) ^ place →
      ¬(condition j ∧ condition (j + 1))) : k = l := by
  wlog hlt : k ≤ l generalizing k l
  · exact (this h' h (by omega)).symm
  have hten : (0 : ℚ) < (10 : ℚ) ^ place := zpow_pos (by norm_num) place
  have hk := (abs_le.mp ((le_div_iff₀' (by norm_num : (0 : ℚ) < 2)).mpr h.close)).1
  have hl := (abs_le.mp ((le_div_iff₀' (by norm_num : (0 : ℚ) < 2)).mpr h'.close)).2
  by_contra hne
  -- Different multiples are a unit apart, and each is at most half a unit away from the number.
  have hstep : ((k + 1 : Int) : ℚ) * (10 : ℚ) ^ place ≤ (l : ℚ) * (10 : ℚ) ^ place :=
    mul_le_mul_of_nonneg_right (by exact_mod_cast (by omega : k + 1 ≤ l)) hten.le
  push_cast at hstep
  rw [add_mul, one_mul] at hstep
  -- The number is in the middle, and so the second is next to the first.
  have hhalf : 2 * x = 2 * ((k : ℚ) * (10 : ℚ) ^ place) + (10 : ℚ) ^ place := by linarith
  have hnext : l = k + 1 := by
    have hle : (l : ℚ) * (10 : ℚ) ^ place ≤ ((k + 1 : Int) : ℚ) * (10 : ℚ) ^ place := by
      push_cast
      linarith
    have hle' : l ≤ k + 1 := by exact_mod_cast (mul_le_mul_iff_left₀ hten).mp hle
    omega
  subst hnext
  refine hone k hhalf ⟨h.tie ?_, h'.tie ?_⟩
  · rw [abs_of_nonpos (by linarith)]
    linarith
  · push_cast
    rw [abs_of_nonneg (by linarith)]
    linarith

/-- Of two nearest multiples, an even one is taken, so there are not two. -/
theorem NearestEven.unique (h : NearestEven place x k) (h' : NearestEven place x l) : k = l :=
  NearestBy.unique h h' fun j _ hboth => by
    have heven := hboth.1
    have heven' := hboth.2
    omega

/-- Of two nearest multiples, the one further from zero is taken, so there are not two. -/
theorem NearestAway.unique (h : NearestAway place x k) (h' : NearestAway place x l) : k = l := by
  refine NearestBy.unique h h' fun j hhalf hboth => ?_
  have hten : (0 : ℚ) < (10 : ℚ) ^ place := zpow_pos (by norm_num) place
  rcases hboth with ⟨hbelow, habove⟩
  push_cast at habove
  -- One of the neighbours is nearer to zero than the middle.
  by_cases hj : 0 ≤ j
  · have hmultiple : 0 ≤ (j : ℚ) * (10 : ℚ) ^ place := mul_nonneg (by exact_mod_cast hj) hten.le
    rw [abs_of_nonneg hmultiple, abs_of_nonneg (by linarith)] at hbelow
    linarith
  · have hmultiple : ((j : ℚ) + 1) * (10 : ℚ) ^ place ≤ 0 :=
      mul_nonpos_of_nonpos_of_nonneg (by exact_mod_cast (by omega : j + 1 ≤ 0)) hten.le
    rw [abs_of_nonpos hmultiple, abs_of_nonpos (by linarith)] at habove
    linarith

/-- A sign in front of both changes nothing. -/
theorem NearestBy.neg {condition' : Int → Prop} (h : NearestBy condition place x k)
    (hcondition : condition k → condition' (-k)) : NearestBy condition' place (-x) (-k) := by
  have hdist : |((-k : Int) : ℚ) * (10 : ℚ) ^ place - -x| = |(k : ℚ) * (10 : ℚ) ^ place - x| := by
    rw [← abs_neg]
    congr 1
    push_cast
    ring
  exact ⟨hdist ▸ h.close, fun htie => hcondition (h.tie (hdist ▸ htie))⟩

/-- The condition may depend on the number, which has the sign in front of it afterwards. -/
theorem NearestBy.signed (condition : ℚ → Int → Prop) {k : Nat}
    (h : NearestBy (condition x) place x k) (hneg : condition x k → condition (-x) (-k))
    (negative : Bool) :
    NearestBy (condition ((if negative then -1 else 1) * x)) place
      ((if negative then -1 else 1) * x) (signed negative k) := by
  cases negative with
  | false => simpa [Decimal.signed] using h
  | true => simpa [Decimal.signed] using h.neg hneg

/-- What is nearest to a number is nearest to its opposite, with the other sign. -/
theorem NearestEven.signed {k : Nat} (h : NearestEven place x k) (negative : Bool) :
    NearestEven place ((if negative then -1 else 1) * x) (signed negative k) :=
  NearestBy.signed (fun _ k => 2 ∣ k) h Int.dvd_neg.mpr negative

theorem NearestAway.signed {k : Nat} (h : NearestAway place x k) (negative : Bool) :
    NearestAway place ((if negative then -1 else 1) * x) (signed negative k) := by
  refine NearestBy.signed (fun x k => |x| < |(k : ℚ) * (10 : ℚ) ^ place|) h ?_ negative
  intro haway
  push_cast
  rwa [neg_mul, abs_neg, abs_neg]

end NearestBy

section Shifted

variable {place e : Int} {c k : Nat}

/-- What is nearest can be told in units of a lower place. -/
theorem nearestBy_of_units {condition : Int → Prop} {low : Int} {x : ℚ} (hplace : low ≤ place)
    (hclose : 2 * |(k : ℚ) * (10 : ℚ) ^ (place - low).toNat - x / (10 : ℚ) ^ low| ≤
      (10 : ℚ) ^ (place - low).toNat)
    (htie : 2 * |(k : ℚ) * (10 : ℚ) ^ (place - low).toNat - x / (10 : ℚ) ^ low| =
      (10 : ℚ) ^ (place - low).toNat → condition k) :
    NearestBy condition place x k := by
  have hten : (0 : ℚ) < (10 : ℚ) ^ low := zpow_pos (by norm_num) low
  have hsplit : (10 : ℚ) ^ place = (10 : ℚ) ^ (place - low).toNat * (10 : ℚ) ^ low := by
    rw [← zpow_natCast, ← zpow_add₀ (by norm_num)]
    congr 1
    omega
  -- Distances scale with the unit, and so does the bound on them.
  have hscaled : 2 * |((k : Int) : ℚ) * (10 : ℚ) ^ place - x| =
      2 * |(k : ℚ) * (10 : ℚ) ^ (place - low).toNat - x / (10 : ℚ) ^ low| * (10 : ℚ) ^ low := by
    rw [mul_assoc, ← abs_of_pos hten, ← abs_mul, abs_of_pos hten, sub_mul,
      div_mul_cancel₀ _ hten.ne', hsplit, mul_assoc, Int.cast_natCast]
  constructor
  · rw [hscaled, hsplit]
    exact mul_le_mul_of_nonneg_right hclose hten.le
  · intro heq
    rw [hscaled, hsplit] at heq
    exact htie (mul_right_cancel₀ hten.ne' heq)

/-- The distance of two integers as rational numbers. -/
theorem abs_sub_natCast (k q count : Nat) :
    |(k : ℚ) * (10 : ℚ) ^ count - q| = (((q : Int) - (k * 10 ^ count : ℕ)).natAbs : ℚ) := by
  rw [Nat.cast_natAbs, Int.cast_abs, abs_sub_comm]
  push_cast
  rfl

/-- Of a number that is written with a coefficient, what is nearest is told by the coefficients. -/
theorem nearestBy_of_coefficients {condition : Int → Prop} (hplace : e ≤ place)
    (hclose : 2 * ((c : Int) - (k * 10 ^ (place - e).toNat : ℕ)).natAbs ≤ 10 ^ (place - e).toNat)
    (htie : 2 * ((c : Int) - (k * 10 ^ (place - e).toNat : ℕ)).natAbs = 10 ^ (place - e).toNat →
      condition k) :
    NearestBy condition place ((c : ℚ) * (10 : ℚ) ^ e) k := by
  have hunits : (c : ℚ) * (10 : ℚ) ^ e / (10 : ℚ) ^ e = c :=
    mul_div_cancel_right₀ _ (zpow_pos (by norm_num) e).ne'
  refine nearestBy_of_units hplace ?_ fun heq => htie ?_
  · rw [hunits, abs_sub_natCast]
    exact_mod_cast hclose
  · rw [hunits, abs_sub_natCast] at heq
    exact_mod_cast heq

/-- The digits that are left make the nearest multiple, of two equally near ones the even one. -/
theorem nearestEven_shifted (negative : Bool) (c : Nat) (hplace : e ≤ place) :
    NearestEven place (finite negative c e).toRat
      (signed negative (Rounding.halfEven.shifted negative c (place - e).toNat)) := by
  refine NearestEven.signed (nearestBy_of_coefficients hplace ?_ ?_) negative
  · exact shifted_close negative c _
  · intro htie
    exact_mod_cast Nat.dvd_of_mod_eq_zero (shifted_even negative c _ htie)

/-- Where a half goes up, the digits that are left make the nearest multiple too, of two equally
near ones the greater one. -/
theorem shifted_halfUp (negative : Bool) (c count : Nat) :
    let k := Rounding.halfUp.shifted negative c count
    2 * ((c : Int) - (k * 10 ^ count : ℕ)).natAbs ≤ 10 ^ count ∧
      (2 * ((c : Int) - (k * 10 ^ count : ℕ)).natAbs = 10 ^ count → c < k * 10 ^ count) := by
  intro k
  have hrest := Nat.mod_lt c (Nat.pow_pos (by decide) : 0 < 10 ^ count)
  have hsplit := Nat.div_add_mod' c (10 ^ count)
  -- The quotient is raised when the rest is half of the unit or more.
  have hk : k =
      if 10 ^ count ≤ 2 * (c % 10 ^ count) then c / 10 ^ count + 1 else c / 10 ^ count := by
    simp only [k, shifted_eq, Rounding.isUp, decide_eq_true_eq]
  generalize 10 ^ count = unit at *
  by_cases hup : unit ≤ 2 * (c % unit)
  · rw [if_pos hup] at hk
    have hnext : k * unit = c / unit * unit + unit := by rw [hk, Nat.succ_mul]
    omega
  · rw [if_neg hup] at hk
    rw [hk]
    omega

/-- The same in the rounding that takes a half away from zero. -/
theorem nearestAway_shifted (negative : Bool) (c : Nat) (hplace : e ≤ place) :
    NearestAway place (finite negative c e).toRat
      (signed negative (Rounding.halfUp.shifted negative c (place - e).toNat)) := by
  rcases shifted_halfUp negative c (place - e).toNat with ⟨hclose, haway⟩
  refine NearestAway.signed (nearestBy_of_coefficients hplace hclose fun htie => ?_) negative
  have hlt := haway htie
  generalize Rounding.halfUp.shifted negative c (place - e).toNat = k at *
  -- A greater coefficient is farther from zero.
  have hten : (0 : ℚ) < (10 : ℚ) ^ e := zpow_pos (by norm_num) e
  have hraised : ((k : Int) : ℚ) * (10 : ℚ) ^ place =
      ((k * 10 ^ (place - e).toNat : ℕ) : ℚ) * (10 : ℚ) ^ e := by
    rw [← tenTo_eq_pow, cast_mul_tenTo hplace, Int.cast_natCast]
  rw [abs_of_nonneg (magnitude_nonneg c e), hraised, abs_of_nonneg (magnitude_nonneg _ e)]
  exact mul_lt_mul_of_pos_right (by exact_mod_cast hlt) hten

end Shifted

end Decimal

end Liquid
