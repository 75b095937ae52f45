import Liquid.Proofs.Decimal.Correct

/-!
# Rounding at a Given Place

What becomes of a number that loses its digits behind a given place, or behind
the point, told by the number and not by the digits that it is written with: the
floor, the ceiling, the integer part, and the multiple that is nearest to it, a
half away from zero. The last may have no more digits than are kept; this is the
one way for it to fail at places that are not out of bounds.

## Main definitions

* `Decimal.towardZero`: The integer part.
* `Decimal.IsQuantized`: What a number is rounded to at a place.

## Theorems

* `Decimal.toIntegral_ceiling`: The ceiling of a decimal.
* `Decimal.truncated?_finite`: The integer part of a decimal.
* `Decimal.isIntegral_iff`: Which decimals are integers.
* `Decimal.quantize_isQuantized`: Rounding at a place.
* `Decimal.IsQuantized.matched`: A number is rounded at a place to one number.
-/

namespace Liquid

namespace Decimal

/-- The integer part of a number. -/
def towardZero (x : ℚ) : Int :=
  if x < 0 then ⌈x⌉ else ⌊x⌋

/-- Whether a result is what a number is rounded to at a place: the nearest multiple, of two equally
near ones that farther from zero, unless it has more digits than are kept. -/
def IsQuantized (place : Int) (x : ℚ) (result : Except Signal Decimal) : Prop :=
  ∃ k : Int, NearestAway place x k ∧
    if digitCount k.natAbs ≤ precision
    then ∃ n c, result = .ok (finite n c place) ∧ (finite n c place).toRat = k * (10 : ℚ) ^ place
    else result = .error .invalidOperation

section Integral

variable (n : Bool) (c : Nat) (e : Int)

/-- An integer is left as it is. -/
theorem towardZero_intCast (i : Int) : towardZero i = i := by
  unfold towardZero
  rw [Int.ceil_intCast, Int.floor_intCast, ite_self]

/-- Both signs are cut toward zero alike. -/
theorem towardZero_neg (x : ℚ) : towardZero (-x) = -towardZero x := by
  unfold towardZero
  rcases lt_trichotomy x 0 with hneg | rfl | hpos
  · rw [if_neg (by linarith), if_pos hneg, Int.floor_neg]
  · simp
  · rw [if_pos (by linarith), if_neg (by linarith), Int.ceil_neg]

/-- Of a number that is not negative the ceiling is the floor of its opposite. -/
theorem shifted_ceiling (count : Nat) :
    Rounding.ceiling.shifted n c count = Rounding.floor.shifted (!n) c count :=
  rfl

/-- The ceiling as a decimal is the ceiling of the number. -/
theorem toIntegral_ceiling :
    ∃ m k f, (finite n c e).toIntegral .ceiling = finite m k f ∧
      (finite m k f).toRat = ⌈(finite n c e).toRat⌉ := by
  rcases toIntegral_floor (!n) c e with ⟨m, k, f, hfloor, heq⟩
  -- Rounding up is rounding down on the other side of zero.
  have hneg : (finite n c e).toIntegral .ceiling = ((finite (!n) c e).toIntegral .floor).neg := by
    unfold toIntegral
    dsimp only
    rw [shifted_ceiling]
    split_ifs <;> simp [neg]
  have hopposite : (finite (!n) c e).toRat = -(finite n c e).toRat := toRat_neg n c e
  refine ⟨!m, k, f, by rw [hneg, hfloor]; rfl, ?_⟩
  rw [show finite (!m) k f = (finite m k f).neg from rfl, toRat_neg, heq, hopposite, Int.floor_neg]
  push_cast
  exact neg_neg _

/-- A coefficient without its last digits is the integer part of what it was. -/
theorem signed_div_eq_towardZero (count : Nat) :
    signed n (c / 10 ^ count) = towardZero ((signed n c : ℚ) / ((10 ^ count : ℕ) : ℚ)) := by
  have hfloor : towardZero ((c : ℚ) / ((10 ^ count : ℕ) : ℚ)) = (c / 10 ^ count : ℕ) := by
    unfold towardZero
    rw [if_neg (not_lt.mpr (by positivity)), ← Int.cast_natCast c, Rat.floor_intCast_div_natCast]
    rfl
  cases n with
  | false => exact hfloor.symm
  | true =>
      change -((c / 10 ^ count : ℕ) : Int) = towardZero (((-(c : Int) : Int) : ℚ) / _)
      rw [Int.cast_neg, neg_div, towardZero_neg, Int.cast_natCast, hfloor]

/-- The integer part of a decimal is that of the number. -/
theorem truncated?_finite :
    (finite n c e).truncated? = some (towardZero (finite n c e).toRat) := by
  unfold truncated?
  by_cases he : 0 ≤ e
  · dsimp only
    rw [if_pos he, toRat_of_nonneg n c he, towardZero_intCast]
  · dsimp only
    rw [if_neg he, toRat_of_neg n c he, ← signed_div_eq_towardZero]
    split
    · next hfew =>
        -- No digit is left.
        have hlt : c < 10 ^ (-e).toNat :=
          (lt_ten_pow_digitCount c).trans_le (Nat.pow_le_pow_right (by decide) hfew.le)
        rw [Nat.div_eq_of_lt hlt, signed_zero]
    · rfl

/-- Whether a decimal is an integer is a matter of the number. -/
theorem isIntegral_iff :
    (finite n c e).isIntegral = true ↔ ∃ i : Int, (finite n c e).toRat = i := by
  have hsame : (finite n c e).isIntegral = true ↔
      SameNumber (finite n c e) ((finite n c e).toIntegral .halfEven) := by
    rw [← compare_eq_eq_iff]
    simp [isIntegral, isFinite]
  rw [hsame]
  by_cases he : 0 ≤ e
  · have hself : (finite n c e).toIntegral .halfEven = finite n c e := if_pos he
    rw [hself]
    exact ⟨fun _ => ⟨_, toRat_of_nonneg n c he⟩, fun _ => ⟨rfl, rfl⟩⟩
  · have hnear := nearestEven_shifted n c (by omega : e ≤ 0)
    rw [zero_sub] at hnear
    have hrounded : (finite n c e).toIntegral .halfEven =
        finite n (Rounding.halfEven.shifted n c (-e).toNat) 0 := if_neg he
    have hnumber := toRat_eq_signed n (Rounding.halfEven.shifted n c (-e).toNat) 0
    rw [zpow_zero, mul_one] at hnumber
    rw [hrounded]
    constructor
    · intro h
      exact ⟨_, h.2.trans hnumber⟩
    · rintro ⟨i, hi⟩
      -- An integer is the one that is nearest to it, and so it is what is left.
      have hself : NearestEven 0 _ i := nearestBy_self 0 i
      rw [zpow_zero, mul_one, ← hi] at hself
      exact ⟨rfl, by rw [hnumber, ← hself.unique hnear, hi]⟩

theorem isZero_iff : (finite n c e).isZero = true ↔ (finite n c e).toRat = 0 := by
  have hzero : (finite n c e).isZero = true ↔ c = 0 := beq_iff_eq
  rw [hzero]
  constructor
  · rintro rfl
    exact toRat_zero n e
  · exact fun h => by_contra fun hc => toRat_finite_ne_zero n hc e h

end Integral

section Quantize

variable {n : Bool} {c : Nat} {e place k : Int}

/-- A number with its leading digit too far before a place has too many digits there. -/
theorem lt_digitCount_of_nearest {digits : Nat} (h : NearestAway place (finite n c e).toRat k)
    (hc : c ≠ 0) (hdigits : 0 < digits) (hleading : place + digits ≤ leading c e) :
    digits < digitCount k.natAbs := by
  have hten : (0 : ℚ) < (10 : ℚ) ^ place := zpow_pos (by norm_num) place
  have hlarge : (10 : ℚ) ^ digits * (10 : ℚ) ^ place ≤ |(finite n c e).toRat| := by
    rw [abs_toRat_finite, ← zpow_natCast, ← zpow_add₀ (by norm_num), add_comm]
    exact (zpow_le_zpow_right₀ (by norm_num) hleading).trans (ten_zpow_leading_le hc e)
  -- The multiple cannot be smaller than the power by a whole unit.
  have hclose := h.close
  have hmultiple : |(k : ℚ) * (10 : ℚ) ^ place| = (k.natAbs : ℚ) * (10 : ℚ) ^ place := by
    rw [abs_mul, abs_of_pos hten, Nat.cast_natAbs, Int.cast_abs]
  have htriangle := abs_sub_abs_le_abs_sub (finite n c e).toRat ((k : ℚ) * (10 : ℚ) ^ place)
  rw [abs_sub_comm, hmultiple] at htriangle
  by_contra hfew
  have hless : (k.natAbs : ℚ) + 1 ≤ (10 : ℚ) ^ digits := by
    exact_mod_cast (digitCount_le_iff hdigits).mp (Nat.le_of_not_lt hfew)
  have hless' := mul_le_mul_of_nonneg_right hless hten.le
  linarith

/-- The coefficient of a number at a place, with digits lost or zeros added. -/
def scaled (n : Bool) (c : Nat) (e place : Int) : Nat :=
  if place ≤ e then c * tenTo (e - place).toNat else Rounding.halfUp.shifted n c (place - e).toNat

/-- The digits at a place are the nearest ones, and of two those further from zero. -/
theorem nearestAway_scaled (n : Bool) (c : Nat) (e place : Int) :
    NearestAway place (finite n c e).toRat (signed n (scaled n c e place)) := by
  unfold scaled
  by_cases hplace : place ≤ e
  · rw [if_pos hplace, toRat_raised n c hplace]
    exact nearestBy_self place _
  · rw [if_neg hplace]
    exact nearestAway_shifted n c (by omega)

theorem scaled_zero (n : Bool) (e place : Int) : scaled n 0 e place = 0 := by
  unfold scaled
  rw [Nat.zero_mul]
  split
  · rfl
  · simp [shifted_eq, Rounding.isUp]

/-- Before the point there is room for all of the digits that are kept. -/
theorem tooLong_iff (hhigh : place ≤ 0) (k : Nat) :
    (precision < digitCount k ∨ largest < leading k place) ↔ ¬digitCount k ≤ precision := by
  unfold leading largest precision
  omega

/-- Nothing but the number of digits decides at a place that is not out of bounds and not before the
point. -/
theorem quantize_eq (n : Bool) (c : Nat) (e : Int) (hlow : lowest ≤ place) (hhigh : place ≤ 0) :
    (finite n c e).quantize .halfUp place =
      if digitCount (scaled n c e place) ≤ precision then .ok (finite n (scaled n c e place) place)
      else .error .invalidOperation := by
  have hbounds : ¬(place < lowest ∨ largest < place) := by
    unfold largest
    omega
  have hscaled : (if place ≤ e then c * tenTo (e - place).toNat
      else Rounding.halfUp.shifted n c (place - e).toNat) = scaled n c e place := rfl
  simp only [quantize, hscaled, Bool.or_eq_true, decide_eq_true_eq, beq_iff_eq, tooLong_iff hhigh,
    if_neg hbounds, ite_not]
  by_cases hc : c = 0
  · subst hc
    rw [scaled_zero]
    rfl
  rw [if_neg hc, ite_eq_right_iff]
  -- The digits are too many before any of them is looked at.
  intro hlong
  have hleading : place + precision ≤ leading c e := by
    unfold largest precision at *
    omega
  have hmany := lt_digitCount_of_nearest (nearestAway_scaled n c e place) hc (by decide) hleading
  rw [natAbs_signed] at hmany
  rw [if_neg (not_le.mpr hmany)]

/-- What is quantized is the nearest multiple of the place, if it fits. -/
theorem quantize_isQuantized (n : Bool) (c : Nat) (e : Int) (hlow : lowest ≤ place)
    (hhigh : place ≤ 0) :
    IsQuantized place (finite n c e).toRat ((finite n c e).quantize .halfUp place) := by
  refine ⟨_, nearestAway_scaled n c e place, ?_⟩
  rw [natAbs_signed, quantize_eq n c e hlow hhigh]
  by_cases hdigits : digitCount (scaled n c e place) ≤ precision
  · rw [if_pos hdigits, if_pos hdigits]
    exact ⟨n, _, rfl, toRat_eq_signed ..⟩
  · rw [if_neg hdigits, if_neg hdigits]

end Quantize

section SameFinite

variable {a b : Decimal}

/-- A number is rounded at a place to one number, or refused at every attempt. -/
theorem IsQuantized.matched {place : Int} {x : ℚ} {result result' : Except Signal Decimal}
    (h : IsQuantized place x result) (h' : IsQuantized place x result') :
    Matched SameFinite result result' := by
  rcases h with ⟨k, hnear, hresult⟩
  rcases h' with ⟨l, hnear', hresult'⟩
  rw [← hnear.unique hnear'] at hresult'
  split_ifs at hresult hresult'
  · rcases hresult with ⟨n, c, rfl, heq⟩
    rcases hresult' with ⟨m, d, rfl, heq'⟩
    exact .ok (.intro (heq.trans heq'.symm))
  · rw [hresult, hresult']
    exact .error _

/-- The same number is quantized to the same number. -/
theorem SameFinite.quantize (h : SameFinite a b) {place : Int} (hlow : lowest ≤ place)
    (hhigh : place ≤ 0) :
    Matched SameFinite (a.quantize .halfUp place) (b.quantize .halfUp place) := by
  rcases h with ⟨h⟩
  exact (quantize_isQuantized _ _ _ hlow hhigh).matched (h ▸ quantize_isQuantized _ _ _ hlow hhigh)

/-- What is known of the number that a rounding gives is all that there is to know. -/
theorem SameFinite.toIntegral {mode : Rounding} {rounded : ℚ → Int} (h : SameFinite a b)
    (hmode : ∀ n c e, ∃ m k f, (finite n c e).toIntegral mode = finite m k f ∧
      (finite m k f).toRat = rounded (finite n c e).toRat) :
    SameFinite (a.toIntegral mode) (b.toIntegral mode) := by
  rcases h with @⟨n, m, c, d, e, f, h⟩
  rcases hmode n c e with ⟨n', c', e', hleft, heq⟩
  rcases hmode m d f with ⟨m', d', f', hright, heq'⟩
  rw [hleft, hright]
  exact .intro (by rw [heq, heq', h])

theorem SameFinite.truncated?_eq (h : SameFinite a b) : a.truncated? = b.truncated? := by
  rcases h with ⟨h⟩
  rw [truncated?_finite, truncated?_finite, h]

theorem SameFinite.isIntegral_eq (h : SameFinite a b) : a.isIntegral = b.isIntegral := by
  rcases h with ⟨h⟩
  rw [Bool.eq_iff_iff, isIntegral_iff, isIntegral_iff, h]

theorem SameFinite.isZero_eq (h : SameFinite a b) : a.isZero = b.isZero := by
  rcases h with ⟨h⟩
  rw [Bool.eq_iff_iff, isZero_iff, isZero_iff, h]

theorem SameFinite.toRat_ne_zero (h : SameFinite a b) (hzero : ¬a.isZero = true) : a.toRat ≠ 0 := by
  rcases h with ⟨h⟩
  exact mt (isZero_iff ..).mpr hzero

theorem SameFinite.compare_eq {a' b' : Decimal} (ha : SameFinite a a') (hb : SameFinite b b') :
    a.compare b = a'.compare b' := by
  rcases ha with ⟨ha⟩
  rcases hb with ⟨hb⟩
  rw [compare_finite, compare_finite, ha, hb]

end SameFinite

end Decimal

end Liquid
