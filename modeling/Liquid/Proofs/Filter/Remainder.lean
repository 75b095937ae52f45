import Liquid.Proofs.Decimal.Rounded
import Liquid.Proofs.Filter.Integer

/-!
# Remainders

What is left of one number when a multiple of another is taken away has the sign
of the divisor and is smaller than it, if the multiple is the floor of the
quotient. The filter takes the floor of a quotient too. For integers that is the
floor itself. For decimals it is the floor of a quotient that has been rounded
to the digits that are kept, and so is one too large where that is rounded up to
the next integer.

An integer that a quotient does not reach is at least one part of the divisor
away from it. If both numbers are written in units of one place, the divisor has
as many parts as units, and with 28 digits in the quotient rounding adds less
than one of these parts as long as the dividend has less than `2 * 10 ^ 27`
units. Then the floor is right. If the divisor has no more digits than are kept,
the product and the difference can be written too, and the remainder is exact.
The bound is sharp: three units more, and what is left by the divisor two is
negative.

## Main definitions

* `IsRemainder`: What should be left.
* `Decimal.Room`: The numbers whose remainder decimal arithmetic has room for.
* `Decimal.remainder`: What decimal arithmetic leaves.
* `Filter.Counts`: The number that a value is or writes.

## Theorems

* `Decimal.floor_eq_of_close`, `Decimal.div_floor`: Where rounding a quotient
  does not change its floor.
* `Decimal.remainder_exact`: Where decimal arithmetic leaves what it should.
* `Filter.modulo_remainder`: The remainder of two values.
-/

namespace Liquid

/-- Whether a number is what a quotient rounded down leaves: it has the sign of the divisor, is
smaller than it, and is the dividend but for a multiple of the divisor. -/
structure IsRemainder (a b r : ℚ) : Prop where
  sign : r = 0 ∨ (r < 0 ↔ b < 0)
  lt : |r| < |b|
  multiple : ∃ k : Int, a - r = k * b

/-- What is left of a number behind whole multiples has the sign of the divisor. -/
theorem isRemainder_floor (a : ℚ) {b : ℚ} (hb : b ≠ 0) : IsRemainder a b (a - b * ⌊a / b⌋) := by
  have hle := Int.floor_le (a / b)
  have hlt := Int.lt_floor_add_one (a / b)
  have hmultiple : ∃ k : Int, a - (a - b * ⌊a / b⌋) = k * b := ⟨⌊a / b⌋, by ring⟩
  -- The bounds of the quotient change sides with the sign of the divisor.
  rcases lt_or_gt_of_ne hb with hneg | hpos
  · rw [le_div_iff_of_neg hneg] at hle
    rw [div_lt_iff_of_neg hneg] at hlt
    have hupper : a - b * ⌊a / b⌋ ≤ 0 := by linarith
    have hlower : b < a - b * ⌊a / b⌋ := by linarith
    refine ⟨?_, ?_, hmultiple⟩
    · rcases hupper.eq_or_lt with hzero | hlt'
      · exact .inl hzero
      · exact .inr ⟨fun _ => hneg, fun _ => hlt'⟩
    · rw [abs_of_nonpos hupper, abs_of_neg hneg]
      exact neg_lt_neg hlower
  · rw [le_div_iff₀ hpos] at hle
    rw [div_lt_iff₀ hpos] at hlt
    have hlower : 0 ≤ a - b * ⌊a / b⌋ := by linarith
    have hupper : a - b * ⌊a / b⌋ < b := by linarith
    refine ⟨.inr ⟨fun hlt' => absurd hlower (not_le.mpr hlt'), fun hlt' => absurd hpos hlt'.not_gt⟩,
      ?_, hmultiple⟩
    rw [abs_of_nonneg hlower, abs_of_pos hpos]
    exact hupper

namespace Decimal

/-- Whether there is room for a remainder: both numbers can be written to one place, with the digits
that are kept, and the dividend is so small that rounding does not take its quotient across an
integer. -/
structure Room (place : Int) (a b : ℚ) : Prop where
  bound : lowest ≤ place
  dividend : ∃ n : Int, n.natAbs < 2 * 10 ^ (precision - 1) ∧ (n : ℚ) * (10 : ℚ) ^ place = a
  divisor : FitsAt place b

/-- What the floor of the rounded quotient leaves. -/
def remainder (x y : Decimal) : Except Signal Decimal := do
  let quotient ← x.div y
  let product ← y.mul (quotient.toIntegral .floor)
  x.sub product

section Remainder

/-- An integer above a quotient is at least as far above it as one part of the divisor. -/
theorem one_le_of_div_lt {a b n : Int} (hb : b ≠ 0) (h : (a : ℚ) / b < n) :
    1 ≤ ((n : ℚ) - (a : ℚ) / b) * |(b : ℚ)| := by
  have hb' : (b : ℚ) ≠ 0 := by exact_mod_cast hb
  have hpos : 0 < (n : ℚ) - (a : ℚ) / b := sub_pos.mpr h
  -- Times the divisor, the gap is an integer.
  have hinteger : ((n : ℚ) - (a : ℚ) / b) * |(b : ℚ)| = |((n * b - a : Int) : ℚ)| := by
    rw [← abs_of_pos hpos, ← abs_mul, sub_mul, div_mul_cancel₀ _ hb']
    push_cast
    rfl
  have hne : n * b - a ≠ 0 := by
    intro hzero
    rw [hzero, Int.cast_zero, abs_zero] at hinteger
    exact (mul_pos hpos (abs_pos.mpr hb')).ne' hinteger
  rw [hinteger]
  exact_mod_cast Int.one_le_abs hne

/-- A number less than an integer is a whole unit less, if it is written to a place and integers
are too. -/
theorem add_unit_le_of_lt {k n place : Int} (hplace : place ≤ 0)
    (h : (k : ℚ) * (10 : ℚ) ^ place < n) : (k : ℚ) * (10 : ℚ) ^ place + (10 : ℚ) ^ place ≤ n := by
  have hten : (0 : ℚ) < (10 : ℚ) ^ place := zpow_pos (by norm_num) place
  -- An integer is a multiple of the unit as well.
  have hn : (n : ℚ) = ((n * 10 ^ (-place).toNat : Int) : ℚ) * (10 : ℚ) ^ place := by
    push_cast
    rw [mul_assoc, ← zpow_natCast, ← zpow_add₀ (by norm_num), Int.toNat_of_nonneg (by omega),
      neg_add_cancel, zpow_zero, mul_one]
  rw [hn, mul_lt_mul_iff_left₀ hten] at h
  have hstep : ((k + 1 : Int) : ℚ) ≤ ((n * 10 ^ (-place).toNat : Int) : ℚ) := by
    exact_mod_cast h
  calc (k : ℚ) * (10 : ℚ) ^ place + (10 : ℚ) ^ place
      = ((k + 1 : Int) : ℚ) * (10 : ℚ) ^ place := by push_cast; ring
    _ ≤ n := by
        rw [hn]
        exact mul_le_mul_of_nonneg_right hstep hten.le

/-- A number near a quotient of integers has the same floor, if it is written to a place and no
farther from the quotient than half a unit there, and if the divisor is less than two units. -/
theorem floor_eq_of_close {a b k place : Int} (hb : b ≠ 0)
    (hplace : (10 : ℚ) ^ place * |(b : ℚ)| < 2)
    (hclose : 2 * |(k : ℚ) * (10 : ℚ) ^ place - (a : ℚ) / b| ≤ (10 : ℚ) ^ place) :
    ⌊(k : ℚ) * (10 : ℚ) ^ place⌋ = ⌊(a : ℚ) / b⌋ := by
  have hten : (0 : ℚ) < (10 : ℚ) ^ place := zpow_pos (by norm_num) place
  have hone : (1 : ℚ) ≤ |(b : ℚ)| := by exact_mod_cast Int.one_le_abs hb
  -- The unit is less than two, so it is one or a fraction of one.
  have hnonpos : place ≤ 0 := by
    by_contra hpos
    have hpow : (10 : ℚ) ^ (1 : Int) ≤ (10 : ℚ) ^ place :=
      zpow_le_zpow_right₀ (by norm_num) (by omega)
    rw [zpow_one] at hpow
    nlinarith
  have hfloor := Int.floor_le ((a : ℚ) / b)
  have hceil : (a : ℚ) / b < (⌊(a : ℚ) / b⌋ + 1 : Int) := by
    push_cast
    exact Int.lt_floor_add_one _
  have hdist := abs_le.mp ((le_div_iff₀' (by norm_num : (0 : ℚ) < 2)).mpr hclose)
  rw [Int.floor_eq_iff]
  constructor
  · by_contra hlt
    have hunit := add_unit_le_of_lt hnonpos (not_le.mp hlt)
    linarith
  · -- The next integer is farther above the quotient than half a unit.
    have hgap := one_le_of_div_lt hb hceil
    push_cast at hgap
    nlinarith

/-- The place that a quotient is rounded at is low enough for its divisor. -/
theorem unit_mul_lt_two {a b p : Int} (hb : b ≠ 0) (ha : a.natAbs < 2 * 10 ^ (precision - 1))
    (hdigits : b.natAbs < 10 ^ precision) (hp : (10 : ℚ) ^ p ≤ |(a : ℚ) / b|) :
    (10 : ℚ) ^ max lowest (p - (precision - 1)) * |(b : ℚ)| < 2 := by
  have hpos : (0 : ℚ) < |(b : ℚ)| := abs_pos.mpr (by exact_mod_cast hb)
  -- Either the unit is the smallest there is, or it is told by the leading digit of the quotient.
  rcases max_choice lowest (p - (precision - 1)) with hlow | hplace
  · rw [hlow]
    have hlt : |(b : ℚ)| < (10 : ℚ) ^ precision := by
      rw [← Int.cast_abs, ← Int.natCast_natAbs]
      exact_mod_cast hdigits
    have hten : (0 : ℚ) < (10 : ℚ) ^ lowest := zpow_pos (by norm_num) lowest
    calc (10 : ℚ) ^ lowest * |(b : ℚ)|
        < (10 : ℚ) ^ lowest * (10 : ℚ) ^ precision := mul_lt_mul_of_pos_left hlt hten
      _ = (10 : ℚ) ^ (lowest + precision) := by
          rw [← zpow_natCast, ← zpow_add₀ (by norm_num)]
      _ ≤ (10 : ℚ) ^ (0 : Int) := zpow_le_zpow_right₀ (by norm_num) (by decide)
      _ < 2 := by norm_num
  · rw [hplace]
    have hlt : |(a : ℚ)| < 2 * (10 : ℚ) ^ (precision - 1) := by
      rw [← Int.cast_abs, ← Int.natCast_natAbs]
      exact_mod_cast ha
    have hten : (0 : ℚ) < (10 : ℚ) ^ (precision - 1) := pow_pos (by norm_num) _
    rw [abs_div, le_div_iff₀ hpos] at hp
    have hsplit : (10 : ℚ) ^ p = (10 : ℚ) ^ (p - (precision - 1)) * (10 : ℚ) ^ (precision - 1) := by
      rw [← zpow_natCast, ← zpow_add₀ (by norm_num)]
      congr 1
      unfold precision
      omega
    rw [hsplit, mul_right_comm] at hp
    exact lt_of_mul_lt_mul_right (hp.trans_lt hlt) hten.le

/-- Whatever the quotient, the product that comes near the dividend has no more digits than it or
than the divisor. -/
theorem natAbs_mul_lt {a b q : Int} (ha : a.natAbs < 2 * 10 ^ (precision - 1))
    (hb : b.natAbs < 10 ^ precision) (hlt : (a - b * q).natAbs < b.natAbs) :
    (b * q).natAbs < 10 ^ precision := by
  have hmul := Int.natAbs_mul b q
  unfold precision at *
  rcases Nat.lt_or_ge q.natAbs 2 with hsmall | hlarge
  · have hle : b.natAbs * q.natAbs ≤ b.natAbs * 1 := Nat.mul_le_mul_left _ (by omega)
    omega
  · have hle : b.natAbs * 2 ≤ b.natAbs * q.natAbs := Nat.mul_le_mul_left _ hlarge
    omega

section Room

variable {place : Int} {a b : ℚ}

/-- The quotient of two numbers written to one place is that of their coefficients. -/
theorem Room.exists_integers (h : Room place a b) (hb : b ≠ 0) :
    ∃ i j : Int, i.natAbs < 2 * 10 ^ (precision - 1) ∧ j.natAbs < 10 ^ precision ∧ j ≠ 0 ∧
      (i : ℚ) * (10 : ℚ) ^ place = a ∧ (j : ℚ) * (10 : ℚ) ^ place = b ∧ a / b = (i : ℚ) / j := by
  rcases h.dividend with ⟨i, hi, rfl⟩
  rcases h.divisor with ⟨j, hj, rfl⟩
  have hten : (10 : ℚ) ^ place ≠ 0 := (zpow_pos (by norm_num) place).ne'
  refine ⟨i, j, hi, hj, ?_, rfl, rfl, mul_div_mul_right _ _ hten⟩
  rintro rfl
  exact hb (by rw [Int.cast_zero, zero_mul])

/-- Where there is room for a remainder, there is room for all that it is computed from. -/
theorem Room.fitsAt (h : Room place a b) (hb : b ≠ 0) :
    FitsAt place a ∧ FitsAt place (b * ⌊a / b⌋) ∧ FitsAt place (a - b * ⌊a / b⌋) := by
  rcases h.exists_integers hb with ⟨i, j, hi, hj, hj', rfl, rfl, hratio⟩
  -- The remainder is less than the divisor.
  have hlt : (i - j * ⌊(i : ℚ) / j⌋).natAbs < j.natAbs := by
    have hrest := (isRemainder_floor (i : ℚ) (Int.cast_ne_zero.mpr hj')).lt
    zify
    exact_mod_cast hrest
  rw [hratio]
  refine ⟨⟨i, by unfold precision at *; omega, rfl⟩, ⟨_, natAbs_mul_lt hi hj hlt, ?_⟩,
    ⟨_, hlt.trans hj, ?_⟩⟩
  · push_cast
    ring
  · push_cast
    ring

end Room

variable {n m : Bool} {c d : Nat} {e f place : Int}

/-- Where there is room for a remainder, the rounded quotient has the floor of the quotient. -/
theorem div_floor (hd : d ≠ 0) (h : Room place (finite n c e).toRat (finite m d f).toRat) :
    Gives (fun q => ⌊q⌋ = ⌊(finite n c e).toRat / (finite m d f).toRat⌋)
      ((finite n c e).div (finite m d f)) := by
  by_cases hc : c = 0
  · subst hc
    exact .inr ⟨_, _, _, rfl, by simp⟩
  -- The sign has no part in how close the quotient is.
  have hsign : |(if n != m then -1 else 1 : ℚ)| = 1 := by
    split <;> simp
  rcases h.exists_integers (toRat_finite_ne_zero m hd f) with ⟨a, b, ha, hb, hb', -, -, hratio⟩
  rcases div_close hc hd n m e f with ⟨p, hp, -, hresult⟩
  refine hresult.imp_right fun ⟨k, hk, hclose⟩ => ⟨_, _, _, hk, ?_⟩
  have hp' : (10 : ℚ) ^ p ≤ |(a : ℚ) / b| := by
    rw [← hratio, toRat_div, abs_mul, hsign, one_mul]
    exact hp.trans (le_abs_self _)
  rw [hratio, toRat_eq_signed]
  refine floor_eq_of_close hb' (unit_mul_lt_two hb' ha hb hp') ?_
  rw [← toRat_eq_signed, ← hratio, toRat_div]
  simp only [toRat]
  rw [← mul_sub, abs_mul, hsign, one_mul]
  exact hclose

/-- Where there is room for a remainder, it is exact. -/
theorem remainder_exact (hd : d ≠ 0) (h : Room place (finite n c e).toRat (finite m d f).toRat) :
    Gives (· = (finite n c e).toRat -
        (finite m d f).toRat * ⌊(finite n c e).toRat / (finite m d f).toRat⌋)
      (remainder (finite n c e) (finite m d f)) := by
  rcases h.fitsAt (toRat_finite_ne_zero m hd f) with ⟨hdividend, hproduct, hrest⟩
  refine (div_floor hd h).bind fun n' c' e' hfloor => ?_
  rcases toIntegral_floor n' c' e' with ⟨m', k, g, hintegral, hinteger⟩
  rw [hintegral]
  rw [← hfloor, ← hinteger] at hproduct hrest ⊢
  refine (mul_exact m m' d k f g h.bound hproduct).bind fun n'' c'' e'' heq => ?_
  rw [← heq] at hproduct hrest ⊢
  exact sub_exact n n'' c c'' e e'' h.bound hdividend hproduct hrest

/-- Without room it is a number all the same, unless something on the way is too large. -/
theorem remainder_gives (n m : Bool) (c d : Nat) (e f : Int) :
    Gives (fun _ => True) (remainder (finite n c e) (finite m d f)) := by
  refine (div_gives n m c d e f).bind fun n' c' e' _ => ?_
  rcases toIntegral_floor n' c' e' with ⟨m', k, g, hintegral, -⟩
  rw [hintegral]
  refine Gives.bind (settle_gives (m != m') (d * k) (f + g)) fun n'' c'' e'' _ => ?_
  exact sub_gives n n'' c c'' e e''

end Remainder

end Decimal

namespace Filter

/-- Whether a value is or writes the number. -/
def Counts (v : Value) (a : ℚ) : Prop :=
  ∃ n c e, v.number? = some (.finite n c e) ∧ (Decimal.finite n c e).toRat = a

section Counts

variable {v w : Value} {a b : ℚ}

/-- What counts as a number is read as that number. -/
theorem operand_of_counts (h : Counts v a) :
    ∃ n c e, operand v = .finite n c e ∧ (Decimal.finite n c e).toRat = a := by
  rcases h with ⟨n, c, e, hnumber, heq⟩
  refine ⟨n, c, e, ?_, heq⟩
  unfold operand
  rw [hnumber]

/-- A text of digits with a sign that is read as a number writes an integer. -/
theorem denotes_of_isIntegerText {s : String} {d : Decimal}
    (hread : Decimal.read? (Text.strip s.toList) = some d)
    (htext : isIntegerText (Text.strip s.toList) = true) :
    ∃ i : Int, Denotes (.string s) i ∧ d.toRat = i := by
  rcases hsign : Decimal.readSign (Text.strip s.toList) with ⟨negative, digits⟩
  -- Behind the sign, the text is all digits, so it has neither places nor an exponent.
  have hdigits : ∀ c ∈ digits, Text.isDigit c = true := by
    unfold isIntegerText at htext
    simp only [hsign, Bool.and_eq_true, List.all_eq_true] at htext
    exact htext.2
  have htake : digits.takeWhile Text.isDigit = digits := List.takeWhile_eq_self_iff.mpr hdigits
  have hdrop : digits.dropWhile Text.isDigit = [] := List.dropWhile_eq_nil_iff.mpr hdigits
  unfold Decimal.read? at hread
  simp [hsign, htake, hdrop, Decimal.readExponent?] at hread
  rcases Option.bind_eq_some_iff.mp hread with ⟨c, hc, hbounded⟩
  unfold Decimal.bounded? Decimal.leading at hbounded
  split at hbounded
  · cases hbounded
  · next hbound =>
      cases hbounded
      simp only [Bool.or_eq_true, decide_eq_true_eq] at hbound
      refine ⟨_, .text hsign hdigits hc (by omega), ?_⟩
      rw [Decimal.toRat_eq_signed, zpow_zero, mul_one]

/-- A value that is whole by its form is or writes an integer. -/
theorem denotes_of_isWhole (h : Counts v a) (hwhole : isWhole v = true) :
    ∃ i : Int, Denotes v i ∧ a = i := by
  rcases h with ⟨n, c, e, hnumber, rfl⟩
  -- Integers and texts of digits are whole, and no other numbers.
  cases v with
  | integer i =>
      cases hnumber
      exact ⟨i, .integer i, Decimal.toRat_ofInt i⟩
  | string s =>
      refine denotes_of_isIntegerText hnumber ?_
      unfold isWhole at hwhole
      simp only [hnumber, Option.isNone_some, Bool.false_or] at hwhole
      exact hwhole
  | decimal d => cases hwhole
  | nil | bool | array | dictionary | range => cases hnumber

theorem isZero_of_counts (h : Counts v a) (ha : a ≠ 0) : (operand v).isZero = false := by
  rcases operand_of_counts h with ⟨n, c, e, hoperand, rfl⟩
  have hc : c ≠ 0 := by
    rintro rfl
    exact ha (Decimal.toRat_zero n e)
  rw [hoperand]
  exact beq_eq_false_iff_ne.mpr hc

/-- Values that are not both whole leave what decimal arithmetic leaves. -/
theorem modulo_of_not_isWhole (hw : Counts w b) (hb : b ≠ 0)
    (hwhole : ¬(isWhole v = true ∧ isWhole w = true)) :
    modulo v w =
      arithmetic (Value.decimal <$> Decimal.remainder (operand v) (operand w)) := by
  unfold modulo Decimal.remainder
  rw [isZero_of_counts hw hb, if_neg Bool.false_ne_true, if_neg (by simpa using hwhole)]
  simp only [map_bind]
  rfl

/-- What decimal arithmetic leaves, as the answer of a filter. -/
theorem answer_of_gives {P : ℚ → Prop} {result : Except Decimal.Signal Decimal}
    (h : Decimal.Gives P result) :
    arithmetic (Value.decimal <$> result) = .error (.rejected (.arithmetic .overflow)) ∨
      ∃ m r, arithmetic (Value.decimal <$> result) = .ok m ∧ Counts m r ∧ P r := by
  rcases h with rfl | ⟨n, c, e, rfl, hnumber⟩
  · exact .inl rfl
  · exact .inr ⟨_, _, rfl, ⟨n, c, e, rfl, rfl⟩, hnumber⟩

/-- Of integers, the remainder is exact. -/
theorem isRemainder_fmod (i : Int) {j : Int} (hj : j ≠ 0) : IsRemainder i j (i.fmod j : Int) := by
  have hbetween := fmod_between i hj
  have hsplit := Int.mul_fdiv_add_fmod i j
  have hsign : i.fmod j = 0 ∨ (i.fmod j < 0 ↔ j < 0) := by omega
  have hlt : (i.fmod j).natAbs < j.natAbs := by omega
  refine ⟨by exact_mod_cast hsign, ?_, i.fdiv j, ?_⟩
  · zify at hlt
    exact_mod_cast hlt
  · have hmultiple : i - i.fmod j = i.fdiv j * j := by
      rw [Int.mul_comm]
      omega
    exact_mod_cast hmultiple

/-- The remainder of two numbers is one, unless something on the way to it is too large: always of
integers, and of decimals if there is room for it. Otherwise the answer is at least a number. -/
theorem modulo_remainder (hv : Counts v a) (hw : Counts w b) (hb : b ≠ 0) :
    modulo v w = .error (.rejected (.arithmetic .overflow)) ∨
      ∃ m r, modulo v w = .ok m ∧ Counts m r ∧
        ((isWhole v = true ∧ isWhole w = true) ∨ (∃ place, Decimal.Room place a b) →
          IsRemainder a b r) := by
  -- Two integers have an exact remainder. Otherwise the quotient is rounded first.
  by_cases hwhole : isWhole v = true ∧ isWhole w = true
  · rcases denotes_of_isWhole hv hwhole.1 with ⟨i, hi, rfl⟩
    rcases denotes_of_isWhole hw hwhole.2 with ⟨j, hj, rfl⟩
    have hj' : j ≠ 0 := Int.cast_ne_zero.mp hb
    exact .inr ⟨_, _, modulo_integers hi hj hj', ⟨_, _, _, rfl, Decimal.toRat_ofInt (i.fmod j)⟩,
      fun _ => isRemainder_fmod i hj'⟩
  rcases operand_of_counts hv with ⟨n, c, e, hv', rfl⟩
  rcases operand_of_counts hw with ⟨m, d, f, hw', rfl⟩
  rw [modulo_of_not_isWhole hw hb hwhole, hv', hw']
  by_cases hroom : ∃ place, Decimal.Room place (Decimal.finite n c e).toRat
      (Decimal.finite m d f).toRat
  · rcases hroom with ⟨place, hroom⟩
    have hd : d ≠ 0 := by
      rintro rfl
      exact hb (Decimal.toRat_zero m f)
    refine (answer_of_gives (Decimal.remainder_exact hd hroom)).imp_right ?_
    rintro ⟨m, r, hanswer, hcounts, rfl⟩
    exact ⟨m, _, hanswer, hcounts, fun _ => isRemainder_floor _ hb⟩
  · refine (answer_of_gives (Decimal.remainder_gives n m c d e f)).imp_right ?_
    rintro ⟨m, r, hanswer, hcounts, -⟩
    exact ⟨m, r, hanswer, hcounts, fun h => (h.elim hwhole hroom).elim⟩

/-- A negative number with a fraction, in a text, and a positive divisor. -/
theorem modulo_remainder_text :
    let v : Value := .string " -7.5 "
    let w : Value := .decimal (.finite false 2 0)
    Counts v (-15 / 2) ∧ Counts w 2 ∧ Decimal.Room (-1) (-15 / 2) 2 ∧
      modulo v w = .ok (.decimal (.finite false 5 (-1))) ∧ IsRemainder (-15 / 2) 2 (1 / 2) := by
  intro v w
  have hv : Counts v (-15 / 2) := ⟨true, 75, -1, by decide +kernel, by norm_num [Decimal.toRat]⟩
  have hw : Counts w 2 := ⟨false, 2, 0, rfl, by norm_num [Decimal.toRat]⟩
  have hroom : Decimal.Room (-1) (-15 / 2) 2 :=
    ⟨by decide, ⟨-75, by decide, by norm_num⟩, ⟨20, by decide, by norm_num⟩⟩
  -- The text counts without the blanks around it.
  have hanswer : modulo v w = .ok (.decimal (.finite false 5 (-1))) := rfl
  rcases modulo_remainder hv hw (by norm_num) with herror | ⟨m, r, hm, hr, hremainder⟩
  · rw [hanswer] at herror
    cases herror
  · rw [hanswer] at hm
    cases hm
    rcases hr with ⟨n, c, e, hnumber, rfl⟩
    cases hnumber
    have hhalf : (Decimal.finite false 5 (-1)).toRat = 1 / 2 := by norm_num [Decimal.toRat]
    exact ⟨hv, hw, hroom, hanswer, hhalf ▸ hremainder (.inr ⟨-1, hroom⟩)⟩

/-- A dividend of 28 digits just beyond the bound. There is no digit left for the half in the
quotient, so that is rounded up, and what is left is negative. -/
theorem modulo_beyond_room :
    let v : Value := .decimal (.finite false 2000000000000000000000000003 0)
    Counts v 2000000000000000000000000003 ∧ Counts (.integer 2) 2 ∧
      modulo v (.integer 2) = .ok (.decimal (.finite true 1 0)) ∧
      Counts (.decimal (.finite true 1 0)) (-1) ∧
      ¬IsRemainder 2000000000000000000000000003 2 (-1) := by
  refine ⟨⟨false, _, 0, rfl, by norm_num [Decimal.toRat]⟩, ⟨_, _, _, rfl, Decimal.toRat_ofInt 2⟩,
    rfl, ⟨true, 1, 0, rfl, by norm_num [Decimal.toRat]⟩, fun h => ?_⟩
  rcases h.sign with hzero | hsign
  · norm_num at hzero
  · norm_num at hsign

end Counts

end Filter

end Liquid
