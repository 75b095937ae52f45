import Liquid.Decimal.Text
import Liquid.Proofs.Decimal.Rational
import Liquid.Proofs.Text.Digit
import Mathlib.Data.List.TakeWhile

/-!
# The Texts of Numbers

A number is written with its digits around a point, whatever its exponent. How
it is written depends on what it is only: a zero at the end of a coefficient
makes no difference to the text, and numbers that are equal differ by such
zeros. So equal numbers of one sign have one text. Different ones have two,
because the text can be read again.

The digits that are left of a fraction are what is before its last zeros. If
nothing is, one of the zeros is kept. Either way the fraction is its written
digits and zeros, so nothing of the number is lost.

## Main definitions

* `Decimal.Canonical`: The texts without an exponent and without a zero at the
  end that could be left away.
* `Decimal.Positional`: The two parts of a text, and the number that they write.
* `Decimal.InBounds`: The numbers that reading does not refuse.

## Theorems

* `Decimal.positional_parts`: What the text of a magnitude consists of.
* `Decimal.positional_mul_ten`: A zero more or less makes no difference.
* `Decimal.fixed_eq_iff`: Numbers of one sign have one text if they are equal.
* `Decimal.read?_fixed`: The text of a number is read as an equal number.
-/

namespace Liquid

namespace Decimal

/-- The sign that is written in front of a magnitude. -/
def sign (negative : Bool) : List Char :=
  if negative then ['-'] else []

/-- The texts of a sign or none, digits, a point and digits, of which the last is no zero or else
the only one behind the point. -/
inductive Canonical : List Char → Prop
  | mk (negative : Bool) {whole places : List Char} (hwhole : Text.Written whole)
      (hplaces : Text.Written places) (hlast : places = ['0'] ∨ places.getLast? ≠ some '0') :
      Canonical (sign negative ++ (whole ++ '.' :: places))

/-- The digits before and behind the point of the text of a magnitude, and the number that they
write. -/
structure Positional (c : Nat) (e : Int) (whole places : List Char) : Prop where
  text : positional c e = whole ++ '.' :: places
  written_whole : Text.Written whole
  written_places : Text.Written places
  last : places = ['0'] ∨ places.getLast? ≠ some '0'
  /-- One place is written always, and not more than the exponent has. -/
  length : (places.length : Int) ≤ max 1 (-e)
  number : (Nat.ofDigitChars 10 (whole ++ places) 0 : ℚ) * (10 : ℚ) ^ (-(places.length : ℤ)) =
    (c : ℚ) * (10 : ℚ) ^ e

/-- The numbers with exponents that reading does not refuse, and so all that there can be. -/
def InBounds : Decimal → Prop
  | finite _ c e => -1999999999999999997 ≤ e ∧ leading c e ≤ 999999999999999999
  | _ => True

instance (d : Decimal) : Decidable d.InBounds := by
  unfold InBounds
  split <;> infer_instance

section Fraction

variable {digits : List Char}

/-- Digits are those that are not dropped and zeros. -/
theorem dropZeros_append (digits : List Char) :
    ∃ count, digits = dropZeros digits ++ List.replicate count '0' := by
  have hsplit := List.takeWhile_append_dropWhile (p := (· == '0')) (l := digits.reverse)
  have hzeros : digits.reverse.takeWhile (· == '0') =
      List.replicate (digits.reverse.takeWhile (· == '0')).length '0' :=
    List.eq_replicate_iff.mpr ⟨rfl, fun c hc => by simpa using List.mem_takeWhile_imp hc⟩
  refine ⟨(digits.reverse.takeWhile (· == '0')).length, ?_⟩
  rw [dropZeros, ← List.reverse_reverse (List.replicate _ _), List.reverse_replicate, ← hzeros,
    ← List.reverse_append, hsplit, List.reverse_reverse]

/-- No zero is left at the end. -/
theorem getLast?_dropZeros (digits : List Char) : (dropZeros digits).getLast? ≠ some '0' := by
  intro hlast
  rw [dropZeros, List.getLast?_reverse] at hlast
  have hhead := List.head?_dropWhile_not (· == '0') digits.reverse
  rw [hlast] at hhead
  simp at hhead

theorem fraction_of_ne_nil (h : dropZeros digits ≠ []) : fraction digits = dropZeros digits := by
  unfold fraction
  split
  · exact absurd ‹_› h
  · rfl

theorem fraction_of_eq_nil (h : dropZeros digits = []) : fraction digits = ['0'] := by
  rw [fraction, h]

/-- The fraction that is written lacks zeros only. -/
theorem fraction_append (hne : digits ≠ []) :
    ∃ count, digits = fraction digits ++ List.replicate count '0' := by
  rcases dropZeros_append digits with ⟨count, hcount⟩
  by_cases hnil : dropZeros digits = []
  · rw [hnil, List.nil_append] at hcount
    cases count with
    | zero => exact absurd hcount hne
    | succ count => exact ⟨count, by rw [fraction_of_eq_nil hnil, hcount]; rfl⟩
  · exact ⟨count, by rwa [fraction_of_ne_nil hnil]⟩

/-- No place is written that could be left out, but for a single zero. -/
theorem fraction_last (digits : List Char) :
    fraction digits = ['0'] ∨ (fraction digits).getLast? ≠ some '0' := by
  by_cases hnil : dropZeros digits = []
  · exact .inl (fraction_of_eq_nil hnil)
  · rw [fraction_of_ne_nil hnil]
    exact .inr (getLast?_dropZeros digits)

theorem fraction_ne_nil (digits : List Char) : fraction digits ≠ [] := by
  by_cases hnil : dropZeros digits = []
  · rw [fraction_of_eq_nil hnil]
    exact List.cons_ne_nil _ _
  · rwa [fraction_of_ne_nil hnil]

/-- A zero at the end changes nothing of the places. -/
theorem fraction_append_zero (digits : List Char) :
    fraction (digits ++ ['0']) = fraction digits := by
  rw [fraction, fraction, dropZeros, dropZeros, List.reverse_append, List.reverse_singleton,
    List.singleton_append, List.dropWhile_cons_of_pos (by decide)]

end Fraction

section Parts

/-- The digits of a magnitude with a negative exponent, with zeros in front so that one digit is
before the point. -/
def padded (c places : Nat) : List Char :=
  List.replicate (places + 1 - (Nat.toDigits 10 c).length) '0' ++ Nat.toDigits 10 c

/-- Without places, zeros are written behind the digits, and one place. -/
theorem positional_of_nonneg {c : Nat} {e : Int} (hc : c ≠ 0) (he : 0 ≤ e) :
    positional c e = Nat.toDigits 10 c ++ List.replicate e.toNat '0' ++ ['.', '0'] := by
  rw [positional, if_pos he, if_neg (by simpa using hc)]

/-- With places, the digits are divided at the point, with zeros in front if there are too few. -/
theorem positional_of_neg {c : Nat} {e : Int} (he : e < 0) :
    positional c e =
      (padded c (-e).toNat).take ((padded c (-e).toNat).length - (-e).toNat) ++
        '.' :: fraction
          ((padded c (-e).toNat).drop ((padded c (-e).toNat).length - (-e).toNat)) := by
  rw [positional, if_neg (by omega)]
  rfl

theorem lt_length_padded (c places : Nat) : places < (padded c places).length := by
  rw [padded, List.length_append, List.length_replicate]
  omega

theorem isDigit_of_mem_zeros {count : Nat} :
    ∀ d ∈ List.replicate count '0', d.isDigit = true := by
  intro d hd
  rw [List.eq_of_mem_replicate hd]
  rfl

theorem isDigit_of_mem_padded {c places : Nat} : ∀ d ∈ padded c places, d.isDigit = true :=
  fun d hd => (List.mem_append.mp hd).elim (isDigit_of_mem_zeros d)
    ((Text.Written.toDigits c).digit d)

/-- Zeros in front do not change the number. -/
theorem ofDigitChars_padded (c places : Nat) : Nat.ofDigitChars 10 (padded c places) 0 = c := by
  rw [padded, Nat.ofDigitChars_append, Nat.ofDigitChars_replicate_zero, Nat.mul_zero,
    Nat.ofDigitChars_ten_toDigits]

/-- Zero is written in one way, whatever its exponent is. -/
theorem positional_zero (e : Int) : positional 0 e = ['0', '.', '0'] := by
  by_cases he : 0 ≤ e
  · rw [positional, if_pos he]
    rfl
  -- With places, there are only zeros, and all but one of them are dropped.
  · have hpadded : padded 0 (-e).toNat = List.replicate ((-e).toNat + 1) '0' := by
      rw [padded, Nat.toDigits_zero, List.length_singleton, Nat.add_sub_cancel]
      exact List.replicate_succ'.symm
    have hnil : dropZeros (List.replicate (-e).toNat '0') = [] := by
      rw [dropZeros, List.reverse_replicate, List.dropWhile_replicate, if_pos (by rfl)]
      rfl
    rw [positional_of_neg (by omega), hpadded, List.length_replicate, Nat.add_sub_cancel_left,
      List.replicate_succ, List.take_succ_cons, List.take_zero, List.drop_succ_cons, List.drop_zero,
      fraction_of_eq_nil hnil]
    rfl

/-- What is behind the point is read as so many tenths. -/
theorem positional_parts_of_nonneg {c : Nat} {e : Int} (hc : c ≠ 0) (he : 0 ≤ e) :
    Positional c e (Nat.toDigits 10 c ++ List.replicate e.toNat '0') ['0'] := by
  have hexp : (10 : ℚ) ^ e = 10 ^ e.toNat := by
    rw [← zpow_natCast, Int.toNat_of_nonneg he]
  refine ⟨?_, ⟨?_, ?_⟩, .singleton rfl, .inl rfl, le_max_left _ _, ?_⟩
  · exact positional_of_nonneg hc he
  · exact List.append_ne_nil_of_left_ne_nil Nat.toDigits_ne_nil _
  · exact fun d hd => (List.mem_append.mp hd).elim ((Text.Written.toDigits c).digit d)
      (isDigit_of_mem_zeros d)
  · rw [Nat.ofDigitChars_append, Nat.ofDigitChars_append, Nat.ofDigitChars_ten_toDigits,
      Nat.ofDigitChars_replicate_zero, hexp]
    simp [Nat.ofDigitChars]
    ring

theorem positional_parts_of_neg (c : Nat) {e : Int} (he : e < 0) :
    ∃ whole places, Positional c e whole places := by
  -- All that is used of the padded digits is that they are enough, are digits and write `c`.
  have hlength := lt_length_padded c (-e).toNat
  have hdigit := @isDigit_of_mem_padded c (-e).toNat
  have hnumber := ofDigitChars_padded c (-e).toNat
  have htext := @positional_of_neg c e he
  generalize padded c (-e).toNat = digits at hlength hdigit hnumber htext
  have hsplit := List.take_append_drop (digits.length - (-e).toNat) digits
  have hwhole : (digits.take (digits.length - (-e).toNat)).length ≠ 0 := by
    rw [List.length_take]
    omega
  have hplaces : (digits.drop (digits.length - (-e).toNat)).length = (-e).toNat := by
    rw [List.length_drop]
    omega
  generalize digits.take (digits.length - (-e).toNat) = whole at *
  generalize digits.drop (digits.length - (-e).toNat) = behind at *
  subst hsplit
  have hne : behind ≠ [] := by
    rintro rfl
    rw [List.length_nil] at hplaces
    omega
  rcases fraction_append hne with ⟨count, hcount⟩
  have hcounts : (-e).toNat = (fraction behind).length + count := by
    rw [← hplaces, hcount, List.length_append, List.length_replicate, ← hcount]
  refine ⟨whole, fraction behind, htext, ⟨fun hnil => hwhole (by rw [hnil]; rfl), ?_⟩,
    ⟨fraction_ne_nil behind, ?_⟩, fraction_last behind, ?_, ?_⟩
  · exact fun d hd => hdigit d (List.mem_append_left _ hd)
  · refine fun d hd => hdigit d (List.mem_append_right _ ?_)
    rw [hcount]
    exact List.mem_append_left _ hd
  · omega
  · -- The zeros that are not written multiply by the powers of ten that they leave.
    rw [hcount, ← List.append_assoc, Nat.ofDigitChars_append, Nat.ofDigitChars_replicate_zero]
      at hnumber
    have hexp : -((fraction behind).length : ℤ) = count + e := by omega
    rw [hexp, zpow_add₀ (by norm_num), zpow_natCast, ← hnumber]
    push_cast
    ring

/-- The text of a magnitude is digits, a point and digits, and they write the magnitude. -/
theorem positional_parts (c : Nat) (e : Int) : ∃ whole places, Positional c e whole places := by
  by_cases hc : c = 0
  · subst hc
    refine ⟨['0'], ['0'], positional_zero e, .singleton rfl, .singleton rfl, .inl rfl,
      le_max_left _ _, ?_⟩
    simp [Nat.ofDigitChars]
  · rcases le_or_gt 0 e with he | he
    · exact ⟨_, _, positional_parts_of_nonneg hc he⟩
    · exact positional_parts_of_neg c he

end Parts

section Unique

/-- Ten times a number has a zero behind its digits. -/
theorem toDigits_mul_ten {c : Nat} (hc : c ≠ 0) :
    Nat.toDigits 10 (10 * c) = Nat.toDigits 10 c ++ ['0'] :=
  (Nat.toDigits_append_toDigits (by decide) (Nat.pos_of_ne_zero hc) (by decide : 0 < 10)).symm

theorem padded_mul_ten {c : Nat} (hc : c ≠ 0) (places : Nat) :
    padded (10 * c) (places + 1) = padded c places ++ ['0'] := by
  rw [padded, padded, toDigits_mul_ten hc, List.length_append, List.length_singleton,
    Nat.add_sub_add_right, List.append_assoc]

/-- A zero at the end of the digits is one more place or one zero less, and in neither case does it
show. -/
theorem positional_mul_ten {c : Nat} (hc : c ≠ 0) (e : Int) :
    positional (10 * c) e = positional c (e + 1) := by
  have hten : 10 * c ≠ 0 := by omega
  rcases lt_trichotomy e (-1) with he | rfl | he
  · -- Both have places, and the new one is a zero at the end of them.
    have hplaces : (-e).toNat = (-(e + 1)).toNat + 1 := by omega
    have hlength := lt_length_padded c (-(e + 1)).toNat
    rw [positional_of_neg (by omega), positional_of_neg (by omega), hplaces, padded_mul_ten hc,
      List.length_append, List.length_singleton, Nat.add_sub_add_right,
      List.take_append_of_le_length (Nat.sub_le _ _),
      List.drop_append_of_le_length (Nat.sub_le _ _), fraction_append_zero]
  · -- The last digit becomes the one place that is written always.
    have hpadded : padded (10 * c) 1 = Nat.toDigits 10 c ++ ['0'] := by
      rw [padded_mul_ten hc, padded, Nat.sub_eq_zero_of_le (Text.Written.toDigits c).length_pos]
      rfl
    rw [positional_of_neg (by decide), positional_of_nonneg hc (by decide)]
    simp only [Int.neg_neg, Int.toNat_one, hpadded, List.length_append, List.length_singleton,
      Nat.add_sub_cancel, List.take_left, List.drop_left, Int.reduceNeg, Int.add_left_neg,
      Int.toNat_zero, List.replicate_zero, List.append_nil]
    rfl
  · -- Neither has places: the zero is written as a digit or as one of the zeros behind them.
    have hzeros : (e + 1).toNat = e.toNat + 1 := by omega
    rw [positional_of_nonneg hten (by omega), positional_of_nonneg hc (by omega),
      toDigits_mul_ten hc, hzeros, List.replicate_succ, List.append_assoc (Nat.toDigits 10 c)]
    rfl

/-- So can any number of zeros. -/
theorem positional_mul_pow {c : Nat} (hc : c ≠ 0) (e : Int) (k : Nat) :
    positional (c * 10 ^ k) e = positional c (e + k) := by
  induction k generalizing e with
  | zero => rw [pow_zero, Nat.mul_one, Nat.cast_zero, Int.add_zero]
  | succ k ih =>
      have hpos : c * 10 ^ k ≠ 0 := Nat.mul_ne_zero hc (by positivity)
      rw [pow_succ, ← Nat.mul_assoc, Nat.mul_comm _ 10, positional_mul_ten hpos, ih]
      congr 1
      push_cast
      ring

theorem positional_congr_of_le {c d : Nat} {e f : Int} (hle : e ≤ f)
    (h : (c : ℚ) * (10 : ℚ) ^ e = (d : ℚ) * (10 : ℚ) ^ f) : positional c e = positional d f := by
  have hscale : c = d * 10 ^ (f - e).toNat := by
    have hpos : (10 : ℚ) ^ e ≠ 0 := (zpow_pos (by norm_num) e).ne'
    rw [← cast_mul_tenTo hle, tenTo_eq_pow] at h
    exact_mod_cast mul_right_cancel₀ hpos h
  by_cases hd : d = 0
  · rw [hscale, hd, Nat.zero_mul, positional_zero, positional_zero]
  · rw [hscale, positional_mul_pow hd]
    congr 1
    omega

/-- The text of a magnitude depends on nothing but the magnitude. -/
theorem positional_congr {c d : Nat} {e f : Int}
    (h : (c : ℚ) * (10 : ℚ) ^ e = (d : ℚ) * (10 : ℚ) ^ f) : positional c e = positional d f := by
  rcases le_total e f with hle | hle
  · exact positional_congr_of_le hle h
  · exact (positional_congr_of_le hle h.symm).symm

/-- Where the point is in a text is told by the text. -/
theorem parts_unique {whole places whole' places' : List Char} (hwhole : Text.Written whole)
    (hwhole' : Text.Written whole')
    (h : whole ++ '.' :: places = whole' ++ '.' :: places') :
    whole = whole' ∧ places = places' := by
  have hpoint : ('.' : Char).isDigit = false := by decide
  -- The digits in front run up to the point, and the point is no digit.
  have htake := congrArg (List.takeWhile Char.isDigit) h
  rw [List.takeWhile_append_of_pos hwhole.digit, List.takeWhile_append_of_pos hwhole'.digit,
    List.takeWhile_cons_of_neg (by simp [hpoint]), List.takeWhile_cons_of_neg (by simp [hpoint]),
    List.append_nil, List.append_nil] at htake
  subst htake
  exact ⟨rfl, (List.cons.inj (List.append_cancel_left h)).2⟩

/-- The text tells magnitudes apart, and nothing else. -/
theorem positional_eq_iff {c d : Nat} {e f : Int} :
    positional c e = positional d f ↔ (c : ℚ) * (10 : ℚ) ^ e = (d : ℚ) * (10 : ℚ) ^ f := by
  refine ⟨fun h => ?_, positional_congr⟩
  rcases positional_parts c e with ⟨whole, places, hc⟩
  rcases positional_parts d f with ⟨whole', places', hd⟩
  rw [hc.text, hd.text] at h
  rcases parts_unique hc.written_whole hd.written_whole h with ⟨rfl, rfl⟩
  exact hc.number.symm.trans hd.number

theorem sameNumber_finite_iff (negative : Bool) {c d : Nat} {e f : Int} :
    SameNumber (finite negative c e) (finite negative d f) ↔
      (c : ℚ) * (10 : ℚ) ^ e = (d : ℚ) * (10 : ℚ) ^ f := by
  have htier : (finite negative c e).tier = (finite negative d f).tier := rfl
  have hsign : (if negative then -1 else 1 : ℚ) ≠ 0 := by
    split <;> norm_num
  rw [SameNumber, toRat, toRat]
  constructor
  · rintro ⟨-, h⟩
    exact mul_left_cancel₀ hsign h
  · intro h
    exact ⟨htier, by rw [h]⟩

/-- Numbers of one sign have one text exactly if they are equal. -/
theorem fixed_eq_iff (negative : Bool) {c d : Nat} {e f : Int} :
    fixed negative c e = fixed negative d f ↔
      SameNumber (finite negative c e) (finite negative d f) := by
  rw [sameNumber_finite_iff, ← positional_eq_iff, fixed, fixed, List.append_cancel_left_eq]

/-- Every number is written in the one form. -/
theorem canonical_fixed (negative : Bool) (c : Nat) (e : Int) :
    Canonical (fixed negative c e) := by
  rcases positional_parts c e with ⟨whole, places, h⟩
  rw [fixed, h.text]
  exact .mk negative h.written_whole h.written_places h.last

end Unique

section Read

/-- A minus is the only sign that is written, so digits are not taken for one. -/
theorem readSign_digits (negative : Bool) {c : Char} (hc : Text.isDigit c = true)
    (cs : List Char) : readSign (sign negative ++ c :: cs) = (negative, c :: cs) := by
  have hminus : c ≠ '-' := by
    rintro rfl
    revert hc
    decide
  have hplus : c ≠ '+' := by
    rintro rfl
    revert hc
    decide
  cases negative with
  | false => simp [sign, readSign, hminus, hplus]
  | true => rfl

/-- Digits, a point and digits are a number without an exponent. -/
theorem read?_point (negative : Bool) {whole places : List Char} (hne : whole ≠ [])
    (hwhole : ∀ c ∈ whole, Text.isDigit c = true) (hplaces : ∀ c ∈ places, Text.isDigit c = true) :
    read? (sign negative ++ (whole ++ '.' :: places)) =
      (Text.readNat? (whole ++ places)).bind fun n => bounded? negative n (0 - places.length) := by
  have hsign : readSign (sign negative ++ (whole ++ '.' :: places)) =
      (negative, whole ++ '.' :: places) := by
    cases whole with
    | nil => exact absurd rfl hne
    | cons c cs => exact readSign_digits negative (hwhole c List.mem_cons_self) _
  -- Each run of digits ends where the next part starts.
  have hpoint : Text.isDigit '.' = false := by decide
  have htake : places.takeWhile Text.isDigit = places := List.takeWhile_eq_self_iff.mpr hplaces
  have hdrop : places.dropWhile Text.isDigit = [] := List.dropWhile_eq_nil_iff.mpr hplaces
  unfold read?
  rw [hsign]
  simp only [List.takeWhile_append_of_pos hwhole, List.dropWhile_append_of_pos hwhole,
    List.takeWhile_cons, List.dropWhile_cons, hpoint, Bool.false_eq_true, if_false,
    List.head?_cons, beq_self_eq_true, if_true, List.drop_one, List.tail_cons, List.append_nil,
    htake, hdrop]
  rfl

/-- Digits alone are an integer. -/
theorem read?_whole (negative : Bool) {whole : List Char} (hne : whole ≠ [])
    (hwhole : ∀ c ∈ whole, Text.isDigit c = true) :
    read? (sign negative ++ whole) =
      (Text.readNat? whole).bind fun n => bounded? negative n 0 := by
  have hsign : readSign (sign negative ++ whole) = (negative, whole) := by
    cases whole with
    | nil => exact absurd rfl hne
    | cons c cs => exact readSign_digits negative (hwhole c List.mem_cons_self) _
  -- All of it is digits, so neither a point nor an exponent is found.
  have htake : whole.takeWhile Text.isDigit = whole := List.takeWhile_eq_self_iff.mpr hwhole
  have hdrop : whole.dropWhile Text.isDigit = [] := List.dropWhile_eq_nil_iff.mpr hwhole
  unfold read?
  rw [hsign]
  simp only [htake, hdrop]
  simp [readExponent?]

/-- A number in bounds is read as it is. -/
theorem bounded?_of_inBounds {negative : Bool} {c : Nat} {e : Int}
    (h : (finite negative c e).InBounds) : bounded? negative c e = some (finite negative c e) := by
  rcases h with ⟨hlow, hhigh⟩
  refine if_neg ?_
  simp only [Bool.or_eq_true, decide_eq_true_eq]
  omega

theorem inBounds_of_bounded? {negative : Bool} {c : Nat} {e : Int} {d : Decimal}
    (h : bounded? negative c e = some d) :
    d = finite negative c e ∧ (finite negative c e).InBounds := by
  unfold bounded? at h
  split at h
  · cases h
  · rename_i hbounds
    cases h
    simp only [Bool.or_eq_true, decide_eq_true_eq, not_or, not_lt] at hbounds
    exact ⟨rfl, hbounds⟩

/-- Equal magnitudes have their leading digits at one place. -/
theorem leading_congr {c d : Nat} {e f : Int} (hc : c ≠ 0) (hd : d ≠ 0)
    (h : (c : ℚ) * (10 : ℚ) ^ e = (d : ℚ) * (10 : ℚ) ^ f) : leading c e = leading d f := by
  rcases lt_trichotomy (leading c e) (leading d f) with hlt | heq | hgt
  · exact absurd h (lt_of_leading_lt hd hlt).ne
  · exact heq
  · exact absurd h (lt_of_leading_lt hc hgt).ne'

/-- What is written of a number in bounds is in bounds. -/
theorem Positional.inBounds {negative : Bool} {c : Nat} {e : Int} {whole places : List Char}
    (h : Positional c e whole places) (hbounds : (finite negative c e).InBounds) :
    (finite negative (Nat.ofDigitChars 10 (whole ++ places) 0) (-places.length)).InBounds := by
  rcases hbounds with ⟨hlow, hhigh⟩
  have hnumber := h.number
  have hlength := h.length
  generalize Nat.ofDigitChars 10 (whole ++ places) 0 = n at hnumber ⊢
  refine ⟨by omega, ?_⟩
  by_cases hn : n = 0
  · have hcount : digitCount 0 = 1 := rfl
    rw [hn, leading, hcount]
    omega
  -- The leading digit stands at the same place in both.
  · have hc : c ≠ 0 := by
      rintro rfl
      have hpos := magnitude_pos hn (-(places.length : ℤ))
      rw [hnumber, Nat.cast_zero, zero_mul] at hpos
      exact lt_irrefl _ hpos
    rwa [leading_congr hn hc hnumber]

/-- The text of a number is read as a number of its sign that is equal to it. -/
theorem read?_fixed {negative : Bool} {c : Nat} {e : Int}
    (h : (finite negative c e).InBounds) :
    ∃ d f, read? (fixed negative c e) = some (finite negative d f) ∧
      SameNumber (finite negative d f) (finite negative c e) := by
  rcases positional_parts c e with ⟨whole, places, hparts⟩
  refine ⟨_, _, ?_, (sameNumber_finite_iff negative).mpr hparts.number⟩
  have hread := (hparts.written_whole.append hparts.written_places).readNat?
  rw [fixed, hparts.text]
  refine (read?_point negative hparts.written_whole.ne_nil hparts.written_whole.isDigit
    hparts.written_places.isDigit).trans ?_
  rw [hread, Option.bind_some, Int.zero_sub]
  exact bounded?_of_inBounds (hparts.inBounds h)

end Read

end Decimal

end Liquid
