import Liquid.Text.Blank
import Liquid.Text.Digit
import Liquid.Text.Word
import Mathlib.Algebra.Group.Nat.Defs
import Mathlib.Data.List.Induction

/-!
# Sets of Characters, and What Digits Write

A set of characters is kept as a list of flips, which is short where its runs
are long. Being inside a run and having a distance from the start of one are
told from the same list, in two ways that agree as long as every run is closed.

A set with few characters can be written out as well: the points of its runs,
one run after the other. What holds of all blanks is then checked blank by blank,
though the characters that are no blanks are far too many for that.

A run of digits writes a number, whatever the script: what is a digit also has a
value. The number has no more digits than its text.

Numbers are written with the digits of one script only, whose run is the first
of the list. What these write is the number that the standard library reads.

## Main definitions

* `Text.CharSet.points`: The points of a set.
* `Text.Digits`: What a run of digits writes, digit by digit.
* `Text.Written`: A run of the digits that numbers are written with.

## Theorems

* `Text.CharSet.inside_eq_isSome_offset?`: The points inside a run are those with
  a distance from its start.
* `Text.CharSet.mem_points`: The characters of a set are among its points.
* `Text.isWordChar_of_isBlank`: No blank is part of a word.
* `Text.isDigit_iff`: The digits are the characters that have a value.
* `Text.readNat?_digits`: A run of digits writes a number that is no longer than
  the run.
* `Text.readNat?_eq_some_iff`: What is read is what the digits write.
* `Text.Written.readNat?`: What is written with these digits is read.
-/

namespace Liquid

namespace Text

namespace CharSet

/-- Where every run is closed, the points inside a run are those with a distance from its start. -/
theorem inside_eq_isSome_offset? (flips : List Nat) (heven : flips.length % 2 = 0)
    (point : Nat) : inside flips point = (offset? flips point).isSome := by
  -- A point is before a range of digits, in it, or behind it.
  induction flips, point using offset?.induct with
  | case1 point first past flips hbefore =>
      rw [inside, offset?, if_pos hbefore, if_pos hbefore]
      rfl
  | case2 point first past flips hbefore hinside =>
      rw [inside, offset?, inside, if_neg hbefore, if_neg hbefore, if_pos hinside, if_pos hinside]
      rfl
  | case3 point first past flips hbefore hinside ih =>
      rw [inside, offset?, inside, if_neg hbefore, if_neg hbefore, if_neg hinside, if_neg hinside,
        Bool.not_not]
      exact ih (by simp only [List.length_cons] at heven; omega)
  | case4 flips point hshort =>
      match flips with
      | [] => rfl
      | [_] => simp at heven
      | first :: past :: flips => exact absurd rfl (hshort first past flips)

theorem inside_of_le {flip point : Nat} (h : flip ≤ point) (flips : List Nat) :
    inside (flip :: flips) point = !inside flips point :=
  if_neg (Nat.not_lt.mpr h)

theorem inside_of_lt {flip point : Nat} (h : point < flip) (flips : List Nat) :
    inside (flip :: flips) point = false :=
  if_pos h

/-- The points between each two flips, from the one up to the other. -/
def points : List Nat → List Nat
  | first :: past :: flips => List.range' first (past - first) ++ points flips
  | _ => []

/-- The points that are offset are all in the list of the ranges. -/
theorem mem_points_of_offset? {flips : List Nat} {point : Nat}
    (h : (offset? flips point).isSome) : point ∈ points flips := by
  -- By the search: before the first run, in it, or behind it.
  induction flips, point using offset?.induct with
  | case1 point first past flips hbefore => simp [offset?, hbefore] at h
  | case2 point first past flips hbefore hinside =>
      refine List.mem_append_left _ (List.mem_range'_1.mpr ?_)
      omega
  | case3 point first past flips hbefore hinside ih =>
      rw [offset?, if_neg hbefore, if_neg hinside] at h
      exact List.mem_append_right _ (ih h)
  | case4 flips point hshort =>
      rcases flips with _ | ⟨first, _ | ⟨past, flips⟩⟩
      · cases h
      · cases h
      · exact absurd rfl (hshort first past flips)

/-- Where every run is closed, the characters of a set are among its points. -/
theorem mem_points {set : CharSet} (heven : set.flips.length % 2 = 0) {c : Char}
    (h : set.has c = true) : c.toNat ∈ points set.flips := by
  unfold has at h
  rw [inside_eq_isSome_offset? _ heven] at h
  exact mem_points_of_offset? h

end CharSet

/-- No blank is part of a word. -/
theorem isWordChar_of_isBlank {c : Char} (h : isBlank c = true) : isWordChar c = false := by
  have hpoint := CharSet.mem_points (by simp [blanks]) h
  have hword : ∀ point ∈ CharSet.points blanks.flips,
      point ≠ '_'.toNat ∧ CharSet.inside alphanumerics.flips point = false := by
    decide +kernel
  rcases hword _ hpoint with ⟨hunderscore, hinside⟩
  have hne : (c == '_') = false := by
    rw [beq_eq_false_iff_ne]
    rintro rfl
    exact hunderscore rfl
  rw [isWordChar, hne, CharSet.has, hinside]
  rfl

theorem length_flips_digits : digits.flips.length % 2 = 0 := by
  simp [digits]

/-- To be a digit is to have a value. -/
theorem isDigit_iff {c : Char} : isDigit c = true ↔ ∃ d, digitValue? c = some d := by
  unfold isDigit digitValue? CharSet.has
  rw [CharSet.inside_eq_isSome_offset? _ length_flips_digits]
  cases CharSet.offset? digits.flips c.toNat <;> simp

theorem digitValue?_lt {c : Char} {d : Nat} (h : digitValue? c = some d) : d < 10 := by
  rcases Option.map_eq_some_iff.mp h with ⟨offset, _, rfl⟩
  exact Nat.mod_lt _ (by decide)

/-- Each digit multiplies the bound by ten. -/
theorem readNatFrom?_digits {cs : List Char} (hcs : ∀ c ∈ cs, isDigit c = true) (acc : Nat) :
    ∃ n, readNatFrom? acc cs = some n ∧ n < (acc + 1) * 10 ^ cs.length := by
  induction cs generalizing acc with
  | nil => exact ⟨acc, rfl, by simp⟩
  | cons c cs ih =>
      rcases isDigit_iff.mp (hcs c List.mem_cons_self) with ⟨d, hd⟩
      rcases ih (fun c hc => hcs c (List.mem_cons_of_mem _ hc)) (10 * acc + d) with ⟨n, hn, hlt⟩
      refine ⟨n, by rw [readNatFrom?, hd, Option.bind_some, hn], Nat.lt_of_lt_of_le hlt ?_⟩
      have hstep : 10 * acc + d + 1 ≤ (acc + 1) * 10 := by
        have := digitValue?_lt hd
        omega
      -- With one more digit there are ten times as many numbers to write.
      rw [List.length_cons, Nat.pow_succ', ← Nat.mul_assoc]
      exact Nat.mul_le_mul_right _ hstep

/-- Digits are read as a number with no more digits. -/
theorem readNat?_digits {cs : List Char} (hne : cs ≠ []) (hcs : ∀ c ∈ cs, isDigit c = true) :
    ∃ n, readNat? cs = some n ∧ n < 10 ^ cs.length := by
  rcases readNatFrom?_digits hcs 0 with ⟨n, hn, hlt⟩
  cases cs with
  | nil => exact absurd rfl hne
  | cons c cs => exact ⟨n, hn, by simpa using hlt⟩

/-- The number that a run of digits writes: a digit alone writes its value, and a digit behind
others adds its value to ten times what they write. -/
inductive Digits : List Char → Nat → Prop
  | one {c : Char} {d : Nat} : digitValue? c = some d → Digits [c] d
  | more {cs : List Char} {n : Nat} {c : Char} {d : Nat} :
      Digits cs n → digitValue? c = some d → Digits (cs ++ [c]) (10 * n + d)

namespace Digits

variable {cs : List Char} {n : Nat}

theorem ne_nil (h : Digits cs n) : cs ≠ [] := by
  cases h with
  | one => exact List.cons_ne_nil _ _
  | more => exact List.append_ne_nil_of_right_ne_nil _ (List.cons_ne_nil _ _)

/-- Every character of the run has a value, so it is a digit of some script. -/
theorem isDigit (h : Digits cs n) : ∀ c ∈ cs, Text.isDigit c = true := by
  induction h with
  | one hd => exact List.forall_mem_singleton.mpr (isDigit_iff.mpr ⟨_, hd⟩)
  | more _ hd ih =>
      intro c hc
      rcases List.mem_append.mp hc with hc | hc
      · exact ih c hc
      · exact List.mem_singleton.mp hc ▸ isDigit_iff.mpr ⟨_, hd⟩

/-- The number has no more digits than its text; leading zeros may make it have fewer. -/
theorem lt (h : Digits cs n) : n < 10 ^ cs.length := by
  induction h with
  | one hd => simpa using digitValue?_lt hd
  | more _ hd ih =>
      have := digitValue?_lt hd
      rw [List.length_append, List.length_singleton, Nat.pow_succ]
      omega

end Digits

theorem readNat?_of_ne_nil {cs : List Char} (h : cs ≠ []) : readNat? cs = readNatFrom? 0 cs := by
  cases cs with
  | nil => exact absurd rfl h
  | cons => rfl

/-- The last digit is read last. -/
theorem readNatFrom?_concat (acc : Nat) (cs : List Char) (c : Char) :
    readNatFrom? acc (cs ++ [c]) =
      (readNatFrom? acc cs).bind fun n => (digitValue? c).map (10 * n + ·) := by
  induction cs generalizing acc with
  | nil =>
      rw [List.nil_append, readNatFrom?, readNatFrom?, Option.bind_some]
      cases digitValue? c <;> rfl
  | cons first cs ih =>
      rw [List.cons_append, readNatFrom?, readNatFrom?]
      cases digitValue? first with
      | none => rfl
      | some d => exact ih _

/-- The reader goes from the front and the relation from the back; they agree on every run. -/
theorem readNat?_eq_some_iff {cs : List Char} {n : Nat} : readNat? cs = some n ↔ Digits cs n := by
  constructor
  · intro h
    -- The digits denote a number from behind, as they are added to it.
    induction cs using List.reverseRecOn generalizing n with
    | nil => cases h
    | append_singleton cs c ih =>
        rw [readNat?_of_ne_nil (by simp), readNatFrom?_concat] at h
        rcases Option.bind_eq_some_iff.mp h with ⟨m, hm, hlast⟩
        rcases Option.map_eq_some_iff.mp hlast with ⟨d, hd, rfl⟩
        by_cases hcs : cs = []
        · subst hcs
          cases hm
          simpa using Digits.one hd
        · exact .more (ih (by rw [readNat?_of_ne_nil hcs, hm])) hd
  · intro h
    induction h with
    | one hd => simp [readNat?, readNatFrom?, hd]
    | @more cs n c d hcs hd ih =>
        rw [readNat?_of_ne_nil hcs.ne_nil] at ih
        rw [readNat?_of_ne_nil (by simp), readNatFrom?_concat, ih, hd]
        rfl

/-- A run of the digits that numbers are written with. -/
structure Written (cs : List Char) : Prop where
  ne_nil : cs ≠ []
  digit : ∀ c ∈ cs, c.isDigit = true

/-- The digits that numbers are written with are the first run of all. -/
theorem digitValue?_of_isDigit {c : Char} (h : c.isDigit = true) :
    digitValue? c = some (c.toNat - '0'.toNat) := by
  have hpoint := Char.isDigit_iff_toNat.mp h
  simp only [Char.reduceToNat] at hpoint ⊢
  have hfirst : CharSet.offset? digits.flips c.toNat = some (c.toNat - 48) := by
    rw [digits, CharSet.offset?, if_neg (by omega), if_pos (by omega)]
  rw [digitValue?, hfirst, Option.map_some, Nat.mod_eq_of_lt (by omega)]

/-- No digit of any script is a blank: there are few blanks, and none of them is a digit. -/
theorem isBlank_of_isDigit {c : Char} (h : isDigit c = true) : isBlank c = false := by
  have hnone : ∀ point ∈ CharSet.points blanks.flips,
      CharSet.inside digits.flips point = false := by
    decide +kernel
  cases hblank : isBlank c with
  | false => rfl
  | true =>
      have hdigit := hnone _ (CharSet.mem_points (by simp [blanks]) hblank)
      rw [isDigit, CharSet.has, hdigit] at h
      cases h

/-- Digits of ASCII are read as the library reads them. -/
theorem readNatFrom?_of_isDigit {cs : List Char} (hcs : ∀ c ∈ cs, c.isDigit = true) (acc : Nat) :
    readNatFrom? acc cs = some (Nat.ofDigitChars 10 cs acc) := by
  induction cs generalizing acc with
  | nil => rfl
  | cons c cs ih =>
      rw [readNatFrom?, digitValue?_of_isDigit (hcs c List.mem_cons_self), Option.bind_some,
        ih fun c hc => hcs c (List.mem_cons_of_mem _ hc), Nat.ofDigitChars_cons]

namespace Written

theorem length_pos {cs : List Char} (h : Written cs) : 0 < cs.length :=
  List.length_pos_iff.mpr h.ne_nil

theorem singleton {c : Char} (h : c.isDigit = true) : Written [c] :=
  ⟨List.cons_ne_nil c [], fun _ hc => List.mem_singleton.mp hc ▸ h⟩

theorem append {cs ds : List Char} (hcs : Written cs) (hds : Written ds) : Written (cs ++ ds) :=
  ⟨List.append_ne_nil_of_left_ne_nil hcs.ne_nil ds, fun c hc =>
    (List.mem_append.mp hc).elim (hcs.digit c) (hds.digit c)⟩

/-- They are digits also among those of all scripts. -/
theorem isDigit {cs : List Char} (h : Written cs) : ∀ c ∈ cs, Text.isDigit c = true :=
  fun c hc => isDigit_iff.mpr ⟨_, digitValue?_of_isDigit (h.digit c hc)⟩

theorem readNat? {cs : List Char} (h : Written cs) :
    Text.readNat? cs = some (Nat.ofDigitChars 10 cs 0) := by
  cases cs with
  | nil => exact absurd rfl h.ne_nil
  | cons c cs => exact readNatFrom?_of_isDigit h.digit 0

theorem toDigits (n : Nat) : Written (Nat.toDigits 10 n) :=
  ⟨Nat.toDigits_ne_nil, fun _ => Nat.isDigit_of_mem_toDigits (by decide) (by decide)⟩

end Written

end Text

end Liquid
