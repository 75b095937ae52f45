import Liquid.Environment
import Liquid.Proofs.Filter.Call

/-!
# Slices as Windows

Which items a slice has. The items of an array and the characters of a text have
indices from zero on, and a slice has those whose index is in a window: from a
base on, as many as its length. Nothing needs to be said of a window that goes
beyond the ends, on either side, or that has no room in it. It has the indices
that there are.

A start below zero moves the base by the number of items, so that it counts from
the end. What is cut off by a base that is still below zero is not made up for
behind.

## Main definitions

* `Filter.base`: Where the window begins.
* `Filter.within`: The members in the window.
* `Filter.Windows`: The slices of a value.

## Theorems

* `Filter.window_eq_within`: What is taken are the members in the window.
* `Filter.slice_selects`: The slices of any value.
-/

namespace Liquid

namespace Filter

/-- Where the window begins that is asked for in a list of the given size. -/
def base (start : Int) (size : Nat) : Int :=
  if 0 ≤ start then start else start + size

/-- The members whose index is in the window, in order. -/
def within {α : Type} (start length : Int) (xs : List α) : List α :=
  let first := base start xs.length
  (xs.zipIdx.filter fun (_, index) => first ≤ index ∧ index < first + length).map Prod.fst

/-- The slices of a value with the given items, as far as a start and a length decide them. -/
structure Windows {α : Type} (answer : Int → Int → Noted FilterFailure Value)
    (value : List α → Value) (items : List α) : Prop where
  selected : ∀ start length, answer start length = .ok (value (within start length items))
  /-- A slice from the start and the one behind it are all there is. -/
  parted : ∀ k length : Int, 0 ≤ k → items.length ≤ length → ∃ before behind,
    answer 0 k = .ok (value before) ∧ answer k length = .ok (value behind) ∧
      before ++ behind = items

section Within

variable {α : Type}

/-- Of members that are counted from `k` on, those between two indices are a part. -/
theorem filter_zipIdx (low high : Int) (xs : List α) (k : Nat) :
    ((xs.zipIdx k).filter fun (_, index) => low ≤ index ∧ index < high).map Prod.fst =
      (xs.drop (low - k).toNat).take (high - max low k).toNat := by
  induction xs generalizing k with
  | nil => simp
  | cons x xs ih =>
      rw [List.zipIdx_cons, List.filter_cons]
      by_cases hlow : low ≤ k
      · have hdrop : (low - k).toNat = 0 := by omega
        have hdrop' : (low - (k + 1 : Nat)).toNat = 0 := by omega
        by_cases hhigh : k < high
        · -- The member is in the window, and those behind it are one less.
          have htake : (high - max low k).toNat = (high - max low (k + 1 : Nat)).toNat + 1 := by
            omega
          rw [if_pos (by simpa using ⟨hlow, hhigh⟩), List.map_cons, ih, hdrop, hdrop', htake]
          rfl
        -- The window has ended.
        · have htake : (high - max low k).toNat = 0 := by omega
          have htake' : (high - max low (k + 1 : Nat)).toNat = 0 := by omega
          rw [if_neg (by simpa using fun _ => by omega), ih, htake, htake', List.take_zero,
            List.take_zero]
      -- The window has not begun, so one less is left to drop.
      · have hdrop : (low - k).toNat = (low - (k + 1 : Nat)).toNat + 1 := by omega
        have htake : max low k = max low (k + 1 : Nat) := by omega
        rw [if_neg (by simp [hlow]), ih, hdrop, htake, List.drop_succ_cons]

/-- The window is a start that is dropped and a length that is taken. -/
theorem within_eq (start length : Int) (xs : List α) :
    within start length xs =
      (xs.drop (base start xs.length).toNat).take
        (base start xs.length + length - max (base start xs.length) 0).toNat := by
  have hall := filter_zipIdx (base start xs.length) (base start xs.length + length) xs 0
  rwa [Int.natCast_zero, Int.sub_zero] at hall

/-- Both ends of the window are cut to the list. -/
theorem window_eq_within (start length : Int) (xs : List α) :
    window start length xs = within start length xs := by
  rw [within_eq]
  unfold window base
  -- A start below zero is counted from the end.
  by_cases hstart : 0 ≤ start
  · have hneg : ¬start < 0 := by omega
    have htake : (start + length - max start 0).toNat = length.toNat := by omega
    simp only [if_pos hstart, if_neg hneg, htake]
  · have hneg : start < 0 := by omega
    by_cases hbefore : start + xs.length < 0
    · -- The base is out of the list, and so is a part of the window.
      have hdrop : (start + xs.length).toNat = 0 := by omega
      have htake : (start + xs.length + length - max (start + xs.length) 0).toNat =
          (length + (start + xs.length)).toNat := by
        omega
      simp only [if_neg hstart, if_pos hneg, if_pos hbefore, hdrop, htake, Int.toNat_zero]
    · have htake : (start + xs.length + length - max (start + xs.length) 0).toNat =
          length.toNat := by
        omega
      simp only [if_neg hstart, if_pos hneg, if_neg hbefore, htake]

/-- Two windows that meet are one. -/
theorem window_append {k length : Int} (hk : 0 ≤ k) (xs : List α) (hlength : xs.length ≤ length) :
    window 0 k xs ++ window k length xs = xs := by
  have hbefore : window 0 k xs = xs.take k.toNat := rfl
  have hbehind : window k length xs = xs.drop k.toNat := by
    have hneg : ¬k < 0 := by omega
    unfold window
    simp only [if_neg hneg]
    refine List.take_of_length_le ?_
    rw [List.length_drop]
    omega
  rw [hbefore, hbehind, List.take_append_drop]

end Within

section Filters

theorem slice_array (items : List Value) (start length : Int) :
    slice (.array items) (.integer start) (some (.integer length)) =
      .ok (.array (window start length items)) := by
  simp only [slice, countOf_integer]

/-- What is no array is sliced as a text. -/
theorem slice_text {v : Value} (h : ∀ items, v ≠ .array items) (start length : Int) :
    slice v (.integer start) (some (.integer length)) =
      textResult (window start length v.display.toList) := by
  cases v with
  | array items => exact absurd rfl (h items)
  | _ => simp only [slice, countOf_integer, charsOf]

/-- What is sliced like a list in some representation has its windows. -/
theorem windows_of_window {α : Type} {answer : Int → Int → Noted FilterFailure Value}
    {value : List α → Value} {items : List α}
    (h : ∀ start length, answer start length = .ok (value (window start length items))) :
    Windows answer value items where
  selected start length := by rw [h, window_eq_within]
  parted k length hk hlength := ⟨_, _, h 0 k, h k length, window_append hk items hlength⟩

/-- The slices of an array are arrays of the items in a window. Those of any other value are texts of
the characters that it shows. -/
theorem slice_selects (settings : Settings) :
    ∃ slice, (Environment.create settings {}).1.filters.get? "slice" = some slice ∧
      ∀ (rest : List Value) (options : Table Value),
        (∀ items, Windows (fun start length =>
          slice.apply (.array items) (.integer start :: .integer length :: rest) options)
            .array items) ∧
        ∀ v, (∀ items, v ≠ .array items) → Windows (fun start length =>
          slice.apply v (.integer start :: .integer length :: rest) options)
            (fun cs => .string (String.ofList cs)) v.display.toList := by
  refine ⟨.ofTernary "slice" slice, rfl, fun rest options => ⟨?_, ?_⟩⟩
  -- Arrays are sliced by their items, all else by the characters of its text.
  · intro items
    apply windows_of_window
    intro start length
    rw [ofTernary_apply]
    exact congrArg Noted.ofExcept (slice_array items start length)
  · intro v hv
    apply windows_of_window
    intro start length
    rw [ofTernary_apply]
    exact congrArg Noted.ofExcept (slice_text hv start length)

/-- A window that begins before the text and ends inside it, and a text that is parted where that
ends. -/
theorem slice_selects_before :
    let v : Value := .string "abcde"
    let answer (start length : Int) : Noted FilterFailure Value :=
      (ofTernary "slice" slice).apply v [.integer start, .integer length] []
    (∀ items, v ≠ .array items) ∧ within (-7) 4 v.display.toList = ['a', 'b'] ∧
      answer (-7) 4 = .ok (.string "ab") ∧ (0 : Int) ≤ 2 ∧ (v.display.toList.length : Int) ≤ 9 ∧
      ∃ before behind, answer 0 2 = .ok (.string (String.ofList before)) ∧
        answer 2 9 = .ok (.string (String.ofList behind)) ∧ before ++ behind = "abcde".toList := by
  intro v answer
  have hv : ∀ items, v ≠ .array items := fun items h => nomatch h
  have hwithin : within (-7) 4 v.display.toList = ['a', 'b'] := by decide
  have hk : (0 : Int) ≤ 2 := by decide
  have hlength : (v.display.toList.length : Int) ≤ 9 := by decide
  rcases slice_selects {} with ⟨found, hfound, h⟩
  have hfound' : found = ofTernary "slice" slice := (Option.some.inj hfound).symm
  subst hfound'
  have hwindows := (h [] []).2 v hv
  refine ⟨hv, hwithin, ?_, hk, hlength, hwindows.parted 2 9 hk hlength⟩
  have hanswer := hwindows.selected (-7) 4
  rw [hwithin] at hanswer
  exact hanswer

end Filters

end Filter

end Liquid
