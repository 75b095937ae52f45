import Liquid.Proofs.Filter.Call
import Liquid.Proofs.Render.Selection

/-!
# Sequences

The items of an array or a range can be had in several ways: by index, by the
names of the size and of the first and last item, by the filters of these names,
and one after the other in a loop. All of them see one sequence, that of the
items of the array or of the integers between the bounds, and a key of any kind
gets an answer.

There is one condition. Each of these ways asks for the length of a range, and a
range can have more integers than a length can count. Nothing but the keys that
are no index and a negative index is answered then, not even the first item.

## Main definitions

* `Value.Sequence`: The items of an array or range.
* `Landmark`: What can be asked for by name.
* `Value.Answers`: All ways to the items lead to those given.
* `Value.Overlong`: What becomes of a range with too many items.

## Theorems

* `Value.Sequence.eq_integersFrom`: The items of a range, counted from its start.
* `Value.sequence_answers`: Whether a sequence answers is a matter of its length.
-/

namespace Liquid

/-- What can be asked of a sequence by a name, which is both a key and a filter. -/
inductive Landmark
  | size
  | first
  | last
deriving DecidableEq

namespace Landmark

/-- The name to ask by. -/
def name : Landmark → String
  | size => "size"
  | first => "first"
  | last => "last"

/-- The answer for a sequence of items. -/
def of (items : List Value) : Landmark → Value
  | size => .integer items.length
  | first => items.head?.getD .nil
  | last => items.getLast?.getD .nil

/-- The filter of the name. -/
def filter : Landmark → Value → Except FilterFailure Value
  | size => Filter.size
  | first => Filter.first
  | last => Filter.last

/-- The environment without extras has the filters. -/
theorem filters_get? (settings : Settings) (mark : Landmark) :
    (Environment.create settings {}).1.filters.get? mark.name =
      some (.ofUnary mark.name mark.filter) := by
  cases mark <;> rfl

end Landmark

namespace Value

/-- The items of an array, and of a range the integers between its bounds in their order. -/
inductive Sequence : Value → List Value → Prop
  | array (items : List Value) : Sequence (.array items) items
  | range {start stop : Int} {numbers : List Int} :
      numbers.Pairwise (· < ·) → (∀ n, n ∈ numbers ↔ start ≤ n ∧ n ≤ stop) →
      Sequence (.range start stop) (numbers.map .integer)

/-- Whatever is asked of the value is answered from the items. -/
structure Answers (v : Value) (items : List Value) : Prop where
  answered : ∀ key, ∃ w, v.item key = .ok w
  inside : ∀ (i : Nat) (h : i < items.length), v.item (.index i) = .ok items[i]
  outside : ∀ i : Int, i < 0 ∨ items.length ≤ i → v.item (.index i) = .ok .nil
  landmark : ∀ mark : Landmark, v.item (.name mark.name) = .ok (mark.of items)
  filter : ∀ (settings : Settings) (mark : Landmark),
    ∃ filter, (Environment.create settings {}).1.filters.get? mark.name = some filter ∧
      ∀ args options, filter.apply v args options = .ok (mark.of items)
  loop : ∀ (env : Environment) (scope : Scope) (place : Place) (collection : Expr),
    (collection.eval env scope (some place)).result = .ok v →
    (Selection.items env scope place ⟨collection, none, none, false⟩).result = .ok items

/-- Whatever takes the length of the value crashes. -/
structure Overlong (v : Value) : Prop where
  inside : ∀ i : Nat, v.item (.index i) = .error .rangeTooLong
  outside : ∀ i : Int, i < 0 → v.item (.index i) = .ok .nil
  landmark : ∀ mark : Landmark, v.item (.name mark.name) = .error .rangeTooLong
  filter : ∀ (settings : Settings) (mark : Landmark),
    ∃ filter, (Environment.create settings {}).1.filters.get? mark.name = some filter ∧
      ∀ args options, filter.apply v args options = .error (.crashed .rangeTooLong)
  loop : ∀ (env : Environment) (scope : Scope) (place : Place) (collection : Expr),
    (collection.eval env scope (some place)).result = .ok v →
    (Selection.items env scope place ⟨collection, none, none, false⟩).result =
      .error (.crash .rangeTooLong)

section Ways

variable {v : Value} {items : List Value} {settings : Settings} {mark : Landmark}

/-- A filter of a landmark gives what its function does. -/
theorem filter_of_landmark {result : Except FilterFailure Value} (h : mark.filter v = result) :
    ∃ filter, (Environment.create settings {}).1.filters.get? mark.name = some filter ∧
      ∀ args options, filter.apply v args options = .ofExcept result :=
  ⟨_, Landmark.filters_get? settings mark, h ▸ Filter.ofUnary_apply _ _ v⟩

/-- A loop without modifiers visits the items of its collection. -/
theorem loop_of_items {env : Environment} {scope : Scope} {place : Place} {collection : Expr}
    (h : (collection.eval env scope (some place)).result = .ok v) :
    (Selection.items env scope place ⟨collection, none, none, false⟩).result =
      v.items.mapError .crash := by
  have hnone : (Selection.evalOption env scope place none).result = .ok none := rfl
  rw [Selection.items_eq_chosen h hnone hnone]
  cases v.items <;> rfl

end Ways

section Array

variable (items : List Value)

/-- A landmark of an array is the one of its items. -/
theorem array_landmark (mark : Landmark) :
    (array items).item (.name mark.name) = .ok (mark.of items) := by
  cases mark <;> rfl

/-- The filter of a landmark gives the one of the items. -/
theorem array_filter (mark : Landmark) : mark.filter (array items) = .ok (mark.of items) := by
  cases mark <;> rfl

/-- An array answers from its items. -/
theorem array_answers : (array items).Answers items where
  answered key := by cases key <;> exact ⟨_, rfl⟩
  inside i h := by
    have hi : ¬(i : Int) < 0 := by omega
    simp [item, arrayAt, hi, h]
  outside i h := by
    -- A negative index is outside as well: it does not count from the end.
    rcases h with hneg | hlarge
    · simp only [item, arrayAt, if_pos hneg]
    · have hi : ¬i < 0 := by omega
      have hnone : items[i.toNat]? = none := List.getElem?_eq_none (by omega)
      simp only [item, arrayAt, if_neg hi, hnone, Option.getD_none]
  landmark := array_landmark items
  filter _ mark := filter_of_landmark (array_filter items mark)
  loop env scope place collection h := loop_of_items h

end Array

section Range

variable {start stop : Int}

theorem pairwise_lt_integers (start : Int) (length : Nat) :
    ((List.range length).map fun (i : Nat) => start + i).Pairwise (· < ·) := by
  refine List.pairwise_map.mpr (List.pairwise_lt_range.imp ?_)
  intro i j hij
  omega

/-- The integers of a range are those between its bounds. -/
theorem mem_integers {n : Int} :
    n ∈ ((List.range (stop - start + 1).toNat).map fun (i : Nat) => start + i) ↔
      start ≤ n ∧ n ≤ stop := by
  rw [List.mem_map]
  constructor
  · rintro ⟨i, hi, rfl⟩
    have hi := List.mem_range.mp hi
    omega
  · rintro ⟨hstart, hstop⟩
    exact ⟨(n - start).toNat, List.mem_range.mpr (by omega), by omega⟩

/-- Every range has its items. -/
theorem sequence_range (start stop : Int) :
    (range start stop).Sequence (integersFrom start (stop - start + 1).toNat) := by
  have h := Sequence.range (pairwise_lt_integers start (stop - start + 1).toNat)
    fun n => mem_integers
  rwa [List.map_map] at h

/-- The items of a range are counted from its start. -/
theorem Sequence.eq_integersFrom {items : List Value} (h : (Value.range start stop).Sequence items) :
    items = integersFrom start (stop - start + 1).toNat := by
  rcases h with _ | @⟨_, _, numbers, hsorted, hmem⟩
  have hsorted' := pairwise_lt_integers start (stop - start + 1).toNat
  have hperm := (List.perm_ext_iff_of_nodup (hsorted.imp Int.ne_of_lt)
    (hsorted'.imp Int.ne_of_lt)).mpr fun n => (hmem n).trans mem_integers.symm
  have hnumbers := hperm.eq_of_pairwise (fun _ _ _ _ hlt hgt => absurd hgt (Int.lt_asymm hlt))
    hsorted hsorted'
  rw [hnumbers, List.map_map]
  rfl

theorem length_integersFrom (start : Int) (length : Nat) :
    (integersFrom start length).length = length := by
  rw [integersFrom, List.length_map, List.length_range]

theorem integersFrom_getElem {length i : Nat} (h : i < (integersFrom start length).length) :
    (integersFrom start length)[i] = integer (start + i) := by
  simp [integersFrom]

variable {length : Nat}

/-- A range that has a length answers an index as the array of its integers does. -/
theorem rangeAt_of_length (hlength : rangeLength start stop = .ok length) (i : Int) :
    rangeAt start stop i = .ok (arrayAt (integersFrom start length) i) := by
  unfold rangeAt arrayAt
  rw [hlength]
  -- Below the start, inside and beyond the end, as for an array.
  by_cases hneg : i < 0
  · rw [if_pos hneg, if_pos hneg]
  · rw [if_neg hneg, if_neg hneg]
    by_cases hi : i < length
    · have hi' : i.toNat < (integersFrom start length).length := by
        rw [length_integersFrom]
        omega
      have hcast : (i.toNat : Int) = i := by omega
      rw [List.getElem?_eq_getElem hi', integersFrom_getElem, hcast]
      exact congrArg _ (if_pos hi)
    · have hnone : (integersFrom start length)[i.toNat]? = none :=
        List.getElem?_eq_none (by rw [length_integersFrom]; omega)
      rw [hnone]
      exact congrArg _ (if_neg hi)

theorem arrayAt_zero (items : List Value) : arrayAt items 0 = items.head?.getD nil := by
  cases items <;> rfl

theorem arrayAt_length_sub_one (items : List Value) :
    arrayAt items (items.length - 1) = items.getLast?.getD nil := by
  cases items with
  | nil => rfl
  | cons item rest =>
      have hlast : ((item :: rest).length - 1 : Int) = (rest.length : Nat) := by
        rw [List.length_cons]
        omega
      have hneg : ¬(rest.length : Int) < 0 := by omega
      rw [hlast, arrayAt, if_neg hneg, Int.toNat_natCast, List.getLast?_eq_getElem?]
      rfl

/-- A range with a length has under each key what the array of its integers has. -/
theorem item_range_of_length (hlength : rangeLength start stop = .ok length) (key : Key) :
    (range start stop).item key = (array (integersFrom start length)).item key := by
  cases key with
  | index i => exact rangeAt_of_length hlength i
  | other => rfl
  | name name =>
      have hfirst := rangeAt_of_length hlength 0
      have hlast := rangeAt_of_length hlength (length - 1)
      have hend := arrayAt_length_sub_one (integersFrom start length)
      rw [length_integersFrom] at hend
      rw [arrayAt_zero] at hfirst
      rw [hend] at hlast
      simp only [item, hlength, hfirst, length_integersFrom, Except.map]
      -- What is left is that the names are asked for in the same order.
      split
      · rfl
      · split
        · rfl
        · split
          · exact hlast
          · rfl

/-- The filter of a landmark gives the one of the integers of a range. -/
theorem range_filter (hlength : rangeLength start stop = .ok length) (mark : Landmark) :
    mark.filter (range start stop) = .ok (mark.of (integersFrom start length)) := by
  cases mark with
  | size => simp only [Landmark.filter, Filter.size, hlength, Landmark.of, length_integersFrom]
  | first =>
      simp only [Landmark.filter, Filter.first, Filter.itemsOf, elements, items, hlength]
      rfl
  | last =>
      simp only [Landmark.filter, Filter.last, Filter.itemsOf, elements, items, hlength]
      rfl

/-- A range with a length answers from its integers. -/
theorem range_answers (hlength : rangeLength start stop = .ok length) :
    (range start stop).Answers (integersFrom start length) where
  answered key := item_range_of_length hlength key ▸ (array_answers _).answered key
  inside i h := (item_range_of_length hlength _).trans ((array_answers _).inside i h)
  outside i h := (item_range_of_length hlength _).trans ((array_answers _).outside i h)
  landmark mark := (item_range_of_length hlength _).trans ((array_answers _).landmark mark)
  filter _ mark := filter_of_landmark (range_filter hlength mark)
  loop env scope place collection h := by
    rw [loop_of_items h, items, hlength]
    rfl

/-- A range without a length crashes. -/
theorem range_overlong (hlength : rangeLength start stop = .error .rangeTooLong) :
    (range start stop).Overlong where
  inside i := by
    have hi : ¬(i : Int) < 0 := by omega
    rw [item, rangeAt, if_neg hi, hlength]
    rfl
  outside i h := by rw [item, rangeAt, if_pos h]
  -- Each of the landmarks asks for the length first.
  landmark mark := by
    cases mark with
    | size =>
        change (rangeLength start stop).map (fun length => integer length) = _
        rw [hlength]
        rfl
    | first =>
        change rangeAt start stop 0 = _
        rw [rangeAt, if_neg (by decide), hlength]
        rfl
    | last =>
        change (rangeLength start stop >>= fun length => rangeAt start stop (length - 1)) = _
        rw [hlength]
        rfl
  filter settings mark := by
    have hfails : mark.filter (range start stop) = .error (.crashed .rangeTooLong) := by
      cases mark <;>
        simp only [Landmark.filter, Filter.size, Filter.first, Filter.last, Filter.itemsOf,
          elements, items, hlength] <;> rfl
    exact filter_of_landmark hfails
  loop env scope place collection h := by
    rw [loop_of_items h, items, hlength]
    rfl

end Range

/-- Keys, filters and loops see the items of an array, and those of a range with no more integers
than a length can count. A longer range crashes wherever its length is asked for. -/
theorem sequence_answers {v : Value} {items : List Value} (h : v.Sequence items) :
    ((∀ start stop, v = range start stop → items.length ≤ maxLength) → v.Answers items) ∧
      (∀ start stop, v = range start stop → maxLength < items.length → v.Overlong) := by
  cases v with
  | array =>
      cases h
      exact ⟨fun _ => array_answers items, fun _ _ h => by cases h⟩
  | range start stop =>
      have hitems := h.eq_integersFrom
      -- The items of a range are as many as its bounds say, however many that is.
      have hcount : items.length = (stop - start + 1).toNat := by
        rw [hitems, length_integersFrom]
      refine ⟨fun hfits => ?_, fun _ _ _ hlong => ?_⟩
      · have hfits := hfits start stop rfl
        have hlength : rangeLength start stop = .ok (stop - start + 1).toNat :=
          if_neg (by omega)
        rw [hitems]
        exact range_answers hlength
      · have hlength : rangeLength start stop = .error .rangeTooLong := if_pos (by omega)
        exact range_overlong hlength
  | _ => cases h

/-- A range around zero. -/
theorem sequence_answers_signs :
    (range (-1) 1).Sequence [integer (-1), integer 0, integer 1] ∧
      (∀ start stop, range (-1) 1 = range start stop →
        [integer (-1), integer 0, integer 1].length ≤ maxLength) ∧
      (range (-1) 1).item (.index 2) = .ok (integer 1) ∧
      (range (-1) 1).item (.name "first") = .ok (integer (-1)) := by
  have hsequence := sequence_range (-1) 1
  have hfits : ∀ start stop, range (-1) 1 = range start stop →
      [integer (-1), integer 0, integer 1].length ≤ maxLength := fun _ _ _ => by decide
  have hanswers := (sequence_answers hsequence).1 hfits
  exact ⟨hsequence, hfits, hanswers.inside 2 (by decide), hanswers.landmark .first⟩

/-- A range with a first item, a last one and a size, none of which can be had. -/
theorem range_beyond_length :
    let v := range 1 9223372036854775808
    v.item (.name "size") = .error .rangeTooLong ∧ v.item (.name "first") = .error .rangeTooLong ∧
      v.item (.name "last") = .error .rangeTooLong ∧ v.item (.index 0) = .error .rangeTooLong ∧
      ∃ items, v.Sequence items ∧ items.length = 9223372036854775808 ∧
        items.head? = some (integer 1) := by
  intro v
  have hsequence := sequence_range 1 9223372036854775808
  refine ⟨rfl, rfl, rfl, rfl, _, hsequence, length_integersFrom _ _, ?_⟩
  -- The items are never computed, only counted.
  rw [List.head?_eq_getElem?, List.getElem?_eq_getElem (by rw [length_integersFrom]; decide),
    integersFrom_getElem]
  rfl

end Value

end Liquid
