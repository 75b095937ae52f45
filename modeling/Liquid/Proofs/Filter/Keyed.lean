import Liquid.Filter.Sequence
import Liquid.Proofs.Except

/-!
# Items and Keys

What the filters that go by a property work on: the items of a value, each with
what stands under the property in it. There is one way for this to fail. If the
value is a range with more integers than a length can count, its items cannot be
had, and if an item is one, neither can what stands under some of the keys.

## Main definitions

* `Value.TooLong`: Ranges with more integers than a length can count.
* `Filter.Keyed`: The items of a value, each with its key.
* `Filter.Unmeasured`: Values with a range in them that is too long.
* `Filter.BlockedAt`: Where the first such item stands.

## Theorems

* `Filter.keyed_eq_ok_iff`: What the filters work on.
* `Filter.keyed_eq_error_cases`, `Filter.keyed_eq_error`: How they fail.
-/

namespace Liquid

namespace Value

/-- Whether the value is a range with more integers than a length can count. -/
def TooLong : Value → Prop
  | range start stop => maxLength < (stop - start + 1).toNat
  | _ => False

section Failure

variable {v : Value} {start stop : Int} {fault : Crash}

/-- Only a range that is too long has no length. -/
theorem rangeLength_eq_error (h : rangeLength start stop = .error fault) :
    fault = .rangeTooLong ∧ (range start stop).TooLong := by
  unfold rangeLength at h
  dsimp only at h
  split at h
  · next hlong => exact ⟨(Except.error.inj h).symm, hlong⟩
  · cases h

/-- Only a range that is too long fails to be indexed. -/
theorem rangeAt_eq_error {index : Int} (h : rangeAt start stop index = .error fault) :
    fault = .rangeTooLong ∧ (range start stop).TooLong := by
  unfold rangeAt at h
  split at h
  · cases h
  · rcases bind_eq_error_iff.mp h with hlength | ⟨length, -, h⟩
    · exact rangeLength_eq_error hlength
    · cases h

/-- A key of anything but a range is always answered. -/
theorem item_eq_error {key : Key} (h : v.item key = .error fault) :
    fault = .rangeTooLong ∧ v.TooLong := by
  -- Only ranges are asked for their length.
  cases v with
  | range start stop =>
      cases key with
      | index index => exact rangeAt_eq_error h
      | name name =>
          dsimp only [item] at h
          split_ifs at h
          · rcases bind_eq_error_iff.mp (map_eq_error_iff.mp h) with hlength | ⟨length, -, h⟩
            · exact rangeLength_eq_error hlength
            · cases h
          · exact rangeAt_eq_error h
          · rcases bind_eq_error_iff.mp h with hlength | ⟨length, -, h⟩
            · exact rangeLength_eq_error hlength
            · exact rangeAt_eq_error h
      | other => cases h
  | array items => cases key <;> cases h
  | dictionary entries => cases key <;> cases h
  | _ => cases h

/-- Only a range that is too long has no items. -/
theorem elements_eq_error (h : v.elements = .error fault) : fault = .rangeTooLong ∧ v.TooLong := by
  cases v with
  | range start stop => exact rangeLength_eq_error (map_eq_error_iff.mp h)
  | _ => cases h

end Failure

end Value

namespace Filter

/-- The items of a value, each with its key before it. -/
structure Keyed (property : Option Value) (v : Value) (entries : List (Value × Value)) : Prop where
  items : v.elements = .ok (entries.map Prod.snd)
  keys : ∀ entry ∈ entries, keyOf property entry.2 = .ok entry.1

/-- Whether the value is a range that is too long, or has one among its items and a property is
asked for. -/
def Unmeasured (property : Option Value) (v : Value) : Prop :=
  v.TooLong ∨ property.isSome ∧ ∃ items, v.elements = .ok items ∧ ∃ item ∈ items, item.TooLong

/-- The first item that is a range too long to be looked into comes behind the items of the entries,
each of which is given with its key before it. -/
structure BlockedAt (property : Option Value) (v : Value) (entries : List (Value × Value))
    (item : Value) : Prop where
  items : ∃ after, v.elements = .ok (entries.map Prod.snd ++ item :: after)
  keys : ∀ entry ∈ entries, keyOf property entry.2 = .ok entry.1
  blocked : keyOf property item = .error .rangeTooLong
  tooLong : item.TooLong

section Keyed

variable {property : Option Value} {v item : Value} {entries : List (Value × Value)}

theorem crashing_eq_ok_iff {α : Type} {result : Except Crash α} {a : α} :
    crashing result = .ok a ↔ result = .ok a :=
  mapError_eq_ok_iff

/-- What is looked up in an item, kept with it. -/
theorem entryOf_eq_ok_iff {entry : Value × Value} :
    (do .ok (← crashing (keyOf property item), item) : Except FilterFailure (Value × Value)) =
        .ok entry ↔ entry.2 = item ∧ keyOf property entry.2 = .ok entry.1 := by
  rw [bind_eq_ok_iff]
  constructor
  · rintro ⟨key, hkey, hentry⟩
    cases hentry
    exact ⟨rfl, crashing_eq_ok_iff.mp hkey⟩
  · rintro ⟨rfl, hkey⟩
    exact ⟨entry.1, crashing_eq_ok_iff.mpr hkey, rfl⟩

/-- The keys are taken if each item has one. -/
theorem keyed_eq_ok_iff : keyed property v = .ok entries ↔ Keyed property v entries := by
  unfold keyed itemsOf
  rw [bind_eq_ok_iff]
  constructor
  · rintro ⟨items, hitems, hentries⟩
    have hall := mapM_eq_ok_iff.mp hentries
    simp only [entryOf_eq_ok_iff] at hall
    -- Each entry ends with the item that it was made of.
    have heq : items = entries.map Prod.snd := by
      rw [← List.forall₂_eq_eq_eq, List.forall₂_map_right_iff]
      exact hall.imp fun _ _ h => h.1.symm
    refine ⟨heq ▸ crashing_eq_ok_iff.mp hitems, fun entry hentry => ?_⟩
    rw [heq, List.forall₂_map_left_iff, List.forall₂_same] at hall
    exact (hall entry hentry).2
  · rintro ⟨hitems, hkeys⟩
    refine ⟨_, crashing_eq_ok_iff.mpr hitems, mapM_eq_ok_iff.mpr ?_⟩
    rw [List.forall₂_map_left_iff, List.forall₂_same]
    exact fun entry hentry => entryOf_eq_ok_iff.mpr ⟨rfl, hkeys entry hentry⟩

/-- What cannot be looked into is the value itself or one of its items. -/
theorem keyed_eq_error_cases {fault : FilterFailure} (h : keyed property v = .error fault) :
    fault = .crashed .rangeTooLong ∧
      (v.elements = .error .rangeTooLong ∧ v.TooLong ∨
        ∃ entries item, BlockedAt property v entries item) := by
  unfold keyed itemsOf at h
  rcases bind_eq_error_iff.mp h with hitems | ⟨items, hitems, h⟩
  · rcases mapError_eq_error_iff.mp hitems with ⟨crash, hcrash, rfl⟩
    rcases Value.elements_eq_error hcrash with ⟨rfl, hlong⟩
    exact ⟨rfl, .inl ⟨hcrash, hlong⟩⟩
  · rcases mapM_eq_error h with ⟨before, item, after, entries, rfl, hbefore, hitem⟩
    -- The items before it are those of an array on their own.
    have hentries : Keyed property (.array before) entries := keyed_eq_ok_iff.mp hbefore
    rcases Except.ok.inj hentries.items with rfl
    rcases bind_eq_error_iff.mp hitem with hkey | ⟨key, -, hkey⟩
    · rcases mapError_eq_error_iff.mp hkey with ⟨crash, hcrash, rfl⟩
      cases property with
      | none => cases hcrash
      | some property =>
          rcases Value.item_eq_error hcrash with ⟨rfl, hlong⟩
          exact ⟨rfl, .inr ⟨entries, item, ⟨after, crashing_eq_ok_iff.mp hitems⟩, hentries.keys, hcrash,
            hlong⟩⟩
    · cases hkey

/-- What blocks the keys is a range that is too long. -/
theorem BlockedAt.unmeasured (h : BlockedAt property v entries item) : Unmeasured property v := by
  rcases h.items with ⟨after, hitems⟩
  cases property with
  | none => exact absurd h.blocked (fun hkey => (nomatch hkey))
  | some property =>
      exact .inr ⟨rfl, _, hitems, item, List.mem_append_right _ List.mem_cons_self, h.tooLong⟩

/-- Nothing but a range that is too long keeps the items or their keys from being had. -/
theorem keyed_eq_error {fault : FilterFailure} (h : keyed property v = .error fault) :
    fault = .crashed .rangeTooLong ∧ Unmeasured property v := by
  rcases keyed_eq_error_cases h with ⟨rfl, ⟨-, hlong⟩ | ⟨entries, item, hblocked⟩⟩
  · exact ⟨rfl, .inl hlong⟩
  · exact ⟨rfl, hblocked.unmeasured⟩

end Keyed

end Filter

end Liquid
