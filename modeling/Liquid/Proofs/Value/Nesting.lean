import Liquid.Value.Order
import Mathlib.Data.List.Nodup

/-!
# Nested Values

How statements about all values are proved, and what the functions that walk a
value do to its members.

Arrays and dictionaries hold lists of values, so the principle of induction
that comes with the type speaks of lists as well as of values. Nothing is ever
to be shown of the lists for their own sake: what holds of a container follows
from what holds of each member. `Value.byMembers` says that.

The functions that walk a value recurse on its lists by hand. Each of these
recursions is a map in disguise, and the equations that say so let the theory
of lists do the rest.

A dictionary is kept as a list, which could hold a key twice. No dictionary
does, and what depends on that has it as a condition, at every depth.

## Main definitions

* `Value.members`: The values directly inside a container.
* `Value.KeysDistinct`: No dictionary inside the value holds a key twice.

## Theorems

* `Value.byMembers`: Induction on values by their members.
* `Value.normal_array`, `Value.normal_dictionary`: Normal forms by members.
* `Value.sortedByKey_perm`: Sorting loses and adds no entry.
* `Value.sortedByKey_congr`: With distinct keys, sorting forgets the order.
-/

namespace Liquid

namespace Value

/-- The values directly inside a container. -/
def members : Value → List Value
  | array items => items
  | dictionary entries => entries.map Prod.snd
  | _ => []

/-- A member is smaller than what it is a member of. -/
theorem sizeOf_lt_of_mem_members {v item : Value} (h : item ∈ v.members) :
    sizeOf item < sizeOf v := by
  -- Only arrays and dictionaries have members.
  cases v with
  | array items =>
      have hlt : sizeOf item < sizeOf items := List.sizeOf_lt_of_mem h
      rw [array.sizeOf_spec]
      omega
  | dictionary entries =>
      rcases List.mem_map.mp h with ⟨⟨key, value⟩, hmem, rfl⟩
      have hlt := List.sizeOf_lt_of_mem hmem
      rw [Prod.mk.sizeOf_spec] at hlt
      rw [dictionary.sizeOf_spec]
      simp only
      omega
  | _ => cases h

/-- Induction on values: what holds of a value if it holds of each of its members holds of all
    values. -/
@[elab_as_elim]
theorem byMembers {motive : Value → Prop}
    (step : ∀ v, (∀ item ∈ v.members, motive item) → motive v) (v : Value) : motive v :=
  step v fun item _hmem => byMembers step item
termination_by sizeOf v
decreasing_by exact sizeOf_lt_of_mem_members _hmem

/-- No dictionary inside the value, however deep, holds a key twice. -/
inductive KeysDistinct : Value → Prop
  | nil : KeysDistinct .nil
  | bool (flag : Bool) : KeysDistinct (.bool flag)
  | integer (number : Int) : KeysDistinct (.integer number)
  | decimal (number : Decimal) : KeysDistinct (.decimal number)
  | string (text : String) : KeysDistinct (.string text)
  | array {items : List Value} (hitems : ∀ item ∈ items, KeysDistinct item) :
      KeysDistinct (.array items)
  | dictionary {entries : List (String × Value)} (hkeys : (entries.map Prod.fst).Nodup)
      (hitems : ∀ entry ∈ entries, KeysDistinct entry.2) : KeysDistinct (.dictionary entries)
  | range (start stop : Int) : KeysDistinct (.range start stop)

/-- The members of a value with distinct keys have distinct keys. -/
theorem KeysDistinct.item {v item : Value} (h : v.KeysDistinct) (hmem : item ∈ v.members) :
    item.KeysDistinct := by
  cases h with
  | array hitems => exact hitems item hmem
  | dictionary hkeys hitems =>
      rcases List.mem_map.mp hmem with ⟨entry, hentry, rfl⟩
      exact hitems entry hentry
  | _ => cases hmem

theorem KeysDistinct.keys {entries : List (String × Value)}
    (h : (Value.dictionary entries).KeysDistinct) : (entries.map Prod.fst).Nodup := by
  cases h with
  | dictionary hkeys hitems => exact hkeys

theorem normals_eq_map (items : List Value) : normals items = items.map normal := by
  induction items with
  | nil => rfl
  | cons item items ih => rw [normals, ih, List.map_cons]

/-- An entry with its value in normal form. -/
def normalEntry (entry : String × Value) : String × Value :=
  (entry.1, entry.2.normal)

theorem normalEntries_eq_map (entries : List (String × Value)) :
    normalEntries entries = entries.map normalEntry := by
  induction entries with
  | nil => rfl
  | cons entry entries ih =>
      rcases entry with ⟨key, item⟩
      rw [normalEntries, ih, List.map_cons]
      rfl

theorem sortedByKey_perm (entries : List (String × Value)) :
    (sortedByKey entries).Perm entries :=
  List.mergeSort_perm _ _

/-- Sorted entries have their keys in order. -/
theorem sortedByKey_pairwise (entries : List (String × Value)) :
    (sortedByKey entries).Pairwise fun a b => (Ord.compare a.1 b.1).isLE := by
  refine List.pairwise_mergeSort (fun a b c hab hbc => ?_) (fun a b => ?_) entries
  · exact Std.TransCmp.isLE_trans hab hbc
  · rw [Std.OrientedOrd.eq_swap (a := b.1)]
    cases Ord.compare a.1 b.1 <;> rfl

/-- Sorting goes by the keys alone, so what changes only the values can be done before or
    after. -/
theorem sortedByKey_map {f : String × Value → String × Value} (hf : ∀ entry, (f entry).1 = entry.1)
    (entries : List (String × Value)) :
    sortedByKey (entries.map f) = (sortedByKey entries).map f := by
  refine (List.map_mergeSort (fun a _ b _ => ?_)).symm
  rw [hf, hf]

theorem normal_array (items : List Value) : (array items).normal = array (items.map normal) := by
  rw [normal, normals_eq_map]

theorem normal_dictionary (entries : List (String × Value)) :
    (dictionary entries).normal = dictionary ((sortedByKey entries).map normalEntry) := by
  rw [normal, normalEntries_eq_map, sortedByKey_map (f := normalEntry) fun _ => rfl]

/-- With distinct keys, sorting forgets the order in which the entries came. -/
theorem sortedByKey_congr {as bs : List (String × Value)} (hkeys : (as.map Prod.fst).Nodup)
    (h : as.Perm bs) : sortedByKey as = sortedByKey bs := by
  have hperm : (sortedByKey as).Perm (sortedByKey bs) :=
    (sortedByKey_perm as).trans (h.trans (sortedByKey_perm bs).symm)
  -- Two entries of one key are one entry, so the sorted order leaves no choice.
  refine hperm.eq_of_pairwise (fun a b ha hb hab hba => ?_) (sortedByKey_pairwise as)
    (sortedByKey_pairwise bs)
  have hmem_a : a ∈ as := (sortedByKey_perm as).mem_iff.mp ha
  have hmem_b : b ∈ as := h.mem_iff.mpr ((sortedByKey_perm bs).mem_iff.mp hb)
  have hkey : Ord.compare a.1 b.1 = .eq := Std.OrientedCmp.isLE_antisymm hab hba
  exact List.inj_on_of_nodup_map hkeys hmem_a hmem_b (Std.LawfulEqOrd.eq_of_compare hkey)

end Value

end Liquid
