import Liquid.Environment
import Liquid.Proofs.Filter.Call
import Liquid.Proofs.Filter.Keyed
import Liquid.Proofs.Sorted
import Liquid.Proofs.Value.Order

/-!
# Sorting Filters

The two filters that sort, by the order of values and by that of texts without
regard to case. Both put what has no key last, and both are stable. An order in
two steps is all that this comes to: whether there is a key, then the key.

As both orders are those of a preorder, the items that come out are determined
by those that go in and by how those with equal keys stand. So nothing is
changed by sorting twice, or by rearranging items with different keys first.

An item without a key is one whose key is the nil of the language. A nil that a
host made is a key that stands where values and texts have it, which is in front
of all other values. Where all nils are those of the language, as in the data of
a template, the nil keys are last.

The one failure is that of a range that is too long to be looked into, however
the keys are mixed otherwise.

## Main definitions

* `Sorting`: The two filters.
* `Sorting.orderOfEntries`: The order of items by their keys, those without a key
  last.
* `Sorting.Marked`: The items of a value with their keys, some of them nils of a
  host.
* `Sorting.Sorts`: What a filter gives for items with keys.

## Theorems

* `Sorting.filter_of_marked`: The filters merge by the order of keys.
* `Sorting.sorts_of_marked`: What they give for items with keys.
* `Sorting.sorts_or_unmeasured`: What they give for any value.
-/

namespace Liquid

/-- The filters that sort. -/
inductive Sorting
  | plain
  | natural
deriving DecidableEq

namespace Sorting

open Liquid.Filter (Entry Keyed keyed keyed_eq_ok_iff entriesOf allOwn sortedBy)

/-- The name of the filter. -/
def name : Sorting → String
  | plain => "sort"
  | natural => "sort_natural"

/-- The function of the filter, where it is told which nil keys are the nil of the language. -/
def filter : Sorting → (Nat → Bool) → Value → Option Value → Except FilterFailure Value
  | plain => Filter.sort
  | natural => Filter.sortNatural

/-- The order of keys that are there: of values, or of their texts without regard to case. -/
def orderOfPresent : Sorting → Value → Value → Ordering
  | plain => Value.compare
  | natural => compareOn Filter.foldedText

/-- The order of items by their keys. -/
def orderOfKeys (sorting : Sorting) (a b : Entry) : Ordering :=
  sorting.orderOfPresent a.key b.key

/-- The order of items by their keys, with those that have none behind all others. -/
def orderOfEntries (sorting : Sorting) : Entry → Entry → Ordering :=
  compareLex (compareOn Entry.absent) sorting.orderOfKeys

instance (sorting : Sorting) : Std.TransCmp sorting.orderOfPresent := by
  cases sorting with
  | plain => exact inferInstanceAs (Std.TransCmp Value.compare)
  | natural => exact inferInstanceAs (Std.TransCmp (compareOn Filter.foldedText))

instance (sorting : Sorting) : Std.TransCmp sorting.orderOfKeys where
  eq_swap {a _} := (Std.OrientedCmp.eq_swap : sorting.orderOfPresent a.key _ = _)
  isLE_trans {a _ c} hab hbc :=
    (Std.TransCmp.isLE_trans hab hbc : (sorting.orderOfPresent a.key c.key).isLE)

instance (sorting : Sorting) : Std.TransCmp sorting.orderOfEntries :=
  inferInstanceAs (Std.TransCmp (compareLex (compareOn Entry.absent) sorting.orderOfKeys))

/-- The items of a value, each with its key and with what is told of its key. -/
structure Marked (own : Nat → Bool) (property : Option Value) (v : Value) (entries : List Entry) :
    Prop where
  keyed : Keyed property v (entries.map fun entry => (entry.key, entry.item))
  own : ∀ index (h : index < entries.length), entries[index].own = own index

/-- What is told of the keys, wherever the items have come to stand. -/
def marksOf (entries : List Entry) (index : Nat) : Bool :=
  (entries[index]?.map Entry.own).getD true

/-- What a filter gives for a value with the given items and keys: the items sorted by their keys.
They stay as they are when they are sorted again, and they are the same for any arrangement of the
items that leaves those with equal keys in their order. -/
structure Sorts (sorting : Sorting) (answer : (Nat → Bool) → Value → Except FilterFailure Value)
    (own : Nat → Bool) (property : Option Value) (v : Value) (entries : List Entry) : Prop where
  marked : Marked own property v entries
  sorted : ∃ sorted, StablySorted sorting.orderOfEntries entries sorted ∧
    answer own v = .ok (.array (sorted.map Entry.item)) ∧
    answer (marksOf sorted) (.array (sorted.map Entry.item)) =
      .ok (.array (sorted.map Entry.item))
  rearranged : ∀ own' w entries', Marked own' property w entries' → entries'.Perm entries →
    (∀ a, entries'.filter (fun b => sorting.orderOfEntries b a == .eq) =
      entries.filter fun b => sorting.orderOfEntries b a == .eq) → answer own' w = answer own v
  permuted : entries.Pairwise (fun a b => sorting.orderOfEntries a b ≠ .eq) →
    ∀ entries', entries'.Perm entries →
      answer (marksOf entries') (.array (entries'.map Entry.item)) = answer own v

section Filter

variable {sorting : Sorting} {own : Nat → Bool} {v : Value} {property : Option Value}
  {entries entries' : List Entry}

/-- Whether there is a key is what the order looks at first. -/
theorem isLE_orderOfEntries {κ : Type} {f : Value → κ} {le : κ → κ → Bool}
    (hle : ∀ k l, le (f k) (f l) = (sorting.orderOfPresent k l).isLE) (a b : Entry) :
    (sorting.orderOfEntries a b).isLE = match a.present?.map f, b.present?.map f with
      | some k, some l => le k l
      | some _, none => true
      | none, some _ => false
      | none, none => true := by
  unfold orderOfEntries compareLex compareOn Entry.present?
  -- Absent entries come behind the others, and among themselves they are equal.
  cases ha : a.absent <;> cases hb : b.absent
  · exact (hle a.key b.key).symm
  · rfl
  · rfl
  · -- Nil is equal to itself in either order.
    have hnil {entry : Entry} (h : entry.absent = true) : entry.key = .nil := by
      have hkey := (Bool.and_eq_true_iff.mp h).2
      cases hvalue : entry.key <;> rw [hvalue] at hkey <;> first | rfl | cases hkey
    simp only [orderOfKeys, hnil ha, hnil hb]
    cases sorting <;> rfl

/-- Sorting by what is made of the keys is sorting by the order of the entries. -/
theorem sortedBy_eq {κ : Type} (f : Value → κ) (le : κ → κ → Bool)
    (hle : ∀ k l, le (f k) (f l) = (sorting.orderOfPresent k l).isLE) (entries : List Entry) :
    sortedBy (fun entry => entry.present?.map f) le entries =
      (entries.mergeSort fun a b => (sorting.orderOfEntries a b).isLE).map Entry.item := by
  have hsame : (fun a b => (sorting.orderOfEntries a b).isLE) = _ :=
    funext fun a => funext (isLE_orderOfEntries hle a)
  rw [hsame]
  rfl

/-- Both filters merge by the order of the keys. -/
theorem filter_eq (sorting : Sorting) (own : Nat → Bool) (v : Value) (property : Option Value) :
    sorting.filter own v property = entriesOf own property v >>= fun entries => .ok (.array
      ((entries.mergeSort fun a b => (sorting.orderOfEntries a b).isLE).map Entry.item)) := by
  -- The two filters differ in what they make of a key.
  cases sorting with
  | plain =>
      refine bind_congr_of_ok rfl fun entries _ => ?_
      have hle (k l : Value) : (k.compare l).isLE = (plain.orderOfPresent k l).isLE := rfl
      rw [← sortedBy_eq id (fun k l => (k.compare l).isLE) hle entries]
      simp only [Option.map_id_fun, id_eq]
  | natural =>
      refine bind_congr_of_ok rfl fun entries _ => ?_
      have hle (k l : Value) : (Ord.compare (Filter.foldedText k) (Filter.foldedText l)).isLE =
          (natural.orderOfPresent k l).isLE := rfl
      rw [← sortedBy_eq Filter.foldedText (fun k l => (Ord.compare k l).isLE) hle entries]

theorem entriesOf_of_marked (h : Marked own property v entries) :
    entriesOf own property v = .ok entries := by
  rw [entriesOf, keyed_eq_ok_iff.mpr h.keyed]
  refine congrArg Except.ok (List.ext_getElem (by simp) fun index _ hindex => ?_)
  rw [List.getElem_mapIdx, List.getElem_map, ← h.own index hindex]

/-- The filter sorts the entries that it takes out of the value. -/
theorem filter_of_marked (h : Marked own property v entries) :
    sorting.filter own v property = .ok (.array
      ((entries.mergeSort fun a b => (sorting.orderOfEntries a b).isLE).map Entry.item)) := by
  rw [filter_eq, entriesOf_of_marked h]
  rfl

/-- If every item has a key, the entries can be taken. -/
theorem exists_marked {keys : List (Value × Value)} (h : Keyed property v keys)
    (own : Nat → Bool) : ∃ entries, Marked own property v entries := by
  refine ⟨keys.mapIdx fun index entry => ⟨own index, entry.1, entry.2⟩, ?_, fun index hindex => ?_⟩
  · have hpairs : (keys.mapIdx fun index entry => (⟨own index, entry.1, entry.2⟩ : Entry)).map
        (fun entry => (entry.key, entry.item)) = keys := by
      refine List.ext_getElem (by simp) fun index _ _ => ?_
      rw [List.getElem_map, List.getElem_mapIdx]
    rwa [hpairs]
  · rw [List.getElem_mapIdx]

/-- The keys of items come with them, in whatever order they stand. -/
theorem marked_of_perm (h : Marked own property v entries) (hperm : entries'.Perm entries) :
    Marked (marksOf entries') property (.array (entries'.map Entry.item)) entries' where
  keyed :=
    { items := by rw [List.map_map]; rfl
      keys := fun pair hpair => by
        rcases List.mem_map.mp hpair with ⟨entry, hentry, rfl⟩
        exact h.keyed.keys _ (List.mem_map_of_mem (hperm.mem_iff.mp hentry)) }
  own index hindex := by rw [marksOf, List.getElem?_eq_getElem hindex]; rfl

/-- The entries are sorted stably, and their arrangement has no part in it. -/
theorem sorts_of_marked (h : Marked own property v entries) :
    Sorts sorting (fun own w => sorting.filter own w property) own property v entries := by
  have hsorted : StablySorted sorting.orderOfEntries entries _ := stablySorted_mergeSort entries
  -- A stable sort gives one result for every arrangement that keeps equal entries in order.
  have hrearranged (own' : Nat → Bool) (w : Value) (entries' : List Entry)
      (hw : Marked own' property w entries') (hperm : entries'.Perm entries)
      (hstable : ∀ a, entries'.filter (fun b => sorting.orderOfEntries b a == .eq) =
        entries.filter fun b => sorting.orderOfEntries b a == .eq) :
      sorting.filter own' w property = sorting.filter own v property := by
    rw [filter_of_marked hw, filter_of_marked h]
    rw [(stablySorted_mergeSort entries').unique hsorted hperm hstable]
  refine ⟨h, ⟨_, hsorted, filter_of_marked h, ?_⟩, hrearranged, fun hdistinct entries' hperm => ?_⟩
  · -- What is sorted has the same members, and equal ones in their order.
    rw [← filter_of_marked h]
    exact hrearranged _ _ _ (marked_of_perm h hsorted.perm) hsorted.perm hsorted.stable
  · exact hrearranged _ _ _ (marked_of_perm h hperm) hperm (filter_eq_of_distinct hdistinct hperm)

/-- An item without a key stops the filter. -/
theorem filter_of_error {fault : FilterFailure} (h : keyed property v = .error fault) :
    sorting.filter own v property = .error fault := by
  rw [filter_eq, entriesOf, h]
  rfl

/-- Whatever is told of the keys, a value is sorted by them or has a range that is too long. -/
theorem filter_cases (sorting : Sorting) (own : Nat → Bool) (v : Value) (property : Option Value) :
    (sorting.filter own v property = .error (.crashed .rangeTooLong) ∧
        Filter.Unmeasured property v) ∨
      ∃ entries, Sorts sorting (fun own w => sorting.filter own w property) own property v
        entries := by
  cases hkeyed : keyed property v with
  | error fault =>
      rcases Filter.keyed_eq_error hkeyed with ⟨rfl, hlong⟩
      exact .inl ⟨filter_of_error hkeyed, hlong⟩
  | ok keys =>
      rcases exists_marked (keyed_eq_ok_iff.mp hkeyed) own with ⟨entries, hmarked⟩
      exact .inr ⟨entries, sorts_of_marked hmarked⟩

section Own

variable {own' : Nat → Bool} {w : Value}

theorem own_of_perm (h : Marked allOwn property v entries) (hperm : entries'.Perm entries) :
    ∀ entry ∈ entries', entry.own = true := by
  intro entry hentry
  rcases List.getElem_of_mem (hperm.mem_iff.mp hentry) with ⟨index, hindex, rfl⟩
  exact h.own index hindex

/-- Where all nils are the one of the program, so they are in any arrangement. -/
theorem marksOf_eq_allOwn (h : Marked allOwn property v entries) (hperm : entries'.Perm entries) :
    marksOf entries' = allOwn := by
  funext index
  unfold marksOf
  cases hentry : entries'[index]? with
  | none => rfl
  | some entry => exact own_of_perm h hperm entry (List.mem_of_getElem? hentry)

/-- Where no host has made a nil, no item has to be told apart. -/
theorem Sorts.of_allOwn
    (h : Sorts sorting (fun own w => sorting.filter own w property) allOwn property v entries) :
    Sorts sorting (fun _ w => sorting.filter allOwn w property) allOwn property v entries := by
  rcases h.sorted with ⟨sorted, hsorted, hfilter, hagain⟩
  refine ⟨h.marked, ⟨sorted, hsorted, hfilter, ?_⟩, ?_, ?_⟩
  · rwa [marksOf_eq_allOwn h.marked hsorted.perm] at hagain
  · intro own' w entries' hw hperm hstable
    have hw' : Marked allOwn property w entries' :=
      ⟨hw.keyed, fun index hindex => own_of_perm h.marked hperm _ (List.getElem_mem hindex)⟩
    exact h.rearranged allOwn w entries' hw' hperm hstable
  · intro hdistinct entries' hperm
    have hanswer := h.permuted hdistinct entries' hperm
    rwa [marksOf_eq_allOwn h.marked hperm] at hanswer

end Own

theorem filters_get? (settings : Settings) (sorting : Sorting) :
    (Environment.create settings {}).1.filters.get? sorting.name =
      some (.ofOptional sorting.name (sorting.filter allOwn)) := by
  cases sorting <;> rfl

/-- The filters sort the items of any value by their keys, whatever these are, unless there is a
range that is too long to be looked into. The filter of that name sorts a value whose nils are all
the one of the language, so that all nil keys are last. Whichever of them are nils of a host
instead, those stand where they are in the order of keys. -/
theorem sorts_or_unmeasured (settings : Settings) (sorting : Sorting) :
    (∃ filter, (Environment.create settings {}).1.filters.get? sorting.name = some filter ∧
      ∀ v args options,
        ((filter.apply v args options).result = .error (.crashed .rangeTooLong) ∧
          Filter.Unmeasured args.head? v) ∨
        ∃ entries, Sorts sorting (fun _ w => (filter.apply w args options).result) allOwn
          args.head? v entries) ∧
    ∀ own v property,
      (sorting.filter own v property = .error (.crashed .rangeTooLong) ∧
        Filter.Unmeasured property v) ∨
      ∃ entries, Sorts sorting (fun own w => sorting.filter own w property) own property v
        entries := by
  refine ⟨⟨_, filters_get? settings sorting, fun v args options => ?_⟩, filter_cases sorting⟩
  simp only [Filter.ofOptional_apply]
  -- The registered filter is the one for which all nils are those of the program.
  rcases filter_cases sorting allOwn v args.head? with hlong | ⟨entries, hsorts⟩
  · exact .inl hlong
  · exact .inr ⟨entries, hsorts.of_allOwn⟩

/-- A range that is too long, as the one item of an array to be sorted by size. -/
theorem sort_unmeasured :
    let v : Value := .array [.range 1 9223372036854775808]
    v.elements = .ok [.range 1 9223372036854775808] ∧
      plain.filter allOwn v (some (.string "size")) = .error (.crashed .rangeTooLong) ∧
      ¬∃ items, items.Perm [Value.range 1 9223372036854775808] ∧
        plain.filter allOwn v (some (.string "size")) = .ok (.array items) := by
  refine ⟨rfl, rfl, ?_⟩
  rintro ⟨items, -, h⟩
  cases h

/-- A nil of a host is sorted in front of a number, and one of the language behind it. -/
theorem sort_nil_of_host :
    let v : Value := .array [.integer 1, .nil]
    plain.filter (fun index => index != 1) v none = .ok (.array [.nil, .integer 1]) ∧
      natural.filter (fun index => index != 1) v none = .ok (.array [.nil, .integer 1]) ∧
      plain.filter allOwn v none = .ok (.array [.integer 1, .nil]) := by
  -- Two entries are merged by one comparison.
  have hmerge (le : Entry → Entry → Bool) (a b : Entry) :
      [a, b].mergeSort le = if le a b then [a, b] else [b, a] := by
    simp [List.mergeSort, List.MergeSort.Internal.splitInTwo, List.cons_merge_cons]
  have hpair (sorting : Sorting) (own : Nat → Bool) :
      sorting.filter own (.array [.integer 1, .nil]) none = .ok (.array
        ((if (sorting.orderOfEntries ⟨own 0, .integer 1, .integer 1⟩ ⟨own 1, .nil, .nil⟩).isLE
          then [⟨own 0, .integer 1, .integer 1⟩, ⟨own 1, .nil, .nil⟩]
          else [⟨own 1, .nil, .nil⟩, ⟨own 0, .integer 1, .integer 1⟩]).map Entry.item)) := by
    rw [filter_eq, ← hmerge fun a b => (sorting.orderOfEntries a b).isLE]
    rfl
  exact ⟨hpair plain _, hpair natural _, hpair plain _⟩

end Filter

end Sorting

end Liquid
