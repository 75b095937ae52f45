import Liquid.Environment
import Liquid.Proofs.Filter.Call
import Liquid.Proofs.Filter.Keyed

/-!
# Items with a Property

Four filters go by whether an item has a property: one keeps the items that do,
one drops them, one gives the first of them and one its index. Each goes through
the items in a loop of its own, and two of the loops end early. What they have
in common is one rule for a single item, so all four can be told from the items
kept and their places.

They come apart only at a range that is too long to be looked into. To keep or
to drop is to look into every item, so both fail there. To find is not, and so an
item that stands before the range is still found.

## Main definitions

* `Filter.isWanted`: The rule for an item, by what stands under the property.
* `Matching`: The four filters.
* `Matching.Selects`: What the filters give when each item can be looked into.
* `Matching.Stops`: What they give when one cannot.

## Theorems

* `Filter.findFrom_append`: Finding looks no further than the first item wanted.
* `Matching.selects_of_keyed`, `Matching.stops_of_blocked`: What the filters give.
* `Matching.selects_or_stops`: One or the other is the case for any value.
-/

namespace Liquid

namespace Filter

/-- Whether what stands under the property makes an item one of those looked for: it is equal to
the target, or true if there is no target. -/
def isWanted (target : Option Value) (found : Value) : Bool :=
  match target with
  | none => found.isTruthy
  | some target => found.equals target

/-- The items that are looked for, or all others, each with what stands under the property and with
its place. -/
def placed (target : Option Value) (wanted : Bool) (entries : List (Value × Value)) :
    List ((Value × Value) × Nat) :=
  entries.zipIdx.filter fun found => isWanted target found.1.1 == wanted

section Loops

variable {property item : Value} {target : Option Value} {entries : List (Value × Value)}

/-- The rule for an item is about what stands under the property, once that is had. -/
theorem isMatch_of_keyOf {key : Value} (h : keyOf (some property) item = .ok key) :
    isMatch property target item = .ok (isWanted target key) := by
  change (keyOf (some property) item >>= _) = _
  rw [h]
  cases target <;> rfl

/-- An item without a key is no match, but a stop. -/
theorem isMatch_of_error {crash : Crash} (h : keyOf (some property) item = .error crash) :
    isMatch property target item = .error crash := by
  change (keyOf (some property) item >>= _) = _
  rw [h]
  rfl

/-- Finding goes on behind some items only if none of them is looked for. -/
theorem findFrom_append (h : ∀ entry ∈ entries, keyOf (some property) entry.2 = .ok entry.1)
    (index : Nat) (rest : List Value) :
    findFrom property target index (entries.map Prod.snd ++ rest) =
      match (entries.zipIdx index).find? (isWanted target ·.1.1) with
      | some found => .ok (some (found.2, found.1.2))
      | none => findFrom property target (index + entries.length) rest := by
  induction entries generalizing index with
  | nil => rfl
  | cons entry entries ih =>
      have hentry : isMatch property target entry.2 = .ok (isWanted target entry.1) :=
        isMatch_of_keyOf (h entry List.mem_cons_self)
      have hrest := ih (fun other hother => h other (List.mem_cons_of_mem entry hother)) (index + 1)
      rw [List.map_cons, List.cons_append, findFrom, hentry, List.zipIdx_cons, List.find?_cons]
      -- The first entry is wanted, or the search goes on behind it.
      cases isWanted target entry.1 with
      | true => rfl
      | false =>
          refine hrest.trans ?_
          rw [List.length_cons, Nat.add_assoc, Nat.add_comm 1]

end Loops

end Filter

/-- The filters that go by whether an item has a property. -/
inductive Matching
  | keep
  | drop
  | find
  | findIndex
deriving DecidableEq

namespace Matching

open Liquid.Filter (BlockedAt Keyed crashing_eq_ok_iff findFrom findFrom_append isMatch
  isMatch_of_error isMatch_of_keyOf isWanted itemsOf keyOf keyed keyed_eq_error_cases
  keyed_eq_ok_iff ofBinary_apply ofTernary_apply placed select)

/-- The name of the filter. -/
def name : Matching → String
  | keep => "where"
  | drop => "reject"
  | find => "find"
  | findIndex => "find_index"

/-- The function of the filter. -/
def filter : Matching → Value → Value → Option Value → Except FilterFailure Value
  | keep => Filter.select true
  | drop => Filter.select false
  | find => Filter.find
  | findIndex => Filter.findIndex

/-- What is found first, and its place. -/
def firstFound (property : Value) (target : Option Value) (v : Value) :
    Except FilterFailure (Option (Nat × Value)) := do
  Filter.crashing (findFrom property target 0 (← itemsOf v))

/-- What the filters give if the value has the given items, and what stands under the property in
each of them can be had. -/
structure Selects (answer : Matching → Value → Except FilterFailure Value)
    (mapped : Value → Except FilterFailure Value) (property : Value) (target : Option Value)
    (v : Value) (entries : List (Value × Value)) (kept dropped : List ((Value × Value) × Nat)) :
    Prop where
  keyed : Keyed (some property) v entries
  kept_sublist : kept.Sublist entries.zipIdx
  dropped_sublist : dropped.Sublist entries.zipIdx
  /-- Every place is that of an item kept or of an item dropped, and of the former just if the item
  is looked for. -/
  divided : ∀ found ∈ entries.zipIdx, (found ∈ kept ↔ isWanted target found.1.1) ∧
    (found ∈ dropped ↔ found ∉ kept)
  keep : answer keep v = .ok (.array (kept.map (·.1.2)))
  keep_again : answer Matching.keep (.array (kept.map (·.1.2))) = answer Matching.keep v
  drop : answer drop v = .ok (.array (dropped.map (·.1.2)))
  drop_again : answer Matching.drop (.array (dropped.map (·.1.2))) = answer Matching.drop v
  find : answer find v = .ok ((kept.head?.map (·.1.2)).getD .nil)
  findIndex : answer findIndex v = .ok ((kept.head?.map fun found => .integer found.2).getD .nil)
  least : ∀ first ∈ kept.head?, ∀ found ∈ kept, first.2 ≤ found.2
  indexed : ∀ i : Nat, answer Matching.findIndex v = .ok (.integer i) →
    ∃ item, (entries.map Prod.snd)[i]? = some item ∧ answer Matching.find v = .ok item
  mapped : ∃ values, mapped (.array (kept.map (·.1.2))) = .ok (.array values) ∧
    ∀ w, target = some w → ∀ value ∈ values, value.equals w

/-- What the filters give if one of the items cannot be looked into, and those before it can. -/
structure Stops (answer : Matching → Value → Except FilterFailure Value) (property : Value)
    (target : Option Value) (v : Value) (entries : List (Value × Value)) (item : Value) : Prop where
  blocked : BlockedAt (some property) v entries item
  keep : answer keep v = .error (.crashed .rangeTooLong)
  drop : answer drop v = .error (.crashed .rangeTooLong)
  find : answer find v = match (placed target true entries).head? with
    | some found => .ok found.1.2
    | none => .error (.crashed .rangeTooLong)
  findIndex : answer findIndex v = match (placed target true entries).head? with
    | some found => .ok (.integer found.2)
    | none => .error (.crashed .rangeTooLong)

section Placed

variable {target : Option Value} {wanted : Bool} {entries : List (Value × Value)}

/-- What is placed are entries at their own places. -/
theorem mem_placed {found : (Value × Value) × Nat} :
    found ∈ placed target wanted entries ↔
      found ∈ entries.zipIdx ∧ isWanted target found.1.1 = wanted := by
  rw [placed, List.mem_filter, beq_iff_eq]

/-- The first that is placed is the first that is found. -/
theorem head?_placed : (placed target true entries).head? =
    entries.zipIdx.find? (isWanted target ·.1.1) := by
  simp only [placed, List.head?_filter, beq_true]

/-- The items that are looked for, without their places. -/
theorem placed_map_fst : (placed target wanted entries).map Prod.fst =
    entries.filter fun entry => isWanted target entry.1 == wanted := by
  have hfst : entries.zipIdx.map Prod.fst = entries := List.zipIdx_map_fst ..
  conv_rhs => rw [← hfst, List.filter_map]
  rfl

/-- The items that are placed are those that are kept, in order. -/
theorem placed_map_item : (placed target wanted entries).map (·.1.2) =
    (entries.filter fun entry => isWanted target entry.1 == wanted).map Prod.snd := by
  rw [← placed_map_fst, List.map_map]
  rfl

/-- The places are in order, so the first is the least. -/
theorem head?_placed_le {first found : (Value × Value) × Nat}
    (hfirst : first ∈ (placed target wanted entries).head?)
    (hfound : found ∈ placed target wanted entries) : first.2 ≤ found.2 := by
  -- The entries are numbered in order, and what is kept of them still is.
  have hplaces : entries.zipIdx.Pairwise fun a b => a.2 < b.2 := by
    have hrange : (entries.zipIdx.map Prod.snd).Pairwise (· < ·) := by
      rw [List.zipIdx_map_snd]
      exact List.pairwise_lt_range' 1
    exact List.pairwise_map.mp hrange
  have hkept := hplaces.filter fun found => isWanted target found.1.1 == wanted
  rcases List.head?_eq_some_iff.mp hfirst with ⟨rest, hrest⟩
  rw [placed] at hrest hfound
  rw [hrest] at hkept hfound
  rcases List.mem_cons.mp hfound with rfl | hmem
  · exact Nat.le_refl _
  · exact Nat.le_of_lt (List.rel_of_pairwise_cons hkept hmem)

end Placed

section Filters

variable {v property : Value} {target : Option Value} {entries : List (Value × Value)}

/-- The step of the filters that keep or drop items, for an item that can be looked into. -/
theorem step_of_keyOf {item key : Value} (h : keyOf (some property) item = .ok key)
    (wanted : Bool) :
    (do .ok ((← Filter.crashing (isMatch property target item)) == wanted) :
      Except FilterFailure Bool) = .ok (isWanted target key == wanted) := by
  rw [isMatch_of_keyOf h]
  rfl

/-- A selection of items is what is placed of them. -/
theorem select_of_keyed (h : Keyed (some property) v entries) (wanted : Bool) :
    select wanted v property target =
      .ok (.array ((placed target wanted entries).map (·.1.2))) := by
  have hitems : itemsOf v = .ok (entries.map Prod.snd) := crashing_eq_ok_iff.mpr h.items
  rw [placed_map_item]
  unfold select
  rw [hitems]
  refine bind_eq_ok_iff.mpr ⟨_, rfl, bind_eq_ok_iff.mpr ⟨_, filterM_of_ok ?_, rfl⟩⟩
  exact fun entry hentry => step_of_keyOf (h.keys entry hentry) wanted

/-- Both filters that find go on from what is found first. -/
theorem firstFound_bind {next : Option (Nat × Value) → Except FilterFailure Value}
    {shown : Option (Nat × Value) → Value} (h : ∀ found, next found = .ok (shown found)) :
    (itemsOf v >>= fun items => Filter.crashing (findFrom property target 0 items) >>= next) =
      (firstFound property target v).map shown := by
  unfold firstFound
  cases itemsOf v with
  | error fault => rfl
  | ok items =>
      change (Filter.crashing (findFrom property target 0 items) >>= next) =
        (Filter.crashing (findFrom property target 0 items)).map shown
      cases Filter.crashing (findFrom property target 0 items) with
      | error fault => rfl
      | ok found => exact h found

theorem filter_find : find.filter v property target =
    (firstFound property target v).map fun found => (found.map Prod.snd).getD .nil :=
  firstFound_bind fun found => by cases found <;> rfl

theorem filter_findIndex : findIndex.filter v property target =
    (firstFound property target v).map fun found =>
      (found.map fun found => .integer found.1).getD .nil :=
  firstFound_bind fun found => by cases found <;> rfl

/-- What is found first is the first that is placed. -/
theorem firstFound_of_keyed (h : Keyed (some property) v entries) :
    firstFound property target v =
      .ok ((placed target true entries).head?.map fun found => (found.2, found.1.2)) := by
  refine bind_eq_ok_iff.mpr ⟨_, crashing_eq_ok_iff.mpr h.items, crashing_eq_ok_iff.mpr ?_⟩
  rw [← List.append_nil (entries.map Prod.snd), findFrom_append h.keys, ← head?_placed]
  cases (placed target true entries).head? <;> rfl

/-- Items that are kept or dropped are still had with what stands under the property. -/
theorem keyed_placed (h : Keyed (some property) v entries) (wanted : Bool) :
    Keyed (some property) (.array ((placed target wanted entries).map (·.1.2)))
      (entries.filter fun entry => isWanted target entry.1 == wanted) := by
  refine ⟨?_, fun entry hentry => h.keys entry (List.mem_of_mem_filter hentry)⟩
  rw [placed_map_item]
  rfl

/-- What was selected once is selected again as a whole. -/
theorem select_again (h : Keyed (some property) v entries) (wanted : Bool) :
    select wanted (.array ((placed target wanted entries).map (·.1.2))) property target =
      select wanted v property target := by
  rw [select_of_keyed (keyed_placed h wanted), select_of_keyed h, placed_map_item, placed_map_item,
    List.filter_filter]
  simp only [Bool.and_self]

theorem mapProperty_of_keyed (h : Keyed (some property) v entries) :
    Filter.mapProperty v property = .ok (.array (entries.map Prod.fst)) := by
  unfold Filter.mapProperty
  rw [keyed_eq_ok_iff.mpr h]
  rfl

/-- With a key for every item, all five filters answer by the same placement. -/
theorem selects_of_keyed (h : Keyed (some property) v entries) :
    Selects (filter · · property target) (Filter.mapProperty · property) property target v entries
      (placed target true entries) (placed target false entries) where
  keyed := h
  kept_sublist := List.filter_sublist
  dropped_sublist := List.filter_sublist
  divided found hfound := by
    simp only [mem_placed, hfound, true_and, Bool.not_eq_true]
  keep := select_of_keyed h true
  keep_again := select_again h true
  drop := select_of_keyed h false
  drop_again := select_again h false
  find := by
    rw [filter_find, firstFound_of_keyed h]
    cases (placed target true entries).head? <;> rfl
  findIndex := by
    rw [filter_findIndex, firstFound_of_keyed h]
    cases (placed target true entries).head? <;> rfl
  least first hfirst found hfound := head?_placed_le hfirst hfound
  indexed i hi := by
    rw [filter_findIndex, firstFound_of_keyed h] at hi
    rw [filter_find, firstFound_of_keyed h]
    -- The index is that of an entry, so the item stands there.
    cases hfirst : (placed target true entries).head? with
    | none => rw [hfirst] at hi; cases hi
    | some found =>
        rw [hfirst] at hi
        cases hi
        have hmem := (mem_placed.mp (List.mem_of_head? hfirst)).1
        refine ⟨found.1.2, ?_, rfl⟩
        rw [List.getElem?_map, List.mem_zipIdx_iff_getElem?.mp hmem]
        rfl
  mapped := by
    -- Every item that was kept has the wanted value.
    refine ⟨_, mapProperty_of_keyed (keyed_placed h true), ?_⟩
    rintro w rfl value hvalue
    rcases List.mem_map.mp hvalue with ⟨entry, hentry, rfl⟩
    simpa [isWanted] using (List.mem_filter.mp hentry).2

/-- Only what stands before the item that cannot be looked into is found. -/
theorem firstFound_of_blocked {item : Value} (h : BlockedAt (some property) v entries item) :
    firstFound property target v = match (placed target true entries).head? with
      | some found => .ok (some (found.2, found.1.2))
      | none => .error (.crashed .rangeTooLong) := by
  rcases h.items with ⟨after, hitems⟩
  have hitems : itemsOf v = .ok (entries.map Prod.snd ++ item :: after) :=
    crashing_eq_ok_iff.mpr hitems
  unfold firstFound
  rw [hitems]
  change Filter.crashing (findFrom property target 0 (entries.map Prod.snd ++ item :: after)) = _
  rw [findFrom_append h.keys, ← head?_placed]
  -- A match before the item that blocks ends the search, or else it gets there.
  cases (placed target true entries).head? with
  | some found => rfl
  | none =>
      dsimp only
      rw [findFrom, isMatch_of_error h.blocked]
      rfl

/-- A selection needs the keys of all items. -/
theorem select_of_blocked {item : Value} (h : BlockedAt (some property) v entries item)
    (wanted : Bool) : select wanted v property target = .error (.crashed .rangeTooLong) := by
  rcases h.items with ⟨after, hitems⟩
  unfold select
  refine bind_eq_error_iff.mpr (.inr ⟨_, crashing_eq_ok_iff.mpr hitems, ?_⟩)
  refine bind_eq_error_iff.mpr (.inl (filterM_of_error (fun entry hentry =>
    step_of_keyOf (h.keys entry hentry) wanted) ?_))
  rw [isMatch_of_error h.blocked]
  rfl

/-- The searches stop at the first match, and the selections fail. -/
theorem stops_of_blocked {item : Value} (h : BlockedAt (some property) v entries item) :
    Stops (filter · · property target) property target v entries item := by
  refine ⟨h, select_of_blocked h true, select_of_blocked h false, ?_, ?_⟩
  · rw [filter_find, firstFound_of_blocked h]
    cases (placed target true entries).head? <;> rfl
  · rw [filter_findIndex, firstFound_of_blocked h]
    cases (placed target true entries).head? <;> rfl

/-- None of the filters works on a value whose items cannot be had. -/
theorem filter_of_tooLong (h : v.elements = .error .rangeTooLong) (matching : Matching) :
    matching.filter v property target = .error (.crashed .rangeTooLong) := by
  have hitems : itemsOf v = .error (.crashed .rangeTooLong) := by rw [itemsOf, h]; rfl
  cases matching <;> simp only [filter, select, Filter.find, Filter.findIndex, hitems] <;> rfl

end Filters

theorem filters_get? (settings : Settings) (matching : Matching) :
    (Environment.create settings {}).1.filters.get? matching.name =
      some (.ofTernary matching.name matching.filter) := by
  cases matching <;> rfl

/-- The filters agree on one rule for all items of any value, whatever the property and the target,
if each item can be looked into. If one cannot, only what stands before it is found. -/
theorem selects_or_stops (settings : Settings) :
    ∃ (filters : Matching → Filter) (map : Filter),
      (∀ matching, (Environment.create settings {}).1.filters.get? matching.name =
        some (filters matching)) ∧
      (Environment.create settings {}).1.filters.get? "map" = some map ∧
      ∀ v property rest options,
        let answer (matching : Matching) (w : Value) :=
          ((filters matching).apply w (property :: rest) options).result
        let mapped (w : Value) := (map.apply w [property] options).result
        (∃ entries kept dropped,
          Selects answer mapped property rest.head? v entries kept dropped) ∨
        (∃ entries item, Stops answer property rest.head? v entries item) ∨
        v.TooLong ∧ ∀ matching, answer matching v = .error (.crashed .rangeTooLong) := by
  refine ⟨_, _, filters_get? settings, rfl, fun v property rest options => ?_⟩
  simp only [ofTernary_apply, ofBinary_apply]
  -- The property is taken of every item, or one item has none to take, or there are no items to
  -- take.
  cases hkeyed : keyed (some property) v with
  | ok entries => exact .inl ⟨entries, _, _, selects_of_keyed (keyed_eq_ok_iff.mp hkeyed)⟩
  | error fault =>
      rcases keyed_eq_error_cases hkeyed with ⟨-, ⟨hitems, hlong⟩ | ⟨entries, item, hblocked⟩⟩
      · exact .inr (.inr ⟨hlong, filter_of_tooLong hitems⟩)
      · exact .inr (.inl ⟨entries, item, stops_of_blocked hblocked⟩)

/-- A range that is too long behind an item with a size. What is found is not the first of the items
that are kept, as none are. -/
theorem keep_unmeasured :
    let v : Value := .array [.array [.integer 1], .range 1 9223372036854775808]
    v.elements = .ok [.array [.integer 1], .range 1 9223372036854775808] ∧
      find.filter v (.string "size") none = .ok (.array [.integer 1]) ∧
      keep.filter v (.string "size") none = .error (.crashed .rangeTooLong) ∧
      ¬∃ kept, keep.filter v (.string "size") none = .ok (.array kept) := by
  refine ⟨rfl, rfl, rfl, ?_⟩
  rintro ⟨kept, h⟩
  cases h

end Matching

end Liquid
