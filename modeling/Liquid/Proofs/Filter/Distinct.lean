import Liquid.Environment
import Liquid.Proofs.Filter.Call
import Liquid.Proofs.Filter.Keyed
import Liquid.Proofs.Value.Hashed

/-!
# Distinct Items

The filter that keeps the first of the items with equal keys. It goes through
the items once and remembers the keys that it has kept. Since equality is
transitive, a key that equals any key before equals one of these. So an item is
kept exactly if no item before it has an equal key, and each item has one that
is kept in its stead, the earliest of those with an equal key.

The keys that are remembered may be put into a set, where a key is looked for by
its hash first. A value with an equal one in the set is found then because what
is hashed for the two is equal. This is where there may be no value that is no
number.

## Main definitions

* `Filter.firsts`: The items with no equal key before them, and their places.
* `Filter.Represents`: What is true of these.
* `Filter.firstOfEachBy`: The filter with some other way to look for a key.

## Theorems

* `Filter.firstOfEach_eq_firsts`: What is kept.
* `Filter.represents_firsts`: What is kept represents all items.
* `Filter.isFoundBy_eq`: Keys are found in a set.
* `Filter.uniq_firsts`: What the filter gives for any value.
-/

namespace Liquid

namespace Filter

/-- The items that have no item with an equal key before them, each with its key and its place. -/
def firsts (entries : List (Value × Value)) : List ((Value × Value) × Nat) :=
  entries.zipIdx.filter fun found => !(entries.take found.2).any (found.1.1.equals ·.1)

/-- Whether some of the items represent all of them. -/
structure Represents (kept : List ((Value × Value) × Nat)) (entries : List (Value × Value)) :
    Prop where
  sublist : kept.Sublist entries.zipIdx
  distinct : kept.Pairwise fun a b => a.1.1.equals b.1.1 = false
  /-- Each item is represented by the first one that has an equal key. -/
  first : ∀ entry ∈ entries, ∃ found ∈ kept,
    entries.findIdx? (·.1.equals entry.1) = some found.2

/-- The first item for each key, where a key is looked for among those seen in some way. -/
def firstOfEachBy (isFound : Value → Value → Bool) (seen : List Value) :
    List (Value × Value) → List Value
  | [] => []
  | (key, item) :: entries =>
    if seen.any (isFound key) then firstOfEachBy isFound seen entries
    else item :: firstOfEachBy isFound (key :: seen) entries

/-- Whether a key is found to be another one in a set: by its hash, and then as a value. -/
def isFoundBy (hash : Hashed → Int) (key other : Value) : Bool :=
  hash key.hashed == hash other.hashed && key.equals other

section Firsts

variable {entries : List (Value × Value)}

/-- Looking among the keys that have been kept is as good as looking among all of them. -/
theorem firstOfEach_eq_filter (before entries : List (Value × Value)) (seen : List Value)
    (hseen : ∀ key : Value, seen.any key.equals = before.any (key.equals ·.1)) :
    firstOfEach seen entries =
      ((entries.zipIdx before.length).filter fun found =>
        !((before ++ entries).take found.2).any (found.1.1.equals ·.1)).map (·.1.2) := by
  -- All entries that are passed go to those before, but only the keys that are kept are seen.
  induction entries generalizing before seen with
  | nil => rfl
  | cons entry entries ih =>
      rcases entry with ⟨key, item⟩
      have happend : before ++ (key, item) :: entries = (before ++ [(key, item)]) ++ entries := by
        rw [List.append_assoc, List.singleton_append]
      have htake : (before ++ (key, item) :: entries).take before.length = before :=
        List.take_left ..
      have hlength : before.length + 1 = (before ++ [(key, item)]).length := by simp
      have hany (other : Value) : (before ++ [(key, item)]).any (other.equals ·.1) =
          (seen.any other.equals || other.equals key) := by
        rw [List.any_append, hseen]
        simp
      rw [firstOfEach, List.zipIdx_cons]
      by_cases hfound : seen.any key.equals = true
      · rw [if_pos hfound, List.filter_cons_of_neg (by simp [htake, ← hseen, hfound]), happend,
          hlength]
        refine ih _ _ fun other => ?_
        rw [hany]
        -- What equals this key equals one that has been seen.
        cases hother : other.equals key with
        | false => rw [Bool.or_false]
        | true =>
            rcases List.any_eq_true.mp hfound with ⟨found, hmem, hequal⟩
            rw [Bool.or_true]
            exact List.any_eq_true.mpr ⟨found, hmem, Value.equals_trans hother hequal⟩
      · rw [if_neg hfound, List.filter_cons_of_pos (by simpa [htake, ← hseen] using hfound),
          List.map_cons, happend, hlength]
        refine congrArg _ (ih _ _ fun other => ?_)
        rw [hany, List.any_cons, Bool.or_comm]

/-- The loop keeps what is the first of its kind. -/
theorem firstOfEach_eq_firsts (entries : List (Value × Value)) :
    firstOfEach [] entries = (firsts entries).map (·.1.2) :=
  firstOfEach_eq_filter [] entries [] fun _ => rfl

/-- The first item with a key is kept. -/
theorem mem_firsts_of_findIdx? {key : Value} {i : Nat}
    (h : entries.findIdx? (·.1.equals key) = some i) :
    ∃ found ∈ firsts entries, found.2 = i := by
  rcases List.findIdx?_eq_some_iff_getElem.mp h with ⟨hi, hequal, hbefore⟩
  refine ⟨(entries[i], i), List.mem_filter.mpr ⟨?_, ?_⟩, rfl⟩
  · exact List.mem_zipIdx_iff_getElem?.mpr (List.getElem?_eq_getElem hi)
  · rw [Bool.not_eq_true', List.any_eq_false]
    intro other hother hsame
    rcases List.mem_take_iff_getElem.mp hother with ⟨j, hj, rfl⟩
    rw [Value.equals_comm] at hsame
    exact hbefore j (by omega) (Value.equals_trans hsame hequal)

/-- Each entry has an equal one among those that are kept, and no other. -/
theorem represents_firsts (entries : List (Value × Value)) :
    Represents (firsts entries) entries := by
  refine ⟨List.filter_sublist, ?_, fun entry hentry => ?_⟩
  · have hplaces : entries.zipIdx.Pairwise fun a b => a.2 < b.2 := by
      have hrange : (entries.zipIdx.map Prod.snd).Pairwise (· < ·) := by
        rw [List.zipIdx_map_snd]
        exact List.pairwise_lt_range' 1
      exact List.pairwise_map.mp hrange
    refine (hplaces.filter _).imp_of_mem fun {a b} ha hb hlt => ?_
    rcases List.mem_filter.mp ha with ⟨ha, -⟩
    rcases List.mem_filter.mp hb with ⟨-, hb⟩
    rw [Bool.not_eq_true', List.any_eq_false] at hb
    -- The one that stands before is among those that the other is compared with.
    have hmem : a.1 ∈ entries.take b.2 := by
      rcases List.getElem?_eq_some_iff.mp (List.mem_zipIdx_iff_getElem?.mp ha) with ⟨hi, heq⟩
      exact List.mem_take_iff_getElem.mpr ⟨a.2, by omega, heq⟩
    rw [Value.equals_comm]
    exact Bool.eq_false_iff.mpr (hb a.1 hmem)
  · have hfound : (entries.findIdx? (·.1.equals entry.1)).isSome := by
      rw [List.findIdx?_isSome]
      exact List.any_eq_true.mpr ⟨entry, hentry, Value.equals_self entry.1⟩
    rcases Option.isSome_iff_exists.mp hfound with ⟨i, hi⟩
    rcases mem_firsts_of_findIdx? hi with ⟨found, hmem, rfl⟩
    exact ⟨found, hmem, hi⟩

end Firsts

section Found

variable {entries : List (Value × Value)} {isFound : Value → Value → Bool}

/-- It does not matter how keys are looked for, as long as equal ones are found and no others. -/
theorem firstOfEachBy_eq (h : ∀ entry ∈ entries, ∀ other, isFound entry.1 other =
    entry.1.equals other) (seen : List Value) :
    firstOfEachBy isFound seen entries = firstOfEach seen entries := by
  induction entries generalizing seen with
  | nil => rfl
  | cons entry entries ih =>
      rcases entry with ⟨key, item⟩
      have hkey : isFound key = key.equals := funext (h (key, item) List.mem_cons_self)
      have hrest := ih fun entry hentry => h entry (List.mem_cons_of_mem _ hentry)
      rw [firstOfEachBy, firstOfEach, hkey, hrest, hrest]

/-- In a set just the equal keys are found. -/
theorem isFoundBy_eq {hash : Hashed → Int} (hhash : ∀ a b : Hashed, a.Same b → hash a = hash b)
    {key : Value} (hkey : key.NaNFree) (other : Value) :
    isFoundBy hash key other = key.equals other := by
  unfold isFoundBy
  cases hequal : key.equals other with
  | false => rw [Bool.and_false]
  | true =>
      have hsame := Value.same_hashed hkey ((Value.equals_iff_compare key other).mp hequal)
      rw [hhash _ _ hsame, beq_self_eq_true, Bool.and_true]

end Found

section Keys

variable {v w : Value} {property : Option Value} {entries : List (Value × Value)}

/-- What stands in a place that may be empty is a member or nil. -/
theorem nanFree_getD {found : Option Value} (h : v.NaNFree)
    (hmem : ∀ w, found = some w → w ∈ v.members) : (found.getD .nil).NaNFree := by
  cases found with
  | none => exact Value.nanFree_nil
  | some w => exact h.item (hmem w rfl)

theorem nanFree_rangeAt {start stop index : Int} (h : Value.rangeAt start stop index = .ok w) :
    w.NaNFree := by
  unfold Value.rangeAt at h
  split at h
  · cases h
    exact Value.nanFree_nil
  · rcases bind_eq_ok_iff.mp h with ⟨length, -, h⟩
    cases h
    split
    · exact Value.nanFree_integer _
    · exact Value.nanFree_nil

/-- What stands under a key is a member, an integer or nil. -/
theorem nanFree_item {key : Key} (h : v.NaNFree) (hw : v.item key = .ok w) : w.NaNFree := by
  -- A part is a member, an integer or nil, whatever it is taken out of.
  cases v with
  | array items =>
      cases key with
      | index index =>
          cases hw
          unfold Value.arrayAt
          split
          · exact Value.nanFree_nil
          · exact nanFree_getD h fun w hfound => List.mem_of_getElem? hfound
      | name name =>
          cases hw
          split_ifs
          · exact Value.nanFree_integer _
          · exact nanFree_getD h fun w hfound => List.mem_of_head? hfound
          · exact nanFree_getD h fun w hfound => List.mem_of_getLast? hfound
          · exact Value.nanFree_nil
      | other =>
          cases hw
          exact Value.nanFree_nil
  | dictionary entries =>
      cases key with
      | name name =>
          cases hw
          cases hlookup : List.lookup name entries with
          | some value =>
              rcases List.lookup_eq_some_iff.mp hlookup with ⟨before, after, rfl, -⟩
              exact h.item (by simp [Value.members])
          | none =>
              dsimp only
              split
              · exact Value.nanFree_integer _
              · exact Value.nanFree_nil
      | _ =>
          cases hw
          exact Value.nanFree_nil
  | range start stop =>
      cases key with
      | index index => exact nanFree_rangeAt hw
      | name name =>
          dsimp only [Value.item] at hw
          split_ifs at hw
          · rcases map_eq_ok_iff.mp hw with ⟨length, -, rfl⟩
            exact Value.nanFree_integer _
          · exact nanFree_rangeAt hw
          · rcases bind_eq_ok_iff.mp hw with ⟨length, -, hw⟩
            exact nanFree_rangeAt hw
          · cases hw
            exact Value.nanFree_nil
      | other =>
          cases hw
          exact Value.nanFree_nil
  | _ =>
      cases hw
      exact Value.nanFree_nil

/-- The items of a value are its members, integers or the value itself. -/
theorem nanFree_elements {items : List Value} (h : v.NaNFree) (hitems : v.elements = .ok items) :
    ∀ item ∈ items, item.NaNFree := by
  intro item hitem
  -- The items are members, integers, or the value itself.
  cases v with
  | array =>
      cases hitems
      exact h.item hitem
  | range start stop =>
      rcases map_eq_ok_iff.mp hitems with ⟨length, -, rfl⟩
      rcases List.mem_map.mp hitem with ⟨i, -, rfl⟩
      exact Value.nanFree_integer _
  | nil =>
      cases hitems
      cases hitem
  | _ =>
      cases hitems
      rcases List.mem_singleton.mp hitem with rfl
      exact h

/-- Keys are items or their properties. -/
theorem Keyed.nanFree (h : Keyed property v entries) (hv : v.NaNFree) :
    ∀ entry ∈ entries, entry.1.NaNFree := by
  intro entry hentry
  have hitem := nanFree_elements hv h.items entry.2 (List.mem_map_of_mem hentry)
  have hkey := h.keys entry hentry
  cases property with
  | none =>
      have heq : entry.2 = entry.1 := Except.ok.inj hkey
      exact heq ▸ hitem
  | some property => exact nanFree_item hitem hkey

end Keys

section Uniq

variable {v : Value} {property : Option Value} {entries : List (Value × Value)}

/-- Once every item has its key, the filter cannot fail. -/
theorem uniq_of_keyed (h : Keyed property v entries) :
    uniq v property = .ok (.array (firstOfEach [] entries)) := by
  unfold uniq
  rw [keyed_eq_ok_iff.mpr h]
  rfl

/-- An item without a key stops the filter. -/
theorem uniq_of_error {fault : FilterFailure} (h : keyed property v = .error fault) :
    uniq v property = .error fault := by
  unfold uniq
  rw [h]
  rfl

/-- Of the items of any value, the filter keeps the first of those with equal keys, unless there is
a range that is too long to be looked into. It does so too when it looks for the keys in a set,
since equal values without the one that is no number have the same hash. -/
theorem uniq_firsts (settings : Settings) (hv : v.NaNFree) :
    (∀ a b : Value, a.NaNFree → a.equals b → a.hashed.Same b.hashed) ∧
      ∃ filter, (Environment.create settings {}).1.filters.get? "uniq" = some filter ∧
        ∀ args options,
          ((filter.apply v args options).result = .error (.crashed .rangeTooLong) ∧
            Unmeasured args.head? v) ∨
          ∃ entries, Keyed args.head? v entries ∧
            (filter.apply v args options).result =
              .ok (.array ((firsts entries).map (·.1.2))) ∧
            Represents (firsts entries) entries ∧
            ∀ hash : Hashed → Int, (∀ a b : Hashed, a.Same b → hash a = hash b) →
              firstOfEachBy (isFoundBy hash) [] entries = (firsts entries).map (·.1.2) := by
  refine ⟨fun a b ha hequal => Value.same_hashed ha ((Value.equals_iff_compare a b).mp hequal),
    .ofOptional "uniq" uniq, rfl, fun args options => ?_⟩
  rw [ofOptional_apply]
  -- Keys are taken first, and only a range that is too long has none.
  cases hkeyed : keyed args.head? v with
  | error fault =>
      rcases keyed_eq_error hkeyed with ⟨rfl, hlong⟩
      exact .inl ⟨uniq_of_error hkeyed, hlong⟩
  | ok entries =>
      have hentries := keyed_eq_ok_iff.mp hkeyed
      refine .inr ⟨entries, hentries, ?_, represents_firsts entries, fun hash hhash => ?_⟩
      · rw [← firstOfEach_eq_firsts]
        exact uniq_of_keyed hentries
      · rw [← firstOfEach_eq_firsts]
        exact firstOfEachBy_eq
          (fun entry hentry => isFoundBy_eq hhash (hentries.nanFree hv entry hentry)) []

/-- Numbers that are equal in either form, on their own and in arrays, with a hash that is no
help. -/
theorem uniq_firsts_numbers :
    let one : Value := .decimal (.finite false 10 (-1))
    let v : Value := .array [.integer 1, one, .array [.integer 1], .array [one], .string "1"]
    v.NaNFree ∧ (Value.array [.integer 1]).hashed.Same (Value.array [one]).hashed ∧
      uniq v none = .ok (.array [.integer 1, .array [.integer 1], .string "1"]) ∧
      ∃ entries, Keyed none v entries ∧ Represents (firsts entries) entries ∧
        firstOfEachBy (isFoundBy fun _ => 0) [] entries =
          [.integer 1, .array [.integer 1], .string "1"] := by
  intro one v
  have hinteger := Value.nanFree_integer 1
  have hdecimal : one.NaNFree := Value.nanFree_of_members_eq_nil (by simp [one]) rfl
  have hstring : (Value.string "1").NaNFree := Value.nanFree_of_members_eq_nil (by simp) rfl
  have harray {item : Value} (h : item.NaNFree) : (Value.array [item]).NaNFree :=
    .step (by simp) (by simpa [Value.members] using h)
  have hv : v.NaNFree :=
    .step (by simp [v]) (by simp [v, Value.members, hinteger, hdecimal, harray, hstring])
  have hanswer : uniq v none = .ok (.array [.integer 1, .array [.integer 1], .string "1"]) := rfl
  rcases uniq_firsts {} hv with ⟨hsame, filter, hfilter, happly⟩
  have hfilter' : filter = .ofOptional "uniq" uniq := (Option.some.inj hfilter).symm
  subst hfilter'
  rcases happly [] [] with ⟨herror, -⟩ | ⟨entries, hentries, hresult, hrepresents, hset⟩
  · rw [ofOptional_apply] at herror
    cases herror
  · have hkept : (firsts entries).map (·.1.2) = [.integer 1, .array [.integer 1], .string "1"] := by
      rw [ofOptional_apply] at hresult
      exact (Value.array.inj (Except.ok.inj (hanswer.symm.trans hresult))).symm
    -- With one hash for all keys it is left to equality to tell them apart.
    refine ⟨hv, hsame _ _ (harray hinteger) rfl, hanswer, entries, hentries, hrepresents, ?_⟩
    rw [hset (fun _ => 0) fun _ _ _ => rfl, hkept]

/-- A range that is too long, as the one item of an array whose items are told apart by size. -/
theorem uniq_unmeasured :
    let v : Value := .array [.range 1 9223372036854775808]
    v.elements = .ok [.range 1 9223372036854775808] ∧
      uniq v (some (.string "size")) = .error (.crashed .rangeTooLong) ∧
      uniq v (some (.string "size")) ≠ .ok v := by
  refine ⟨rfl, rfl, ?_⟩
  intro h
  cases h

end Uniq

end Filter

end Liquid
