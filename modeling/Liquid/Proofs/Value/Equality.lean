import Liquid.Proofs.Value.Order
import Mathlib.Data.List.Forall2

/-!
# The Laws of Equality

Equality is what the order calls equal, and what it calls equal can be said
without any order.

`Alike` says it. Numbers are alike if they stand for one number, whatever
their form. Arrays are alike item by item. Dictionaries are alike if their
entries can be put in an order in which they match, key by key and value by
value. The order gets there by another way, through normal forms in which the
entries are sorted, so the two agree only if sorting finds a matching whenever
there is one. It does because the keys of a dictionary are distinct: then only
one order of the entries is sorted, and both sides come to it.

## Main definitions

* `Value.Alike`: Equality of values, said without their order.

## Theorems

* `Value.same_eq_order`: Equality of normal forms is what their order calls
  equal.
* `Value.compare_array_eq_eq_iff`, `Value.compare_dictionary_eq_eq_iff`: When
  containers compare as equal.
* `forall₂_sortedByKey`: Sorting keeps entries with the same keys matched.
* `Value.compare_eq_eq_iff_alike`: What the order calls equal is alike.
* `Value.compare_totalPreorder`: The laws of order and equality for all values.
-/

namespace Liquid

theorem compareLex_eq_eq_iff {α : Type} {cmp : α → α → Ordering} (as bs : List α) :
    List.compareLex cmp as bs = .eq ↔ List.Forall₂ (fun a b => cmp a b = .eq) as bs := by
  induction as generalizing bs with
  | nil => cases bs <;> simp [List.compareLex_nil_nil, List.compareLex_nil_cons]
  | cons a as ih =>
      cases bs with
      | nil => simp [List.compareLex_cons_nil]
      | cons b bs =>
          rw [List.compareLex_cons_cons, Ordering.then_eq_eq, List.forall₂_cons, ih]

theorem beq_eq_then (x y : Ordering) : (x.then y == .eq) = (x == .eq && y == .eq) := by
  cases x <;> cases y <;> rfl

theorem beq_eq_compare {α : Type} [BEq α] [LawfulBEq α] [Ord α] [Std.LawfulEqOrd α] (a b : α) :
    (a == b) = (compare a b == .eq) := by
  rw [Bool.eq_iff_iff, beq_iff_eq, beq_iff_eq, Std.LawfulEqOrd.compare_eq_iff_eq]

/-- Two relations that agree on the members of two lists relate the lists alike. -/
theorem forall₂_congr_mem {α β : Type} {R S : α → β → Prop} {as : List α} {bs : List β}
    (h : ∀ a ∈ as, ∀ b ∈ bs, (R a b ↔ S a b)) : List.Forall₂ R as bs ↔ List.Forall₂ S as bs := by
  rw [List.forall₂_iff_zip, List.forall₂_iff_zip]
  refine and_congr_right fun _ => forall₂_congr fun a b => imp_congr_right fun hmem => ?_
  exact h a (List.of_mem_zip hmem).1 b (List.of_mem_zip hmem).2

namespace Value

/-- Values of different kinds are never the same. -/
theorem same_of_rank_ne {a b : Value} (h : a.rank ≠ b.rank) : a.same b = false := by
  cases a <;> cases b <;> first | rfl | exact absurd rfl h

/-- Numbers are the same if their order is even. -/
theorem same_number {a b : Value} (ha : a.isNumeric) (hb : b.isNumeric) :
    a.same b = (a.order b == .eq) := by
  cases a <;> cases ha <;> cases b <;> cases hb
  case integer.refl.integer.refl m n => exact beq_eq_compare m n
  all_goals rfl

theorem sameItems_eq_compareLex {as : List Value}
    (h : ∀ a ∈ as, ∀ b, a.same b = (a.order b == .eq)) (bs : List Value) :
    sameItems as bs = (List.compareLex order as bs == .eq) := by
  induction as generalizing bs with
  | nil => cases bs <;> rfl
  | cons a as ih =>
      cases bs with
      | nil => rfl
      | cons b bs =>
          rw [sameItems, List.compareLex_cons_cons, beq_eq_then, h a List.mem_cons_self,
            ih (fun x hx => h x (List.mem_cons_of_mem a hx))]

theorem sameEntries_eq_compareLex {as : List (String × Value)}
    (h : ∀ a ∈ as, ∀ b, a.2.same b = (a.2.order b == .eq)) (bs : List (String × Value)) :
    sameEntries as bs = (List.compareLex orderEntry as bs == .eq) := by
  -- Entry by entry, on both lists at once.
  induction as generalizing bs with
  | nil => cases bs <;> rfl
  | cons a as ih =>
      cases bs with
      | nil => rfl
      | cons b bs =>
          rw [sameEntries, List.compareLex_cons_cons, beq_eq_then, orderEntry, beq_eq_then,
            beq_eq_compare, h a List.mem_cons_self,
            ih (fun x hx => h x (List.mem_cons_of_mem a hx))]

/-- Equality of normal forms is defined beside their order, and agrees with it. -/
theorem same_eq_order (a b : Value) : a.same b = (a.order b == .eq) := by
  -- By the members of the first value, whose sameness is known to be their order.
  induction a using byMembers generalizing b with
  | step a ih =>
      by_cases hrank : a.rank = b.rank
      · cases sameKind_of_rank_eq hrank with
        | nil => rfl
        | bool a b => exact beq_eq_compare a b
        | string a b => exact beq_eq_compare a b
        | array as bs =>
            rw [same, order_array]
            exact sameItems_eq_compareLex ih bs
        | dictionary as bs =>
            rw [same, order_dictionary]
            exact sameEntries_eq_compareLex (fun a ha => ih a.2 (List.mem_map_of_mem ha)) bs
        | range a b c d => rw [same, order, beq_eq_then, beq_eq_compare a c, beq_eq_compare b d]
        | number ha hb => exact same_number ha hb
      · rw [same_of_rank_ne hrank, order_of_rank_ne hrank, eq_comm, beq_eq_false_iff_ne]
        exact fun heq => hrank (compare_eq_iff_eq.mp heq)

/-- Equality is the comparison that comes out even. -/
theorem equals_iff_compare (a b : Value) : a.equals b = true ↔ a.compare b = .eq := by
  rw [equals, compare, same_eq_order, beq_iff_eq]

theorem rank_normal (v : Value) : v.normal.rank = v.rank := by
  cases v <;> rfl

theorem compare_self (v : Value) : v.compare v = .eq :=
  Ordering.eq_eq_of_eq_swap (order_swap v.normal v.normal)

theorem equals_self (v : Value) : v.equals v = true :=
  (equals_iff_compare v v).mpr (compare_self v)

theorem equals_comm (a b : Value) : a.equals b = b.equals a := by
  rw [Bool.eq_iff_iff, equals_iff_compare, equals_iff_compare, Std.OrientedCmp.eq_comm]

/-- Equality is transitive. -/
theorem equals_trans {a b c : Value} (hab : a.equals b = true) (hbc : b.equals c = true) :
    a.equals c = true := by
  rw [equals_iff_compare] at *
  exact Std.TransCmp.eq_trans hab hbc

theorem compare_of_rank_ne {a b : Value} (h : a.rank ≠ b.rank) : a.compare b ≠ .eq := by
  rw [compare, order_of_rank_ne (by rwa [rank_normal, rank_normal]), rank_normal, rank_normal]
  exact fun heq => h (compare_eq_iff_eq.mp heq)

/-- Numbers of either kind compare as decimals. -/
theorem compare_number {a b : Value} (ha : a.isNumeric) (hb : b.isNumeric) :
    a.compare b = a.numeral.compare b.numeral := by
  rw [← order_number ha hb]
  cases a <;> cases ha <;> cases b <;> cases hb <;> rfl

/-- Arrays compare equal if their items do, one by one. -/
theorem compare_array_eq_eq_iff (as bs : List Value) :
    (array as).compare (array bs) = .eq ↔ List.Forall₂ (fun a b => a.compare b = .eq) as bs := by
  rw [compare, normal_array, normal_array, order_array, compareLex_eq_eq_iff,
    List.forall₂_map_left_iff, List.forall₂_map_right_iff]
  rfl

/-- Dictionaries compare equal if, in the order of their keys, the keys are the same and the values
compare equal. -/
theorem compare_dictionary_eq_eq_iff (as bs : List (String × Value)) :
    (dictionary as).compare (dictionary bs) = .eq
      ↔ List.Forall₂ (fun a b => a.1 = b.1 ∧ a.2.compare b.2 = .eq) (sortedByKey as)
        (sortedByKey bs) := by
  rw [compare, normal_dictionary, normal_dictionary, order_dictionary, compareLex_eq_eq_iff,
    List.forall₂_map_left_iff, List.forall₂_map_right_iff]
  refine forall₂_congr_mem fun a _ b _ => ?_
  rw [orderEntry, Ordering.then_eq_eq, Std.LawfulEqOrd.compare_eq_iff_eq]
  rfl

/-- Entries matched by key and value are their keys and their values matched apart. -/
theorem forall₂_entries_iff {R : Value → Value → Prop} (as bs : List (String × Value)) :
    List.Forall₂ (fun a b => a.1 = b.1 ∧ R a.2 b.2) as bs
      ↔ as.map Prod.fst = bs.map Prod.fst
        ∧ List.Forall₂ R (as.map Prod.snd) (bs.map Prod.snd) := by
  -- Entry by entry, on both lists at once.
  induction as generalizing bs with
  | nil => cases bs <;> simp
  | cons a as ih =>
      cases bs with
      | nil => simp
      | cons b bs =>
          simp only [List.forall₂_cons, List.map_cons, List.cons.injEq, ih]
          tauto

/-- Sorting goes by key, so it moves entries that are matched by key together. -/
theorem forall₂_sortedByKey {R : Value → Value → Prop} {as bs : List (String × Value)}
    (h : List.Forall₂ (fun a b => a.1 = b.1 ∧ R a.2 b.2) as bs) :
    List.Forall₂ (fun a b => a.1 = b.1 ∧ R a.2 b.2) (sortedByKey as) (sortedByKey bs) := by
  rcases List.forall₂_iff_zip.mp h with ⟨hlen, hmem⟩
  -- Both lists are read off one list of pairs, and sorting that sorts either.
  let pairs := as.zip bs
  let sorted := pairs.mergeSort fun p q => (Ord.compare p.1.1 q.1.1).isLE
  have has : sortedByKey as = sorted.map Prod.fst := by
    rw [← List.map_fst_zip (Nat.le_of_eq hlen)]
    exact (List.map_mergeSort (f := Prod.fst) fun _ _ _ _ => rfl).symm
  have hbs : sortedByKey bs = sorted.map Prod.snd := by
    rw [← List.map_snd_zip (Nat.le_of_eq hlen.symm)]
    refine (List.map_mergeSort (f := Prod.snd) fun p hp q hq => ?_).symm
    rw [(hmem hp).1, (hmem hq).1]
  rw [has, hbs, List.forall₂_map_left_iff, List.forall₂_map_right_iff, List.forall₂_same]
  exact fun p hp => hmem (List.mem_mergeSort.mp hp)

/-- Equality of values, said without their order. -/
inductive Alike : Value → Value → Prop
  | nil : Alike .nil .nil
  | bool (flag : Bool) : Alike (.bool flag) (.bool flag)
  /-- Numbers of either form that are one number. -/
  | number {a b : Value} (ha : a.isNumeric) (hb : b.isNumeric)
      (hsame : a.numeral.SameNumber b.numeral) : Alike a b
  | string (text : String) : Alike (.string text) (.string text)
  | array {as bs : List Value} (hitems : List.Forall₂ Alike as bs) :
      Alike (.array as) (.array bs)
  /-- Dictionaries whose entries match, key by key and value by value, once they are put in some
      order. -/
  | dictionary {as as' bs bs' : List (String × Value)} (has : as.Perm as') (hbs : bs.Perm bs')
      (hkeys : as'.map Prod.fst = bs'.map Prod.fst)
      (hitems : List.Forall₂ Alike (as'.map Prod.snd) (bs'.map Prod.snd)) :
      Alike (.dictionary as) (.dictionary bs)
  | range (start stop : Int) : Alike (.range start stop) (.range start stop)

theorem Alike.rank_eq {a b : Value} (h : Alike a b) : a.rank = b.rank := by
  cases h with
  | number ha hb hsame => cases a <;> cases ha <;> cases b <;> cases hb <;> rfl
  | _ => rfl

/-- Two numbers are alike if they are the same number. -/
theorem alike_number_iff {a b : Value} (ha : a.isNumeric) (hb : b.isNumeric) :
    Alike a b ↔ a.numeral.SameNumber b.numeral := by
  refine ⟨fun h => ?_, Alike.number ha hb⟩
  cases h with
  | number _ _ hsame => exact hsame
  | _ => cases ha

theorem alike_bool_iff (a b : Bool) : Alike (.bool a) (.bool b) ↔ a = b := by
  refine ⟨fun h => ?_, fun h => h ▸ .bool a⟩
  cases h with
  | bool => rfl
  | number ha => cases ha

theorem alike_string_iff (a b : String) : Alike (.string a) (.string b) ↔ a = b := by
  refine ⟨fun h => ?_, fun h => h ▸ .string a⟩
  cases h with
  | string => rfl
  | number ha => cases ha

theorem alike_range_iff (a b c d : Int) : Alike (.range a b) (.range c d) ↔ a = c ∧ b = d := by
  refine ⟨fun h => ?_, fun ⟨hac, hbd⟩ => hac ▸ hbd ▸ .range a b⟩
  cases h with
  | range => exact ⟨rfl, rfl⟩
  | number ha => cases ha

theorem alike_array_iff (as bs : List Value) :
    Alike (.array as) (.array bs) ↔ List.Forall₂ Alike as bs := by
  refine ⟨fun h => ?_, .array⟩
  cases h with
  | array hitems => exact hitems
  | number ha => cases ha

/-- Dictionaries with distinct keys are alike exactly if they match entry by entry once sorted:
    there is only one order in which their entries are sorted. -/
theorem alike_dictionary_iff {as bs : List (String × Value)} (has : (as.map Prod.fst).Nodup)
    (hbs : (bs.map Prod.fst).Nodup) :
    Alike (.dictionary as) (.dictionary bs)
      ↔ List.Forall₂ (fun a b => a.1 = b.1 ∧ Alike a.2 b.2) (sortedByKey as) (sortedByKey bs) := by
  constructor
  · intro h
    cases h with
    | dictionary hperm_a hperm_b hkeys hitems =>
        -- Whatever order they were put in to match, sorting undoes it.
        rw [sortedByKey_congr has hperm_a, sortedByKey_congr hbs hperm_b]
        exact forall₂_sortedByKey ((forall₂_entries_iff _ _).mpr ⟨hkeys, hitems⟩)
    | number ha => cases ha
  · intro h
    rcases (forall₂_entries_iff _ _).mp h with ⟨hkeys, hitems⟩
    exact .dictionary (sortedByKey_perm as).symm (sortedByKey_perm bs).symm hkeys hitems

/-- Values compare equal exactly if their contents are alike. -/
theorem compare_eq_eq_iff_alike {a b : Value} (ha : a.KeysDistinct) (hb : b.KeysDistinct) :
    a.compare b = .eq ↔ Alike a b := by
  induction a using byMembers generalizing b with
  | step a ih =>
      by_cases hrank : a.rank = b.rank
      · cases sameKind_of_rank_eq hrank with
        | nil => exact ⟨fun _ => .nil, fun _ => rfl⟩
        | bool a b =>
            rw [alike_bool_iff]
            exact Std.LawfulEqOrd.compare_eq_iff_eq
        | string a b =>
            rw [alike_string_iff]
            exact Std.LawfulEqOrd.compare_eq_iff_eq
        | array as bs =>
            rw [compare_array_eq_eq_iff, alike_array_iff]
            refine forall₂_congr_mem fun a hmem_a b hmem_b => ?_
            exact ih a hmem_a (ha.item hmem_a) (hb.item hmem_b)
        | dictionary as bs =>
            rw [compare_dictionary_eq_eq_iff, alike_dictionary_iff ha.keys hb.keys]
            refine forall₂_congr_mem fun a hmem_a b hmem_b => and_congr_right fun _ => ?_
            -- Sorting adds no entry, so the values are members of the dictionaries.
            have hmem_a' := List.mem_map_of_mem (f := Prod.snd) (List.mem_mergeSort.mp hmem_a)
            have hmem_b' := List.mem_map_of_mem (f := Prod.snd) (List.mem_mergeSort.mp hmem_b)
            exact ih a.2 hmem_a' (ha.item hmem_a') (hb.item hmem_b')
        | range a b c d =>
            rw [alike_range_iff, ← compare_eq_iff_eq (a := a), ← compare_eq_iff_eq (a := b)]
            exact Ordering.then_eq_eq
        | number ha hb =>
            rw [compare_number ha hb, alike_number_iff ha hb, Decimal.compare_eq_eq_iff]
      · exact ⟨fun h => absurd h (compare_of_rank_ne hrank), fun h => absurd h.rank_eq hrank⟩

/-- An integer equals a decimal that is finite and has its value. -/
theorem equals_integer_decimal (n : Int) (d : Decimal) :
    (integer n).equals (decimal d) ↔ d.isFinite ∧ d.toRat = n := by
  rw [equals_iff_compare, compare_number rfl rfl, Decimal.compare_eq_eq_iff]
  exact Decimal.sameNumber_ofInt_iff n d

/-- The order of the entries does not matter to equality. -/
theorem equals_dictionary_of_perm {as bs : List (String × Value)}
    (hkeys : (as.map Prod.fst).Nodup) (h : as.Perm bs) :
    (dictionary as).equals (dictionary bs) := by
  rw [equals_iff_compare, compare, normal_dictionary, normal_dictionary,
    sortedByKey_congr hkeys h, ← normal_dictionary]
  exact compare_self (dictionary bs)

/-- The order of all values is a total preorder, and equality is what it calls equal. Hence equal
    values stand at one place of the order. Equality is that of content: of numbers by what they
    stand for, of dictionaries without regard to the order of their entries. -/
theorem compare_totalPreorder :
    (∀ a b : Value, a.compare b = (b.compare a).swap)
      ∧ (∀ a : Value, a.compare a = .eq)
      ∧ (∀ a b c : Value, (a.compare b).isLE → (b.compare c).isLE → (a.compare c).isLE)
      ∧ (∀ a b : Value, a.equals b ↔ a.compare b = .eq)
      ∧ (∀ a b c : Value, a.equals b → a.compare c = b.compare c ∧ c.compare a = c.compare b)
      ∧ (∀ a b : Value, a.KeysDistinct → b.KeysDistinct → (a.equals b ↔ Alike a b))
      ∧ (∀ (n : Int) (d : Decimal),
          (integer n).equals (decimal d) ↔ d.isFinite ∧ d.toRat = n)
      ∧ (∀ as bs : List (String × Value), (as.map Prod.fst).Nodup → as.Perm bs →
          (dictionary as).equals (dictionary bs))
      ∧ (∀ (s : String) (v : Value), v.isNumeric → ¬(string s).equals v) := by
  -- The order of three values is coherent; swapped, transitive and congruent all come from it.
  have hcoherent : ∀ a b c : Value, Coherent (a.compare b) (b.compare c) (a.compare c) :=
    fun a b c => order_coherent a.normal b.normal c.normal
  refine ⟨fun a b => order_swap a.normal b.normal, compare_self,
    fun a b c => (hcoherent a b c).isLE_trans, equals_iff_compare, fun a b c h => ?_,
    fun a b ha hb => ?_, equals_integer_decimal, fun as bs => equals_dictionary_of_perm,
    fun s v hv h => ?_⟩
  · have heq := (equals_iff_compare a b).mp h
    exact ⟨(hcoherent a b c).1 heq, ((hcoherent c a b).2.1 heq).symm⟩
  · rw [equals_iff_compare, compare_eq_eq_iff_alike ha hb]
  · -- No number has the rank of a text.
    refine compare_of_rank_ne (fun hrank => ?_) ((equals_iff_compare _ v).mp h)
    cases isNumeric_of_rank_eq hrank.symm hv

/-- The laws at an array of a dictionary, with a number in either form and the entries in either
    order, and at three values of different kinds. -/
theorem compare_totalPreorder_nested :
    (array [dictionary [("k", integer 1), ("l", string "x")]]).equals
        (array [dictionary [("l", string "x"), ("k", decimal (.finite false 10 (-1)))]])
      ∧ (array [dictionary [("k", integer 1), ("l", string "x")]]).compare nil
        = (array [dictionary [("l", string "x"), ("k", decimal (.finite false 10 (-1)))]]).compare
          nil
      ∧ ((integer 1).compare (string "a")).isLE
      ∧ (dictionary [("k", nil), ("l", nil)]).equals (dictionary [("l", nil), ("k", nil)])
      ∧ ¬(string "1").equals (integer 1) := by
  rcases compare_totalPreorder with ⟨-, -, htrans, -, hcongr, halike, -, hperm, hstring⟩
  have hone : (Decimal.ofInt 1).toRat = (Decimal.finite false 10 (-1)).toRat := by
    rw [Decimal.toRat_ofInt]
    norm_num [Decimal.toRat]
  -- The one member that is written in two ways.
  have hnumber : Alike (integer 1) (decimal (.finite false 10 (-1))) :=
    .number rfl rfl ⟨rfl, hone⟩
  have hequals : (array [dictionary [("k", integer 1), ("l", string "x")]]).equals
      (array [dictionary [("l", string "x"), ("k", decimal (.finite false 10 (-1)))]]) := by
    refine (halike _ _ ?_ ?_).mpr (.array (.cons ?_ .nil))
    · exact .array (by simp [KeysDistinct.dictionary, KeysDistinct.integer, KeysDistinct.string])
    · exact .array (by simp [KeysDistinct.dictionary, KeysDistinct.decimal, KeysDistinct.string])
    · exact .dictionary (.refl _) (.swap _ _ _) rfl (.cons hnumber (.cons (.string "x") .nil))
  refine ⟨hequals, (hcongr _ _ nil hequals).1, htrans _ (decimal (.finite false 15 (-1))) _ ?_ ?_,
    hperm _ _ ?_ (.swap _ _ _), hstring _ _ rfl⟩
  · decide
  · decide
  · decide

end Value

end Liquid
