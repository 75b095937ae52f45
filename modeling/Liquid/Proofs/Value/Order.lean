import Liquid.Proofs.Decimal.Rational
import Liquid.Proofs.Value.Nesting

/-!
# The Laws of the Order

The order of values in normal form is a total preorder.

Transitivity is not shown as transitivity. Lists are compared by the first
members that differ, so the comparison of two lists depends on three things at
each place: which of the members is less, and whether they are equal. A law
that only speaks of less-or-equal cannot be carried through that. `Coherent`
says of three comparisons all that a total preorder makes true of them, and it
is kept when another three are appended behind, which is what both containers
and the tiers of numbers need.

Kinds are compared by rank, so of three values only those of one rank have
anything to compare. `SameKind` lists the pairs of values that are compared by
content, in the form in which the order lists them.

## Main definitions

* `Coherent`: What a total preorder makes true of three comparisons.
* `Value.numeral`: The number that a numeric value is.
* `Value.SameKind`: The pairs of values that are compared by content.

## Theorems

* `coherent_compare`, `Coherent.append`: Where coherence comes from.
* `compareLex_swap`, `compareLex_coherent`: The laws carry over to lists.
* `Value.order_swap`: The order of two values is that of the two exchanged,
  reversed.
* `Value.order_coherent`: The comparisons of three values are coherent.
-/

namespace Liquid

/-- What a total preorder makes true of the comparisons of a first thing with a second, of the
    second with a third and of the first with the third. -/
def Coherent (ab bc ac : Ordering) : Prop :=
  (ab = .eq → ac = bc) ∧ (bc = .eq → ac = ab) ∧ (ab = bc → ac = ab)

theorem coherent_compare {α : Type} [Ord α] [Std.TransOrd α] (a b c : α) :
    Coherent (compare a b) (compare b c) (compare a c) := by
  refine ⟨fun h => Std.TransCmp.congr_left h, fun h => (Std.TransCmp.congr_right h).symm,
    fun h => ?_⟩
  cases hab : compare a b with
  | lt => exact Std.TransCmp.lt_trans hab (by rw [← h, hab])
  | eq => exact Std.TransCmp.eq_trans hab (by rw [← h, hab])
  | gt => exact Std.TransCmp.gt_trans hab (by rw [← h, hab])

/-- Coherence of what decides first and of what decides next gives that of both together. Where
    the first three differ in direction, nothing is claimed of the last. -/
theorem Coherent.append {ab bc ac ab' bc' ac' : Ordering} (h : Coherent ab bc ac)
    (h' : Coherent ab' bc' ac') :
    Coherent (ab.then ab') (bc.then bc') (ac.then ac') := by
  cases ab <;> cases bc <;> grind [Coherent, Ordering.then]

/-- Coherence of what decides first is enough if it leaves nothing to decide. -/
theorem Coherent.append_of_ne {ab bc ac ab' bc' ac' : Ordering} (h : Coherent ab bc ac)
    (hne : ¬(ab = .eq ∧ bc = .eq)) :
    Coherent (ab.then ab') (bc.then bc') (ac.then ac') := by
  cases ab <;> cases bc <;> grind [Coherent, Ordering.then]

/-- Coherence as transitivity. -/
theorem Coherent.isLE_trans {ab bc ac : Ordering} (h : Coherent ab bc ac) (hab : ab.isLE)
    (hbc : bc.isLE) : ac.isLE := by
  rcases h with ⟨hleft, hright, hsame⟩
  cases ab <;> cases bc <;> simp_all

section Lexicographic

variable {α : Type} {cmp : α → α → Ordering} {as : List α}

/-- If items compare the other way round when swapped, so do lists of them. -/
theorem compareLex_swap (h : ∀ a ∈ as, ∀ b, cmp a b = (cmp b a).swap) (bs : List α) :
    List.compareLex cmp as bs = (List.compareLex cmp bs as).swap := by
  induction as generalizing bs with
  | nil => cases bs <;> rfl
  | cons a as ih =>
      cases bs with
      | nil => rfl
      | cons b bs =>
          rw [List.compareLex_cons_cons, List.compareLex_cons_cons, Ordering.swap_then,
            h a List.mem_cons_self, ih (fun x hx => h x (List.mem_cons_of_mem a hx)) bs]

/-- If items compare coherently, so do lists of them. -/
theorem compareLex_coherent (h : ∀ a ∈ as, ∀ b c, Coherent (cmp a b) (cmp b c) (cmp a c))
    (bs cs : List α) :
    Coherent (List.compareLex cmp as bs) (List.compareLex cmp bs cs)
      (List.compareLex cmp as cs) := by
  induction as generalizing bs cs with
  -- A list that has ended comes before every longer one.
  | nil => cases bs <;> cases cs <;> simp [Coherent, List.compareLex_nil_nil,
      List.compareLex_nil_cons, List.compareLex_cons_nil]
  | cons a as ih =>
      cases bs with
      | nil => cases cs <;> simp [Coherent, List.compareLex_nil_nil, List.compareLex_nil_cons,
          List.compareLex_cons_nil]
      | cons b bs =>
          cases cs with
          | nil =>
              rw [List.compareLex_cons_nil, List.compareLex_cons_nil]
              exact ⟨fun _ => rfl, fun h => (nomatch h), Eq.symm⟩
          | cons c cs =>
              rw [List.compareLex_cons_cons, List.compareLex_cons_cons, List.compareLex_cons_cons]
              -- The first items decide, or else the rest of the lists.
              exact (h a List.mem_cons_self b c).append
                (ih (fun x hx => h x (List.mem_cons_of_mem a hx)) bs cs)

end Lexicographic

theorem Decimal.compare_swap (a b : Decimal) : a.compare b = (b.compare a).swap := by
  rw [compare_eq_then, compare_eq_then, Ordering.swap_then, ← Std.OrientedOrd.eq_swap,
    ← Std.OrientedOrd.eq_swap]

theorem Decimal.compare_coherent (a b c : Decimal) :
    Coherent (a.compare b) (b.compare c) (a.compare c) := by
  rw [compare_eq_then, compare_eq_then, compare_eq_then]
  exact (coherent_compare a.tier b.tier c.tier).append (coherent_compare a.toRat b.toRat c.toRat)

namespace Value

/-- The number that a numeric value is. -/
def numeral : Value → Decimal
  | integer n => .ofInt n
  | decimal d => d
  | _ => .nan

/-- The pairs of values that are compared by content. -/
inductive SameKind : Value → Value → Prop
  | nil : SameKind .nil .nil
  | bool (a b : Bool) : SameKind (.bool a) (.bool b)
  | string (a b : String) : SameKind (.string a) (.string b)
  | array (as bs : List Value) : SameKind (.array as) (.array bs)
  | dictionary (as bs : List (String × Value)) : SameKind (.dictionary as) (.dictionary bs)
  | range (a b c d : Int) : SameKind (.range a b) (.range c d)
  | number {a b : Value} (ha : a.isNumeric) (hb : b.isNumeric) : SameKind a b

/-- Values of one rank are of one kind. -/
theorem sameKind_of_rank_eq {a b : Value} (h : a.rank = b.rank) : SameKind a b := by
  cases a <;> cases b <;> first | (cases h; done) | constructor <;> rfl

theorem isNumeric_of_rank_eq {a b : Value} (h : a.rank = b.rank) (ha : a.isNumeric) :
    b.isNumeric := by
  cases sameKind_of_rank_eq h with
  | number _ hb => exact hb
  | _ => cases ha

/-- Values of different kinds are ordered by their ranks. -/
theorem order_of_rank_ne {a b : Value} (h : a.rank ≠ b.rank) :
    a.order b = Ord.compare a.rank b.rank := by
  cases a <;> cases b <;> first | rfl | exact absurd rfl h

/-- The rank decides first, whatever is left to decide. -/
theorem order_eq_then (a b : Value) :
    a.order b = (Ord.compare a.rank b.rank).then (a.order b) := by
  by_cases h : a.rank = b.rank
  · rw [compare_eq_iff_eq.mpr h, Ordering.eq_then]
  · rw [order_of_rank_ne h]
    cases Ord.compare a.rank b.rank <;> rfl

/-- Numbers of either kind are ordered as decimals. -/
theorem order_number {a b : Value} (ha : a.isNumeric) (hb : b.isNumeric) :
    a.order b = a.numeral.compare b.numeral := by
  cases a <;> cases ha <;> cases b <;> cases hb
  case integer.refl.integer.refl m n => exact (Decimal.compare_ofInt m n).symm
  all_goals rfl

theorem orderItems_eq_compareLex (as bs : List Value) :
    orderItems as bs = List.compareLex order as bs := by
  induction as generalizing bs with
  | nil => cases bs <;> rfl
  | cons a as ih =>
      cases bs with
      | nil => rfl
      | cons b bs => rw [orderItems, List.compareLex_cons_cons, ih]

/-- The order of two entries: by key, then by value. -/
def orderEntry (a b : String × Value) : Ordering :=
  (Ord.compare a.1 b.1).then (a.2.order b.2)

theorem orderEntries_eq_compareLex (as bs : List (String × Value)) :
    orderEntries as bs = List.compareLex orderEntry as bs := by
  induction as generalizing bs with
  | nil => cases bs <;> rfl
  | cons a as ih =>
      cases bs with
      | nil => rfl
      | cons b bs =>
          rw [orderEntries, List.compareLex_cons_cons, ih, orderEntry, Ordering.then_assoc]

/-- Arrays are ordered by the first item that differs, and then by length. -/
theorem order_array (as bs : List Value) :
    (array as).order (array bs) = List.compareLex order as bs := by
  rw [order, orderItems_eq_compareLex]

theorem order_dictionary (as bs : List (String × Value)) :
    (dictionary as).order (dictionary bs) = List.compareLex orderEntry as bs := by
  rw [order, orderEntries_eq_compareLex]

/-- Swapped values are ordered the other way round. -/
theorem order_swap (a b : Value) : a.order b = (b.order a).swap := by
  induction a using byMembers generalizing b with
  | step a ih =>
      by_cases hrank : a.rank = b.rank
      · cases sameKind_of_rank_eq hrank with
        | nil => rfl
        | bool a b => exact Std.OrientedOrd.eq_swap
        | string a b => exact Std.OrientedOrd.eq_swap
        | array as bs =>
            rw [order_array, order_array]
            exact compareLex_swap ih bs
        | dictionary as bs =>
            rw [order_dictionary, order_dictionary]
            -- Keys are compared as texts, so the induction is only needed for the values.
            refine compareLex_swap (fun a ha b => ?_) bs
            rw [orderEntry, orderEntry, Ordering.swap_then, ← Std.OrientedOrd.eq_swap,
              ← ih a.2 (List.mem_map_of_mem ha)]
        | range a b c d =>
            rw [order, order, Ordering.swap_then, ← Std.OrientedOrd.eq_swap,
              ← Std.OrientedOrd.eq_swap]
        | number ha hb => rw [order_number ha hb, order_number hb ha, Decimal.compare_swap]
      · -- Values of different ranks are never looked into.
        rw [order_of_rank_ne hrank, order_of_rank_ne (Ne.symm hrank), ← Std.OrientedOrd.eq_swap]

/-- The order of three values is coherent. -/
theorem order_coherent (a b c : Value) : Coherent (a.order b) (b.order c) (a.order c) := by
  induction a using byMembers generalizing b c with
  | step a ih =>
      have hrank := coherent_compare a.rank b.rank c.rank
      rw [order_eq_then a, order_eq_then b, order_eq_then a c]
      by_cases hsame : Ord.compare a.rank b.rank = .eq ∧ Ord.compare b.rank c.rank = .eq
      · refine hrank.append ?_
        have hab := compare_eq_iff_eq.mp hsame.1
        have hbc := compare_eq_iff_eq.mp hsame.2
        -- Only among three values of one kind is there anything left to decide.
        cases sameKind_of_rank_eq hab with
        | nil =>
            cases sameKind_of_rank_eq hbc with
            | nil => exact coherent_compare 0 0 0
            | number hb _ => cases hb
        | bool a b =>
            cases sameKind_of_rank_eq hbc with
            | bool _ c => exact coherent_compare a b c
            | number hb _ => cases hb
        | string a b =>
            cases sameKind_of_rank_eq hbc with
            | string _ c => exact coherent_compare a b c
            | number hb _ => cases hb
        | array as bs =>
            cases sameKind_of_rank_eq hbc with
            | array _ cs =>
                rw [order_array, order_array, order_array]
                exact compareLex_coherent ih bs cs
            | number hb _ => cases hb
        | dictionary as bs =>
            cases sameKind_of_rank_eq hbc with
            | dictionary _ cs =>
                rw [order_dictionary, order_dictionary, order_dictionary]
                refine compareLex_coherent (fun a ha b c => ?_) bs cs
                exact (coherent_compare a.1 b.1 c.1).append
                  (ih a.2 (List.mem_map_of_mem ha) b.2 c.2)
            | number hb _ => cases hb
        | range a a' b b' =>
            cases sameKind_of_rank_eq hbc with
            | range _ _ c c' =>
                rw [order, order, order]
                exact (coherent_compare a b c).append (coherent_compare a' b' c')
            | number hb _ => cases hb
        | number ha hb =>
            have hc := isNumeric_of_rank_eq hbc hb
            rw [order_number ha hb, order_number hb hc, order_number ha hc]
            exact Decimal.compare_coherent _ _ _
      · exact hrank.append_of_ne hsame

instance : Std.OrientedCmp compare where
  eq_swap := order_swap _ _

instance : Std.TransCmp compare where
  isLE_trans := (order_coherent _ _ _).isLE_trans

end Value

end Liquid
