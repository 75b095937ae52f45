import Mathlib.Data.List.Basic

/-!
# Stable Sorting

What a sort does that leaves equal members in their order: it gives a
permutation that is in order, and in which the members that are equal to any one
stand as they stood before. There is one such list only, so this says all about
a sort. A list that is sorted already is not changed, and neither does it matter
how the members stood before that are not equal.

## Main definitions

* `StablySorted`: What becomes of a list that is sorted.

## Theorems

* `StablySorted.unique`: It is determined by the members and by the order of the
  equal ones.
* `stablySorted_mergeSort`: Merging is stable.
* `filter_eq_of_distinct`: Members of which no two are equal may stand in any
  order.
-/

namespace Liquid

/-- Whether the second list is the first one sorted, with equal members in their order. -/
structure StablySorted {α : Type} (cmp : α → α → Ordering) (before after : List α) : Prop where
  perm : after.Perm before
  ordered : after.Pairwise fun a b => (cmp a b).isLE
  stable : ∀ a, after.filter (fun b => cmp b a == .eq) = before.filter fun b => cmp b a == .eq

section StablySorted

variable {α : Type} {cmp : α → α → Ordering} [Std.TransCmp cmp]

/-- Lists in order that have the same members, and equal ones in the same order, are the same. -/
theorem eq_of_ordered {as bs : List α} (has : as.Pairwise fun a b => (cmp a b).isLE)
    (hbs : bs.Pairwise fun a b => (cmp a b).isLE) (hperm : as.Perm bs)
    (hstable : ∀ a, as.filter (fun b => cmp b a == .eq) = bs.filter fun b => cmp b a == .eq) :
    as = bs := by
  induction as generalizing bs with
  | nil => exact hperm.nil_eq
  | cons a as ih =>
      cases bs with
      | nil => exact absurd hperm.length_eq (by simp)
      | cons b bs =>
          have hself (c : α) : cmp c c = .eq := Std.ReflCmp.compare_self
          -- Either of the two first members is no greater than the other one.
          have hle : (cmp a b).isLE := by
            rcases List.mem_cons.mp (hperm.mem_iff.mpr List.mem_cons_self) with rfl | hb
            · rw [hself]
              rfl
            · exact List.rel_of_pairwise_cons has hb
          have hge : (cmp b a).isLE := by
            rcases List.mem_cons.mp (hperm.mem_iff.mp List.mem_cons_self) with rfl | ha
            · rw [hself]
              rfl
            · exact List.rel_of_pairwise_cons hbs ha
          have heq : cmp b a = .eq := Std.OrientedCmp.isLE_antisymm hge hle
          have hfirst := hstable a
          rw [List.filter_cons_of_pos (by simp [hself]), List.filter_cons_of_pos (by simp [heq])]
            at hfirst
          rcases List.cons.inj hfirst with ⟨rfl, -⟩
          refine congrArg _ (ih has.of_cons hbs.of_cons hperm.cons_inv fun c => ?_)
          have hrest := hstable c
          by_cases hc : cmp a c = .eq
          · rw [List.filter_cons_of_pos (by simpa using hc),
              List.filter_cons_of_pos (by simpa using hc)] at hrest
            exact (List.cons.inj hrest).2
          · rwa [List.filter_cons_of_neg (by simpa using hc),
              List.filter_cons_of_neg (by simpa using hc)] at hrest

/-- There is one way to sort lists of the same members in which equal ones have the same order. -/
theorem StablySorted.unique {before before' after after' : List α}
    (h : StablySorted cmp before after) (h' : StablySorted cmp before' after')
    (hperm : before.Perm before')
    (hstable : ∀ a,
      before.filter (fun b => cmp b a == .eq) = before'.filter fun b => cmp b a == .eq) :
    after = after' := by
  refine eq_of_ordered h.ordered h'.ordered ?_ fun a => ?_
  · exact h.perm.trans (hperm.trans h'.perm.symm)
  · rw [h.stable, h'.stable, hstable]

/-- Sorting by merging is stable. -/
theorem stablySorted_mergeSort (items : List α) :
    StablySorted cmp items (items.mergeSort fun a b => (cmp a b).isLE) := by
  have htrans (a b c : α) (hab : (cmp a b).isLE = true) (hbc : (cmp b c).isLE = true) :
      (cmp a c).isLE = true := Std.TransCmp.isLE_trans hab hbc
  have htotal (a b : α) : ((cmp a b).isLE || (cmp b a).isLE) = true := by
    have hswap : cmp b a = (cmp a b).swap := Std.OrientedCmp.eq_swap
    rw [hswap]
    cases cmp a b <;> rfl
  have hperm := List.mergeSort_perm items fun a b => (cmp a b).isLE
  refine ⟨hperm, List.pairwise_mergeSort htrans htotal items, fun a => ?_⟩
  -- The members that are equal to one are in order as they stand, and so they are left alone.
  have hordered : (items.filter fun b => cmp b a == .eq).Pairwise fun b c => (cmp b c).isLE := by
    refine List.pairwise_of_forall_mem_list fun b hb c hc => ?_
    have hba : cmp b a = .eq := by simpa using (List.mem_filter.mp hb).2
    have hca : cmp c a = .eq := by simpa using (List.mem_filter.mp hc).2
    rw [Std.TransCmp.congr_left hba, Std.OrientedCmp.eq_comm.mp hca]
    rfl
  have hsublist := (List.sublist_mergeSort htrans htotal hordered List.filter_sublist).filter
    fun b => cmp b a == .eq
  rw [List.filter_filter] at hsublist
  simp only [Bool.and_self] at hsublist
  exact (hsublist.eq_of_length (hperm.filter _).length_eq.symm).symm

/-- Where no two members are equal, any permutation has equal members in the same order. -/
theorem filter_eq_of_distinct {as bs : List α} (h : as.Pairwise fun a b => cmp a b ≠ .eq)
    (hperm : bs.Perm as) (a : α) :
    bs.filter (fun b => cmp b a == .eq) = as.filter fun b => cmp b a == .eq := by
  have hfilter := hperm.filter fun b => cmp b a == .eq
  have hdistinct := h.filter fun b => cmp b a == .eq
  have hequal (b : α) (hb : b ∈ as.filter fun b => cmp b a == .eq) : cmp b a = .eq := by
    simpa using (List.mem_filter.mp hb).2
  -- At most one element of the list is equal to a given one.
  generalize as.filter (fun b => cmp b a == .eq) = cs at hfilter hdistinct hequal ⊢
  rcases cs with _ | ⟨b, _ | ⟨c, cs⟩⟩
  · exact hfilter.eq_nil
  · exact List.perm_singleton.mp hfilter
  · -- Two of them would be equal to each other.
    have hb := hequal b List.mem_cons_self
    have hc := hequal c (List.mem_cons_of_mem b List.mem_cons_self)
    have hne := List.rel_of_pairwise_cons hdistinct List.mem_cons_self
    rw [Std.TransCmp.congr_left hb, Std.OrientedCmp.eq_comm.mp hc] at hne
    exact absurd rfl hne

end StablySorted

end Liquid
