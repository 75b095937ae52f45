import Liquid.Proofs.Value.Equality

/-!
# What Is Hashed

A set finds a member by its hash, so it takes equal values for one only if they
have one hash. A value is hashed by something built for that from numbers, texts,
tuples and sets: a number by itself as a decimal, and anything else by its kind
and its content, where members are hashed in the same way, and the entries of a
dictionary as a set. That a hash is the same for equal things of these kinds is
all that can be asked of it.

It is enough. What is hashed for equal values is equal, however deep they are
nested, because each member of the one goes with a member of the other. The
exception is the value that is no number, which is equal to itself among values
and not among decimals. So there may be none of it, not even inside.

## Main definitions

* `Hashed`: What is hashed.
* `Hashed.Same`: When that is equal.
* `Value.hashed`: What is hashed for a value.
* `Value.NaNFree`: Values without the one that is no number inside.

## Theorems

* `Value.same_hashed`: What is hashed for equal values is equal.
-/

namespace Liquid

/-- What is hashed for a value. -/
inductive Hashed
  | kind (rank : Nat)
  | none
  | bool (flag : Bool)
  | integer (number : Int)
  | number (number : Decimal)
  | text (text : String)
  | tuple (items : List Hashed)
  | set (items : List Hashed)

/-- Equality of what is hashed. -/
inductive Hashed.Same : Hashed → Hashed → Prop
  | kind (rank : Nat) : Same (.kind rank) (.kind rank)
  | none : Same .none .none
  | bool (flag : Bool) : Same (.bool flag) (.bool flag)
  | integer (number : Int) : Same (.integer number) (.integer number)
  /-- Numbers are equal by value, and what is no number is not equal to anything. -/
  | number {a b : Decimal} (ha : a ≠ .nan) (hsame : a.SameNumber b) : Same (.number a) (.number b)
  | text (text : String) : Same (.text text) (.text text)
  | tuple {as bs : List Hashed} (hitems : List.Forall₂ Same as bs) : Same (.tuple as) (.tuple bs)
  /-- Sets whose members match, once they are put in some order. -/
  | set {as as' bs bs' : List Hashed} (has : as.Perm as') (hbs : bs.Perm bs')
      (hitems : List.Forall₂ Same as' bs') : Same (.set as) (.set bs)

namespace Value

mutual

/-- What is hashed for a value: a number as a decimal, anything else with its kind. -/
def hashed : Value → Hashed
  | nil => .tuple [.kind nil.rank, .none]
  | bool flag => .tuple [.kind (bool flag).rank, .bool flag]
  | integer n => .number (.ofInt n)
  | decimal d => .number d
  | string s => .tuple [.kind (string s).rank, .text s]
  | array items => .tuple [.kind (array items).rank, .tuple (hashedItems items)]
  | dictionary entries => .tuple [.kind (dictionary entries).rank, .set (hashedEntries entries)]
  | range start stop =>
    .tuple [.kind (range start stop).rank, .tuple [.integer start, .integer stop]]

/-- What is hashed for the items of an array. -/
def hashedItems : List Value → List Hashed
  | [] => []
  | item :: items => item.hashed :: hashedItems items

/-- What is hashed for the entries of a dictionary. -/
def hashedEntries : List (String × Value) → List Hashed
  | [] => []
  | (key, item) :: entries => .tuple [.text key, item.hashed] :: hashedEntries entries

end

/-- Whether the value is not, and has not inside, however deep, the one that is no number. -/
inductive NaNFree : Value → Prop
  | step {v : Value} (hself : v ≠ .decimal .nan) (hmembers : ∀ item ∈ v.members, NaNFree item) :
      NaNFree v

section Hashed

variable {a b v : Value}

theorem NaNFree.ne (h : v.NaNFree) : v ≠ .decimal .nan := by
  cases h with
  | step hself _ => exact hself

/-- What is inside of a value without NaN is without NaN. -/
theorem NaNFree.item {item : Value} (h : v.NaNFree) (hmem : item ∈ v.members) : item.NaNFree := by
  cases h with
  | step _ hmembers => exact hmembers item hmem

theorem nanFree_of_members_eq_nil (hself : v ≠ .decimal .nan) (h : v.members = []) : v.NaNFree :=
  .step hself (by simp [h])

theorem nanFree_nil : nil.NaNFree :=
  nanFree_of_members_eq_nil (by simp) rfl

theorem nanFree_integer (n : Int) : (integer n).NaNFree :=
  nanFree_of_members_eq_nil (by simp) rfl

theorem hashedItems_eq_map (items : List Value) : hashedItems items = items.map hashed := by
  induction items with
  | nil => rfl
  | cons item items ih => rw [hashedItems, ih, List.map_cons]

/-- What is hashed for an entry of a dictionary. -/
def hashedEntry (entry : String × Value) : Hashed :=
  .tuple [.text entry.1, entry.2.hashed]

theorem hashedEntries_eq_map (entries : List (String × Value)) :
    hashedEntries entries = entries.map hashedEntry := by
  induction entries with
  | nil => rfl
  | cons entry entries ih =>
      rcases entry with ⟨key, item⟩
      rw [hashedEntries, ih, List.map_cons]
      rfl

/-- A number is hashed as the decimal that it is. -/
theorem hashed_number (h : a.isNumeric) : a.hashed = .number a.numeral := by
  cases a <;> cases h <;> rfl

/-- Keys of the same kind are the same if what they hold is. -/
theorem same_kinded {key key' : Hashed} (hrank : a.rank = b.rank) (hkey : key.Same key') :
    (Hashed.tuple [.kind a.rank, key]).Same (.tuple [.kind b.rank, key']) := by
  rw [hrank]
  exact .tuple (.cons (.kind _) (.cons hkey .nil))

/-- What is hashed for equal values is equal. -/
theorem same_hashed (ha : a.NaNFree) (h : a.compare b = .eq) : a.hashed.Same b.hashed := by
  induction a using byMembers generalizing b with
  | step a ih =>
      -- Equal values are of one kind, or both are numbers.
      have hrank : a.rank = b.rank := by
        by_contra hne
        exact compare_of_rank_ne hne h
      cases sameKind_of_rank_eq hrank with
      | nil => exact same_kinded rfl .none
      | bool a b =>
          have heq : a = b := Std.LawfulEqOrd.compare_eq_iff_eq.mp h
          exact heq ▸ same_kinded rfl (.bool a)
      | string a b =>
          have heq : a = b := Std.LawfulEqOrd.compare_eq_iff_eq.mp h
          exact heq ▸ same_kinded rfl (.text a)
      | range a b c d =>
          have heq := Ordering.then_eq_eq.mp h
          have hstart : a = c := compare_eq_iff_eq.mp heq.1
          have hstop : b = d := compare_eq_iff_eq.mp heq.2
          exact hstart ▸ hstop ▸ same_kinded rfl
            (.tuple (.cons (.integer a) (.cons (.integer b) .nil)))
      | array as bs =>
          rcases List.forall₂_iff_zip.mp ((compare_array_eq_eq_iff as bs).mp h) with ⟨hlength, hzip⟩
          refine same_kinded rfl (.tuple ?_)
          rw [hashedItems_eq_map, hashedItems_eq_map, List.forall₂_map_left_iff,
            List.forall₂_map_right_iff, List.forall₂_iff_zip]
          refine ⟨hlength, fun hmem => ?_⟩
          have hitem := (List.of_mem_zip hmem).1
          exact ih _ hitem (ha.item hitem) (hzip hmem)
      | dictionary as bs =>
          rcases List.forall₂_iff_zip.mp ((compare_dictionary_eq_eq_iff as bs).mp h) with
            ⟨hlength, hzip⟩
          refine same_kinded rfl ?_
          rw [hashedEntries_eq_map, hashedEntries_eq_map]
          -- The entries of either match once they are sorted, and a set has no order.
          refine .set ((sortedByKey_perm as).symm.map _) ((sortedByKey_perm bs).symm.map _) ?_
          rw [List.forall₂_map_left_iff, List.forall₂_map_right_iff, List.forall₂_iff_zip]
          refine ⟨hlength, fun {a b} hmem => ?_⟩
          rcases hzip hmem with ⟨hkey, hitem⟩
          have hentry : a.2 ∈ (dictionary as).members :=
            List.mem_map_of_mem (List.mem_mergeSort.mp (List.of_mem_zip hmem).1)
          unfold hashedEntry
          rw [hkey]
          exact .tuple (.cons (.text _) (.cons (ih _ hentry (ha.item hentry) hitem) .nil))
      | number hnumeric hnumeric' =>
          rw [compare_number hnumeric hnumeric', Decimal.compare_eq_eq_iff] at h
          rw [hashed_number hnumeric, hashed_number hnumeric']
          -- Here, and nowhere else, it matters that the value is a number.
          refine .number (fun hnan => ?_) h
          cases a <;> cases hnumeric
          · cases hnan
          · exact ha.ne (congrArg decimal hnan)

end Hashed

end Value

end Liquid
