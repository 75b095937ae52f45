import Liquid.Noted
import Mathlib.Data.List.Forall2

/-!
# Where Results Come From

What a step that has given a result has gone through. Each theorem is about one
way of putting steps together, and lets a proof take a successful run apart
from its end. The same is said of faults: one of the steps was the first to
fail.

## Main definitions

* `fault?`: The fault of a result.
* `Matched`: Results that are alike.

## Theorems

* `bind_eq_ok_iff`, `map_eq_ok_iff`, `mapError_eq_ok_iff`,
  `toOption_eq_some_iff`, `mapM_eq_ok_iff`: Where a result comes from.
* `bind_eq_error_iff`, `map_eq_error_iff`, `mapError_eq_error_iff`,
  `fault?_eq_some_iff`, `foldlM_eq_error_iff`, `mapM_eq_error`: Where a fault
  comes from.
* `mapM_eq_none_iff`: Where it comes from that a list of steps gives nothing.
* `filterM_of_ok`, `filterM_of_error`: What is kept of the members of a list.
* `bind_congr_of_ok`: What is done with a result matters on that result only.
* `toOption_bind`: The result of two steps, without the fault.
* `Matched.bind`: Alike results stay alike when each is gone on with.
* `Noted.bind_result_eq_ok_iff`, `Noted.bind_result_eq_error_iff`: Where a result
  and a fault with remarks come from.
-/

namespace Liquid

section Except

variable {ε ε' α β : Type} {result : Except ε α}

/-- Two steps succeed if the first does and the second does with its result. -/
theorem bind_eq_ok_iff {next : α → Except ε β} {b : β} :
    (result >>= next) = .ok b ↔ ∃ a, result = .ok a ∧ next a = .ok b := by
  cases result with
  | error fault => simp [bind, Except.bind]
  | ok a => simp [bind, Except.bind]

/-- Two ways to go on from one result agree if they agree on it. -/
theorem bind_congr_of_ok {other : Except ε α} {next next' : α → Except ε β} (h : result = other)
    (hnext : ∀ a, result = .ok a → next a = next' a) : (result >>= next) = (other >>= next') := by
  subst h
  cases result with
  | error fault => rfl
  | ok a => exact hnext a rfl

/-- A mapped result succeeds with the image of a result. -/
theorem map_eq_ok_iff {f : α → β} {b : β} :
    result.map f = .ok b ↔ ∃ a, result = .ok a ∧ f a = b := by
  cases result with
  | error fault => simp [Except.map]
  | ok a => simp [Except.map]

/-- Two steps fail if either does. -/
theorem bind_eq_error_iff {next : α → Except ε β} {e : ε} :
    (result >>= next) = .error e ↔ result = .error e ∨ ∃ a, result = .ok a ∧ next a = .error e := by
  cases result with
  | error fault => simp [bind, Except.bind]
  | ok a => simp [bind, Except.bind]

theorem map_eq_error_iff {f : α → β} {e : ε} : result.map f = .error e ↔ result = .error e := by
  cases result with
  | error fault => simp [Except.map]
  | ok a => simp [Except.map]

theorem mapError_eq_ok_iff {f : ε → ε'} {a : α} : result.mapError f = .ok a ↔ result = .ok a := by
  cases result with
  | error fault => exact ⟨fun h => (nomatch h), fun h => (nomatch h)⟩
  | ok b => exact ⟨fun h => congrArg _ (Except.ok.inj h), fun h => congrArg _ (Except.ok.inj h)⟩

/-- A fault is mapped, and never made up. -/
theorem mapError_eq_error_iff {f : ε → ε'} {e : ε'} :
    result.mapError f = .error e ↔ ∃ fault, result = .error fault ∧ f fault = e := by
  cases result with
  | error fault =>
      constructor
      · intro h
        exact ⟨fault, rfl, Except.error.inj h⟩
      · rintro ⟨_, h, rfl⟩
        cases h
        rfl
  | ok a =>
      constructor
      · intro h
        cases h
      · rintro ⟨_, h, _⟩
        cases h

theorem toOption_eq_some_iff {a : α} : result.toOption = some a ↔ result = .ok a := by
  cases result with
  | error fault => exact ⟨fun h => (nomatch h), fun h => (nomatch h)⟩
  | ok b => exact ⟨fun h => congrArg _ (Option.some.inj h), fun h => congrArg _ (Except.ok.inj h)⟩

theorem toOption_bind {next : α → Except ε β} :
    (result >>= next).toOption = result.toOption.bind fun a => (next a).toOption := by
  cases result <;> rfl

/-- The fault of a result, if it has one. -/
def fault? : Except ε α → Option ε
  | .ok _ => none
  | .error e => some e

theorem fault?_eq_some_iff {e : ε} : fault? result = some e ↔ result = .error e := by
  cases result with
  | error fault => simp [fault?]
  | ok a => simp [fault?]

/-- Steps on the members of a list fail at one of them, when those before it have been taken. -/
theorem foldlM_eq_error_iff {step : β → α → Except ε β} {start : β} {items : List α} {e : ε} :
    items.foldlM step start = .error e ↔
      ∃ before item after reached, items = before ++ item :: after ∧
        before.foldlM step start = .ok reached ∧ step reached item = .error e := by
  constructor
  · intro h
    -- On the items: the first of them fails, or one of the others from the state it leads to.
    induction items generalizing start with
    | nil => cases h
    | cons item items ih =>
        rw [List.foldlM_cons] at h
        rcases bind_eq_error_iff.mp h with hitem | ⟨next, hitem, h⟩
        · exact ⟨[], item, items, start, rfl, rfl, hitem⟩
        · rcases ih h with ⟨before, last, after, reached, rfl, hbefore, hlast⟩
          refine ⟨item :: before, last, after, reached, rfl, ?_, hlast⟩
          rw [List.foldlM_cons, hitem]
          exact hbefore
  · rintro ⟨before, item, after, reached, rfl, hbefore, hitem⟩
    rw [List.foldlM_append, hbefore]
    exact bind_eq_error_iff.mpr (.inr ⟨reached, rfl, bind_eq_error_iff.mpr (.inl hitem)⟩)

/-- A step on each member of a list gives the list of what the steps give. -/
theorem mapM_eq_ok_iff {step : α → Except ε β} {items : List α} {results : List β} :
    items.mapM step = .ok results ↔
      List.Forall₂ (fun item result => step item = .ok result) items results := by
  -- On the items, each with its own result.
  induction items generalizing results with
  | nil =>
      rw [List.mapM_nil, List.forall₂_nil_left_iff]
      exact ⟨fun h => (Except.ok.inj h).symm, fun h => congrArg _ h.symm⟩
  | cons item items ih =>
      rw [List.mapM_cons, List.forall₂_cons_left_iff, bind_eq_ok_iff]
      constructor
      · rintro ⟨result, hresult, hrest⟩
        rcases bind_eq_ok_iff.mp hrest with ⟨rest, hrest, hall⟩
        exact ⟨result, rest, hresult, ih.mp hrest, (Except.ok.inj hall).symm⟩
      · rintro ⟨result, rest, hresult, hrest, rfl⟩
        exact ⟨result, hresult, bind_eq_ok_iff.mpr ⟨rest, ih.mpr hrest, rfl⟩⟩

/-- Where it fails, the step fails on a member, and it gives a result for each one before. -/
theorem mapM_eq_error {step : α → Except ε β} {items : List α} {e : ε}
    (h : items.mapM step = .error e) :
    ∃ before item after results, items = before ++ item :: after ∧
      before.mapM step = .ok results ∧ step item = .error e := by
  induction items with
  | nil => cases h
  | cons item items ih =>
      rw [List.mapM_cons] at h
      rcases bind_eq_error_iff.mp h with hitem | ⟨result, hresult, h⟩
      · exact ⟨[], item, items, [], rfl, rfl, hitem⟩
      -- Collecting the results does not fail, so one of the later steps does.
      · rcases bind_eq_error_iff.mp h with hrest | ⟨rest, -, h⟩
        · rcases ih hrest with ⟨before, last, after, results, rfl, hbefore, hlast⟩
          refine ⟨item :: before, last, after, result :: results, rfl, ?_, hlast⟩
          rw [List.mapM_cons, hresult, hbefore]
          rfl
        · cases h

/-- The members that the step keeps, each of them made from an entry that tells whether it is kept,
and what is done with the rest. -/
theorem filterAuxM_append {step : α → Except ε Bool} {f : β → α} {p : β → Bool} {entries : List β}
    (h : ∀ entry ∈ entries, step (f entry) = .ok (p entry)) (rest kept : List α) :
    (entries.map f ++ rest).filterAuxM step kept =
      rest.filterAuxM step (((entries.filter p).map f).reverse ++ kept) := by
  -- On the entries: what is kept is collected in reverse.
  induction entries generalizing kept with
  | nil => rfl
  | cons entry entries ih =>
      have hrest := ih fun other hother => h other (List.mem_cons_of_mem entry hother)
      rw [List.map_cons, List.cons_append, List.filterAuxM, h entry List.mem_cons_self]
      refine (hrest _).trans ?_
      cases hentry : p entry with
      | false => rw [List.filter_cons_of_neg (by simp [hentry]), cond_false]
      | true => rw [List.filter_cons_of_pos hentry, cond_true, List.map_cons, List.reverse_cons,
          List.append_assoc, List.singleton_append]

/-- A filter whose test never fails keeps what the test accepts. -/
theorem filterM_of_ok {step : α → Except ε Bool} {f : β → α} {p : β → Bool} {entries : List β}
    (h : ∀ entry ∈ entries, step (f entry) = .ok (p entry)) :
    (entries.map f).filterM step = .ok ((entries.filter p).map f) := by
  have hall := filterAuxM_append h [] []
  rw [List.append_nil, List.append_nil] at hall
  rw [List.filterM, hall]
  exact congrArg Except.ok (List.reverse_reverse _)

/-- A filter stops at the first test that fails. -/
theorem filterM_of_error {step : α → Except ε Bool} {f : β → α} {p : β → Bool} {entries : List β}
    {item : α} {after : List α} {e : ε} (h : ∀ entry ∈ entries, step (f entry) = .ok (p entry))
    (hitem : step item = .error e) : (entries.map f ++ item :: after).filterM step = .error e := by
  rw [List.filterM, filterAuxM_append h, List.filterAuxM, hitem]
  rfl

end Except

/-- A step that may give nothing gives nothing on the whole if it does so on a member. -/
theorem mapM_eq_none_iff {α β : Type} {step : α → Option β} {items : List α} :
    items.mapM step = none ↔ ∃ item ∈ items, step item = none := by
  induction items with
  | nil => simp
  | cons item items ih =>
      rw [List.mapM_cons, List.exists_mem_cons_iff, ← ih]
      cases step item with
      | none => simp
      | some result => cases items.mapM step <;> simp

/-- Two results that are alike: values that are related, or the same fault. -/
inductive Matched {ε α β : Type} (R : α → β → Prop) : Except ε α → Except ε β → Prop
  | ok {a : α} {b : β} (h : R a b) : Matched R (.ok a) (.ok b)
  | error (fault : ε) : Matched R (.error fault) (.error fault)

namespace Matched

variable {ε ε' α β α' β' : Type} {R : α → β → Prop} {S : α' → β' → Prop}
  {result : Except ε α} {result' : Except ε β}

theorem bind (h : Matched R result result') {next : α → Except ε α'} {next' : β → Except ε β'}
    (hnext : ∀ a b, R a b → Matched S (next a) (next' b)) :
    Matched S (result >>= next) (result' >>= next') := by
  cases h with
  | ok h => exact hnext _ _ h
  | error fault => exact .error fault

theorem mapError (h : Matched R result result') (f : ε → ε') :
    Matched R (result.mapError f) (result'.mapError f) := by
  cases h with
  | ok h => exact .ok h
  | error fault => exact .error (f fault)

end Matched

namespace Noted

variable {ε α β : Type} {x : Noted ε α} {f : α → Noted ε β}

/-- Two noted steps succeed if the first does and the second does with its result. -/
theorem bind_result_eq_ok_iff {b : β} :
    (x >>= f).result = .ok b ↔ ∃ a, x.result = .ok a ∧ (f a).result = .ok b := by
  change (Noted.bind x f).result = .ok b ↔ _
  unfold Noted.bind
  cases x.result <;> simp

/-- Two noted steps fail if either does. -/
theorem bind_result_eq_error_iff {e : ε} :
    (x >>= f).result = .error e ↔
      x.result = .error e ∨ ∃ a, x.result = .ok a ∧ (f a).result = .error e := by
  change (Noted.bind x f).result = .error e ↔ _
  unfold Noted.bind
  cases x.result with
  | error fault => simp
  | ok a => simp

end Noted

end Liquid
