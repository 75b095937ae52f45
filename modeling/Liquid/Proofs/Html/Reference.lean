import Liquid.Html.Escape
import Mathlib.Data.List.TakeWhile

/-!
# Character References

How a character reference is written: by a name, or by the number of the
character in decimal or hexadecimal, always with a semicolon behind it. All of
these are letters and digits, so the semicolon is where the run of them ends, and
a reader that takes as many as it can finds it there.

Only ASCII digits write a number in HTML. The reader used for escaping takes the
decimal digits of every script, so what counts as a digit is left open here.

## Main definitions

* `Html.Reference`: What stands behind the ampersand of a reference.

## Theorems

* `Html.beginsReference_iff`: The reader finds the references with digits of any
  script.
* `Html.Reference.reserved?_eq_none`: No reference has a reserved character in it.
-/

namespace Liquid

namespace Html

/-- What stands behind the ampersand of a complete reference, if these are the decimal digits. -/
inductive Reference (IsDigit : Char → Prop) : List Char → Prop
  | named {c : Char} {cs : List Char} : c.isAlpha = true → (∀ d ∈ cs, d.isAlphanum = true) →
      Reference IsDigit (c :: (cs ++ [';']))
  | decimal {ds : List Char} : ds ≠ [] → (∀ d ∈ ds, IsDigit d) →
      Reference IsDigit ('#' :: (ds ++ [';']))
  | hexadecimal {x : Char} {ds : List Char} : x = 'x' ∨ x = 'X' → ds ≠ [] →
      (∀ d ∈ ds, isHexDigit d = true) → Reference IsDigit ('#' :: x :: (ds ++ [';']))

section Runs

variable {kind : Char → Bool} {cs : List Char}

/-- A run up to a semicolon is read to its end, since the semicolon is not of its kind. -/
theorem runToSemicolon_iff (hend : kind ';' = false) :
    runToSemicolon kind cs = true ↔
      ∃ run, run ≠ [] ∧ (∀ c ∈ run, kind c = true) ∧ run ++ [';'] <+: cs := by
  unfold runToSemicolon
  rw [Bool.and_eq_true, Bool.not_eq_true', List.isEmpty_eq_false_iff, beq_iff_eq]
  constructor
  · rintro ⟨hne, hsemicolon⟩
    rcases List.head?_eq_some_iff.mp hsemicolon with ⟨rest, hrest⟩
    refine ⟨cs.takeWhile kind, hne, fun c hc => (List.mem_takeWhile_imp hc), rest, ?_⟩
    rw [List.append_assoc, List.singleton_append, ← hrest, List.takeWhile_append_dropWhile]
  · rintro ⟨run, hne, hrun, rest, rfl⟩
    -- The run ends at the semicolon, which is not of its kind.
    have htake : (run ++ [';'] ++ rest).takeWhile kind = run := by
      rw [List.append_assoc, List.takeWhile_append_of_pos hrun, List.singleton_append,
        List.takeWhile_cons_of_neg (by rw [hend]; exact Bool.false_ne_true), List.append_nil]
    have hdrop : (run ++ [';'] ++ rest).dropWhile kind = ';' :: rest := by
      rw [List.append_assoc, List.dropWhile_append_of_pos hrun, List.singleton_append,
        List.dropWhile_cons_of_neg (by rw [hend]; exact Bool.false_ne_true)]
    rw [htake, hdrop]
    exact ⟨hne, rfl⟩

end Runs

section Reader

variable {cs : List Char}

/-- The reader finds a reference where one begins. -/
theorem exists_of_beginsReference (h : beginsReference cs = true) :
    ∃ body, Reference (fun d => Text.isDigit d = true) body ∧ body <+: cs := by
  unfold beginsReference at h
  split at h
  · rw [Bool.or_eq_true, Bool.and_eq_true, Bool.or_eq_true, beq_iff_eq, beq_iff_eq] at h
    rcases h with h | ⟨hx, h⟩
    · rcases (runToSemicolon_iff rfl).mp h with ⟨run, hne, hrun, hhead⟩
      exact ⟨_, .decimal hne hrun, List.cons_prefix_cons.mpr ⟨rfl, hhead⟩⟩
    · rcases (runToSemicolon_iff rfl).mp h with ⟨run, hne, hrun, hhead⟩
      refine ⟨_, .hexadecimal hx hne hrun, List.cons_prefix_cons.mpr ⟨rfl, ?_⟩⟩
      exact List.cons_prefix_cons.mpr ⟨rfl, hhead⟩
  · next c cs _ =>
    rcases Bool.and_eq_true_iff.mp h with ⟨hc, h⟩
    rcases (runToSemicolon_iff rfl).mp h with ⟨run, hne, hrun, hhead⟩
    cases run with
    | nil => exact absurd rfl hne
    | cons d run =>
        -- The run starts with the letter that has been seen.
        rcases List.cons_prefix_cons.mp hhead with ⟨rfl, hrest⟩
        exact ⟨_, .named hc fun c hmem => hrun c (List.mem_cons_of_mem d hmem), hhead⟩
  · cases h

/-- What starts with a reference is seen to do so, by its kind. -/
theorem beginsReference_of_reference {body : List Char}
    (h : Reference (fun d => Text.isDigit d = true) body) (hhead : body <+: cs) :
    beginsReference cs = true := by
  rcases hhead with ⟨rest, rfl⟩
  -- By the kind of the reference; each runs up to its semicolon.
  cases h with
  | @named c cs hc hcs =>
      have hne : c ≠ '#' := by
        rintro rfl
        cases hc
      have hrun : runToSemicolon Char.isAlphanum (c :: (cs ++ [';']) ++ rest) = true := by
        refine (runToSemicolon_iff rfl).mpr ⟨c :: cs, List.cons_ne_nil c cs, ?_, rest, rfl⟩
        intro d hd
        rcases List.mem_cons.mp hd with rfl | hd
        · simp [Char.isAlphanum, hc]
        · exact hcs d hd
      rw [List.cons_append, beginsReference.eq_2 _ _ fun _ _ h _ => hne h, hc]
      exact hrun
  | @decimal ds hne hds =>
      have hrun : runToSemicolon Text.isDigit (ds ++ [';'] ++ rest) = true :=
        (runToSemicolon_iff rfl).mpr ⟨ds, hne, hds, rest, rfl⟩
      cases ds with
      | nil => exact absurd rfl hne
      | cons d ds => exact Bool.or_eq_true_iff.mpr (.inl hrun)
  | @hexadecimal x ds hx hne hds =>
      have hrun : runToSemicolon isHexDigit (ds ++ [';'] ++ rest) = true :=
        (runToSemicolon_iff rfl).mpr ⟨ds, hne, hds, rest, rfl⟩
      refine Bool.or_eq_true_iff.mpr (.inr (Bool.and_eq_true_iff.mpr ⟨?_, hrun⟩))
      simpa using hx

/-- To begin a reference is to have one in front. -/
theorem beginsReference_iff :
    beginsReference cs = true ↔
      ∃ body, Reference (fun d => Text.isDigit d = true) body ∧ body <+: cs :=
  ⟨exists_of_beginsReference, fun ⟨_, hbody, hhead⟩ => beginsReference_of_reference hbody hhead⟩

end Reader

section Reserved

variable {c : Char} {body : List Char}

theorem reserved?_eq_none_iff : reserved? c = none ↔ c ∉ ['&', '<', '>', '"', '\''] := by
  unfold reserved?
  split <;> simp_all

/-- A kind of character that no reserved one has is not reserved. -/
theorem reserved?_eq_none_of_kind {kind : Char → Bool}
    (hkind : ['&', '<', '>', '"', '\''].any kind = false) (hc : kind c = true) :
    reserved? c = none := by
  rw [reserved?_eq_none_iff]
  intro hmem
  exact List.any_eq_false.mp hkind c hmem hc

/-- Escaping leaves what is between an ampersand and its semicolon as it is. -/
theorem Reference.reserved?_eq_none (h : Reference (fun d => Text.isDigit d = true) body) :
    ∀ c ∈ body, reserved? c = none := by
  -- A run of one kind and the semicolon behind it.
  have hrun {kind : Char → Bool} (hkind : ['&', '<', '>', '"', '\''].any kind = false)
      {run : List Char} (h : ∀ c ∈ run, kind c = true) :
      ∀ c ∈ run ++ [';'], reserved? c = none := by
    intro c hc
    rcases List.mem_append.mp hc with hc | hc
    · exact reserved?_eq_none_of_kind hkind (h c hc)
    · rw [List.mem_singleton.mp hc]
      rfl
  cases h with
  | named hc hcs =>
      refine List.forall_mem_cons.mpr ⟨?_, hrun rfl hcs⟩
      exact reserved?_eq_none_of_kind rfl hc
  | decimal _ hds => exact List.forall_mem_cons.mpr ⟨rfl, hrun rfl hds⟩
  | hexadecimal hx _ hds =>
      refine List.forall_mem_cons.mpr ⟨rfl, List.forall_mem_cons.mpr ⟨?_, hrun rfl hds⟩⟩
      rcases hx with rfl | rfl <;> rfl

end Reserved

end Html

end Liquid
