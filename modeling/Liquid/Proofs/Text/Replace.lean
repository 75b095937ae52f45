import Liquid.Proofs.Text.Search

/-!
# Occurrences and their Replacement

A text may occur in another at several offsets, and the occurrences may overlap.
The two cuts are at the least and at the greatest of the offsets. Reversing both
texts turns the offsets round, and so what is put in the place of the last
occurrence is put, in the reversed text, in the place of the first.

If there is only one offset the cuts are one cut. Replacing all occurrences goes
on behind the first one and finds nothing there, since whatever it found would
be at another offset. If there is none nothing is replaced.

## Main definitions

* `Text.OccursAt`: The offsets at which a text occurs in another.

## Theorems

* `Text.le_of_cut?`, `Text.le_of_cutLast?`: The cuts are at the least and at the
  greatest offset.
* `Text.replaceLast_eq_reverse`: Replacing the last occurrence is replacing the
  first one in the reversed text.
* `Text.replaceAll_eq_replaceFirst`, `Text.replaceLast_eq_replaceFirst`: A single
  occurrence is replaced in one way.
-/

namespace Liquid

namespace Text

variable {needle text before after : List Char}

/-- Whether a text occurs in another behind so many characters. -/
def OccursAt (needle text : List Char) (offset : Nat) : Prop :=
  ∃ before after, text = before ++ (needle ++ after) ∧ before.length = offset

section Offset

theorem occursAt_append (before needle after : List Char) :
    OccursAt needle (before ++ (needle ++ after)) before.length :=
  ⟨before, after, rfl, rfl⟩

/-- An occurrence is a prefix of what is left behind its offset. -/
theorem occursAt_iff_prefix {offset : Nat} :
    OccursAt needle text offset ↔ offset ≤ text.length ∧ needle <+: text.drop offset := by
  constructor
  · rintro ⟨before, after, rfl, rfl⟩
    rw [List.drop_left]
    exact ⟨by simp, after, rfl⟩
  · rintro ⟨hle, after, hafter⟩
    refine ⟨text.take offset, after, ?_, List.length_take_of_le hle⟩
    rw [hafter, List.take_append_drop]

instance (needle text : List Char) (offset : Nat) : Decidable (OccursAt needle text offset) :=
  decidable_of_iff _ occursAt_iff_prefix.symm

/-- To occur at some offset is to be a part. -/
theorem exists_occursAt_iff : (∃ offset, OccursAt needle text offset) ↔ needle <:+: text := by
  constructor
  · rintro ⟨_, before, after, rfl, -⟩
    exact ⟨before, after, List.append_assoc ..⟩
  · rintro ⟨before, after, rfl⟩
    rw [List.append_assoc]
    exact ⟨_, occursAt_append before needle after⟩

/-- A text occurs in another at the front, or behind its first character. -/
theorem OccursAt.cases_cons {c : Char} {cs : List Char} {offset : Nat}
    (h : OccursAt needle (c :: cs) offset) :
    (offset = 0 ∧ needle <+: c :: cs) ∨ ∃ offset', offset = offset' + 1 ∧
      OccursAt needle cs offset' := by
  rcases h with ⟨before, after, heq, rfl⟩
  cases before with
  | nil => exact .inl ⟨rfl, after, heq.symm⟩
  | cons d before =>
      rcases List.cons.inj heq with ⟨-, rfl⟩
      exact .inr ⟨before.length, rfl, occursAt_append before needle after⟩

/-- The offset of an occurrence tells what is before it and what is behind it. -/
theorem parts_of_length_eq {first rest : List Char}
    (h : before ++ (needle ++ after) = first ++ (needle ++ rest))
    (hlength : before.length = first.length) : before = first ∧ after = rest := by
  rcases List.append_inj h hlength with ⟨hbefore, hbehind⟩
  exact ⟨hbefore, List.append_cancel_left hbehind⟩

/-- An occurrence is one in the mirrored text, at the offset from the end. -/
theorem OccursAt.reverse {offset : Nat} (h : OccursAt needle text offset) :
    ∃ offset', OccursAt needle.reverse text.reverse offset' ∧
      offset + needle.length + offset' = text.length := by
  rcases h with ⟨before, after, rfl, rfl⟩
  refine ⟨after.length, ⟨after.reverse, before.reverse, by simp, after.length_reverse⟩, ?_⟩
  simp only [List.length_append, Nat.add_assoc]

end Offset

section Cuts

/-- No occurrence is before the one that is cut first. -/
theorem le_of_cut? (h : cut? needle text = some (before, after)) {offset : Nat}
    (hoffset : OccursAt needle text offset) : before.length ≤ offset := by
  induction text generalizing before offset with
  | nil =>
      have hnil := eq_append_of_cut? h
      rw [List.nil_eq, List.append_eq_nil_iff] at hnil
      rw [hnil.1]
      exact Nat.zero_le offset
  | cons c cs ih =>
      cases hstart : dropStart? needle (c :: cs) with
      | some rest =>
          rw [cut?_of_dropStart? hstart] at h
          cases h
          exact Nat.zero_le offset
      | none =>
          rw [cut?_cons hstart] at h
          rcases Option.map_eq_some_iff.mp h with ⟨⟨first, rest⟩, hcut, heq⟩
          cases heq
          -- The text does not start with the needle, so no occurrence is at its start.
          rcases hoffset.cases_cons with ⟨-, hprefix⟩ | ⟨offset', rfl, hoffset'⟩
          · exact absurd hprefix (dropStart?_eq_none_iff.mp hstart)
          · exact Nat.succ_le_succ (ih hcut hoffset')

/-- There is a last occurrence if there is one. -/
theorem cutLast?_eq_none_iff : cutLast? needle text = none ↔ ¬needle <:+: text := by
  induction text with
  | nil =>
      rw [List.infix_nil]
      cases needle <;> simp [cutLast?]
  | cons c cs ih =>
      rw [List.infix_cons_iff, not_or, ← dropStart?_eq_none_iff, ← ih, cutLast?]
      cases cutLast? needle cs <;> simp

/-- The parts make up the text. -/
theorem eq_append_of_cutLast? (h : cutLast? needle text = some (before, after)) :
    text = before ++ (needle ++ after) := by
  induction text generalizing before with
  | nil =>
      cases needle with
      | nil => cases h; rfl
      | cons c needle => cases h
  | cons c cs ih =>
      rw [cutLast?] at h
      -- A later occurrence is preferred to the one at the front.
      cases hlast : cutLast? needle cs with
      | some parts =>
          rw [hlast] at h
          cases h
          exact congrArg (c :: ·) (ih hlast)
      | none =>
          rw [hlast] at h
          rcases Option.map_eq_some_iff.mp h with ⟨rest, hstart, heq⟩
          cases heq
          rw [List.nil_append]
          exact eq_append_of_dropStart? hstart

/-- No occurrence is behind the one that is cut last. -/
theorem le_of_cutLast? (h : cutLast? needle text = some (before, after)) {offset : Nat}
    (hoffset : OccursAt needle text offset) : offset ≤ before.length := by
  induction text generalizing before offset with
  | nil =>
      rcases hoffset with ⟨first, rest, heq, rfl⟩
      rw [List.nil_eq, List.append_eq_nil_iff] at heq
      rw [heq.1]
      exact Nat.zero_le _
  | cons c cs ih =>
      rw [cutLast?] at h
      -- An occurrence at the front is not behind any other.
      rcases hoffset.cases_cons with ⟨rfl, -⟩ | ⟨offset', rfl, hoffset'⟩
      · exact Nat.zero_le _
      · cases hlast : cutLast? needle cs with
        | some parts =>
            rw [hlast] at h
            cases h
            exact Nat.succ_le_succ (ih hlast hoffset')
        | none =>
            exact absurd (exists_occursAt_iff.mp ⟨_, hoffset'⟩) (cutLast?_eq_none_iff.mp hlast)

end Cuts

section Mirror

/-- The first cut of the reversed text is where the last cut is, seen from behind: neither can be
before the other. -/
theorem length_cutLast?_eq {first rest : List Char}
    (hcut : cut? needle.reverse text.reverse = some (before, after))
    (hlast : cutLast? needle text = some (first, rest)) : after.length = first.length := by
  have hfirst := eq_append_of_cutLast? hlast
  have hreverse := eq_append_of_cut? hcut
  have hlength := congrArg List.length hfirst
  have hlength' := congrArg List.length hreverse
  simp only [List.length_append, List.length_reverse] at hlength hlength'
  -- The first occurrence from behind is no later, seen from the end, than the last one.
  have hmin : before.length ≤ rest.length := by
    have hoffset : OccursAt needle text first.length := ⟨first, rest, hfirst, rfl⟩
    rcases hoffset.reverse with ⟨offset, hoffset', hsum⟩
    have hle := le_of_cut? hcut hoffset'
    omega
  -- Nor is the last one later than the first one from behind.
  have hmax : after.length ≤ first.length := by
    have hoffset : OccursAt needle.reverse text.reverse before.length :=
      ⟨before, after, hreverse, rfl⟩
    rcases hoffset.reverse with ⟨offset, hoffset', hsum⟩
    rw [List.reverse_reverse, List.reverse_reverse] at hoffset'
    have hle := le_of_cutLast? hlast hoffset'
    simp only [List.length_reverse] at hsum
    omega
  omega

/-- The last cut of a text is the first one of the reversed text, seen from behind. -/
theorem cutLast?_eq_reverse (needle text : List Char) :
    cutLast? needle text =
      (cut? needle.reverse text.reverse).map fun (before, after) =>
        (after.reverse, before.reverse) := by
  cases hcut : cut? needle.reverse text.reverse with
  | none =>
      rw [cut?_eq_none_iff, List.reverse_infix] at hcut
      exact cutLast?_eq_none_iff.mpr hcut
  | some parts =>
      rcases parts with ⟨before, after⟩
      have htext : text = after.reverse ++ (needle ++ before.reverse) := by
        have hreverse := congrArg List.reverse (eq_append_of_cut? hcut)
        simpa using hreverse
      cases hlast : cutLast? needle text with
      | none =>
          exact absurd ⟨after.reverse, before.reverse, by rw [htext, List.append_assoc]⟩
            (cutLast?_eq_none_iff.mp hlast)
      | some parts =>
          rcases parts with ⟨first, rest⟩
          -- Both cuts are at the same offset, so their parts are the same.
          have hlength : after.reverse.length = first.length := by
            rw [List.length_reverse, length_cutLast?_eq hcut hlast]
          rcases parts_of_length_eq (htext.symm.trans (eq_append_of_cutLast? hlast)) hlength with
            ⟨rfl, rfl⟩
          rfl

/-- To replace the last occurrence is to replace the first of the mirrored text. -/
theorem replaceLast_eq_reverse (needle substitute text : List Char) :
    replaceLast needle substitute text =
      (replaceFirst needle.reverse substitute.reverse text.reverse).reverse := by
  unfold replaceLast replaceFirst
  rw [cutLast?_eq_reverse]
  cases cut? needle.reverse text.reverse with
  | none => exact text.reverse_reverse.symm
  | some parts => simp

end Mirror

section Single

variable (substitute : List Char)

/-- A single occurrence is the first and the last. -/
theorem replaceLast_eq_replaceFirst (h : ∃! offset, OccursAt needle text offset) :
    replaceLast needle substitute text = replaceFirst needle substitute text := by
  rcases h with ⟨offset, hoffset, honly⟩
  have hinfix := exists_occursAt_iff.mp ⟨offset, hoffset⟩
  unfold replaceLast replaceFirst
  cases hcut : cut? needle text with
  | none => exact absurd hinfix (cut?_eq_none_iff.mp hcut)
  | some parts =>
      cases hlast : cutLast? needle text with
      | none => exact absurd hinfix (cutLast?_eq_none_iff.mp hlast)
      | some parts' =>
          rcases parts with ⟨before, after⟩
          rcases parts' with ⟨before', after'⟩
          have hfirst := eq_append_of_cut? hcut
          have hfirst' := eq_append_of_cutLast? hlast
          -- Both occurrences are the only one.
          have hbefore := honly _ ⟨before, after, hfirst, rfl⟩
          have hbefore' := honly _ ⟨before', after', hfirst', rfl⟩
          rcases parts_of_length_eq (hfirst.symm.trans hfirst') (hbefore.trans hbefore'.symm) with
            ⟨rfl, rfl⟩
          rfl

/-- Behind a single occurrence there is no other. -/
theorem replaceAll_eq_replaceFirst (hne : needle ≠ [])
    (h : ∃! offset, OccursAt needle text offset) :
    replaceAll needle substitute text = replaceFirst needle substitute text := by
  rcases h with ⟨offset, hoffset, honly⟩
  unfold replaceAll replaceFirst
  rw [if_neg (by simpa using hne)]
  cases hcut : cut? needle text with
  | none => exact absurd (exists_occursAt_iff.mp ⟨offset, hoffset⟩) (cut?_eq_none_iff.mp hcut)
  | some parts =>
      rcases parts with ⟨before, after⟩
      have htext := eq_append_of_cut? hcut
      have hnone : cut? needle after = none := by
        rw [cut?_eq_none_iff]
        rintro ⟨first, rest, rfl⟩
        -- What occurs behind the first occurrence is at an offset of its own.
        have hbefore := honly _ ⟨before, _, htext, rfl⟩
        have hsecond := honly _ ⟨before ++ (needle ++ first), rest, by simp [htext], rfl⟩
        have hlength := List.length_pos_iff.mpr hne
        rw [← hbefore, List.length_append, List.length_append] at hsecond
        omega
      rw [pieces_of_cut? hne hcut, pieces_of_none hnone,
        List.intercalate_cons_of_ne_nil (List.cons_ne_nil _ _), List.intercalate_singleton]

end Single

section Absent

variable (substitute : List Char) (h : ¬needle <:+: text)

include h

theorem replaceFirst_eq_self : replaceFirst needle substitute text = text := by
  rw [replaceFirst, cut?_eq_none_iff.mpr h]

theorem replaceLast_eq_self : replaceLast needle substitute text = text := by
  rw [replaceLast, cutLast?_eq_none_iff.mpr h]

theorem replaceAll_eq_self : replaceAll needle substitute text = text := by
  have hne : needle ≠ [] := fun hnil => h (hnil ▸ List.nil_infix)
  rw [replaceAll, if_neg (by simpa using hne), pieces_of_none (cut?_eq_none_iff.mpr h),
    List.intercalate_singleton]

end Absent

end Text

end Liquid
