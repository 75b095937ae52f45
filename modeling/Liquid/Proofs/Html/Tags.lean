import Liquid.Environment
import Liquid.Proofs.Filter.Call
import Mathlib.Data.List.Forall2

/-!
# Texts without Tags

What is left of a text when its markup is removed. A tag goes from an opening
bracket to the nearest closing one, so an opening bracket is left only if no
closing one stands behind it anywhere. That is a property of pairs of characters
in their order, and it passes to every part of the text, however its characters
are taken from it.

Blocks are removed before tags, and what stood around a block is then put
together. This may make a tag that was not there, but the tags are removed
afterwards, and so none is left. In what is left there is no block either, since
a block starts and ends with brackets as a tag does. That is why nothing is
removed a second time.

## Main definitions

* `Html.Untagged`: No closing bracket behind an opening one.
* `Html.IsTag`, `Html.IsBlock`: What is removed.
* `Html.Without`: A text with some such parts removed.
* `Html.Stripped`: What is left of a text.

## Theorems

* `Html.without_dropBlocks`, `Html.without_dropTags`: Nothing else is removed.
* `Html.untagged_dropTags`: No tag is left.
* `Html.stripTags_eq_self_iff`: The texts that are left as they are.
* `Filter.markup_stripped`: What the filter gives for any value.
-/

namespace Liquid

namespace Html

/-- No opening bracket of the text has a closing one anywhere behind it. -/
def Untagged (cs : List Char) : Prop :=
  cs.Pairwise fun c d => c = '<' → d ≠ '>'

/-- A tag: an opening bracket up to the nearest closing one. -/
def IsTag (part : List Char) : Prop :=
  ∃ inner, '>' ∉ inner ∧ part = '<' :: (inner ++ ['>'])

/-- The name as it may be written in a text, each letter in either case. -/
def Spells (name written : List Char) : Prop :=
  List.Forall₂ (fun letter c => isLetter letter c = true) name written

/-- A script, a style sheet or a comment, from its opening to a closing of its kind. -/
def IsBlock (part : List Char) : Prop :=
  ∃ block ∈ blocks, ∃ opening inner closing,
    Spells block.1 opening ∧ Spells block.2 closing ∧ part = opening ++ (inner ++ closing)

/-- A text, and what is left of it when some parts of a kind are removed. -/
inductive Without (IsPart : List Char → Prop) : List Char → List Char → Prop
  | nil : Without IsPart [] []
  | keep (c : Char) {cs left : List Char} :
      Without IsPart cs left → Without IsPart (c :: cs) (c :: left)
  | remove {part cs left : List Char} :
      IsPart part → Without IsPart cs left → Without IsPart (part ++ cs) left

/-- What is left of a text without its markup. -/
structure Stripped (cs left : List Char) : Prop where
  untagged : Untagged left
  sublist : left.Sublist cs
  /-- First blocks are removed, and then tags from what is put together. -/
  removed : ∃ joined, Without IsBlock cs joined ∧ Without IsTag joined left
  unchanged : left = cs ↔ Untagged cs

section Untagged

variable {c : Char} {cs ds : List Char}

/-- No tag starts at the first character, and none behind it. -/
theorem untagged_cons : Untagged (c :: cs) ↔ (c = '<' → '>' ∉ cs) ∧ Untagged cs := by
  unfold Untagged
  rw [List.pairwise_cons]
  refine and_congr_left fun _ => ⟨fun h hc hmem => h '>' hmem hc rfl, fun h d hd hc hclose => ?_⟩
  exact h hc (hclose ▸ hd)

/-- Leaving characters out makes no new tag. -/
theorem Untagged.sublist (h : Untagged cs) (hds : ds.Sublist cs) : Untagged ds :=
  List.Pairwise.sublist hds h

/-- Nothing that starts and ends with brackets begins a text without tags. -/
theorem not_untagged_of_brackets {inner after : List Char} :
    ¬Untagged ('<' :: (inner ++ '>' :: after)) := by
  rw [untagged_cons]
  rintro ⟨h, -⟩
  exact h rfl (List.mem_append_right _ List.mem_cons_self)

theorem Without.sublist {IsPart : List Char → Prop} (h : Without IsPart cs ds) :
    ds.Sublist cs := by
  induction h with
  | nil => exact List.Sublist.refl _
  | keep c _ ih => exact ih.cons_cons c
  | remove _ _ ih => exact ih.trans (List.sublist_append_right ..)

end Untagged

section Blocks

variable {name cs rest : List Char}

/-- A bracket has no other case, and no letter is taken for it. -/
theorem eq_of_isLetter {bracket c : Char} (h : bracket = '<' ∨ bracket = '>')
    (hc : isLetter bracket c = true) : c = bracket := by
  have hlower : c.toLower = bracket := by
    rcases h with rfl | rfl <;> simpa [isLetter] using hc
  unfold Char.toLower at hlower
  by_cases hupper : c.val ≥ 'A'.val ∧ c.val ≤ 'Z'.val
  · rw [dif_pos hupper] at hlower
    have hval := congrArg (fun d => d.val.toNat) hlower
    simp only [ge_iff_le, UInt32.le_iff_toNat_le] at hupper
    rcases h with rfl | rfl <;> simp at hval hupper <;> omega
  · rwa [dif_neg hupper] at hlower

theorem exists_of_afterName? (h : afterName? name cs = some rest) :
    ∃ written, Spells name written ∧ cs = written ++ rest := by
  fun_induction afterName? name cs with
  | case1 cs =>
      cases h
      exact ⟨[], .nil, rfl⟩
  | case2 => cases h
  | case3 letter name c cs hletter ih =>
      rcases ih h with ⟨written, hwritten, rfl⟩
      exact ⟨c :: written, .cons hletter hwritten, rfl⟩
  | case4 => cases h

theorem exists_of_afterFirst? (h : afterFirst? name cs = some rest) :
    ∃ inner written, Spells name written ∧ cs = inner ++ (written ++ rest) := by
  induction cs with
  | nil =>
      rcases exists_of_afterName? h with ⟨written, hwritten, hcs⟩
      exact ⟨[], written, hwritten, hcs⟩
  | cons c cs ih =>
      rw [afterFirst?, Option.or_eq_some_iff] at h
      rcases h with h | ⟨-, h⟩
      · rcases exists_of_afterName? h with ⟨written, hwritten, hcs⟩
        exact ⟨[], written, hwritten, hcs⟩
      · rcases ih h with ⟨inner, written, hwritten, rfl⟩
        exact ⟨c :: inner, written, hwritten, rfl⟩

/-- What is removed from the front of a text as a block is one. -/
theorem exists_block_of_blockEnd? (h : blockEnd? cs = some rest) :
    ∃ block, IsBlock block ∧ cs = block ++ rest := by
  rcases List.exists_of_findSome?_eq_some h with ⟨block, hmem, hend⟩
  rcases Option.bind_eq_some_iff.mp hend with ⟨after, hafter, hrest⟩
  rcases exists_of_afterName? hafter with ⟨opening, hopening, rfl⟩
  rcases exists_of_afterFirst? hrest with ⟨inner, closing, hclosing, rfl⟩
  refine ⟨_, ⟨block, hmem, opening, inner, closing, hopening, hclosing, rfl⟩, ?_⟩
  simp only [List.append_assoc]

/-- A block starts and ends with brackets. -/
theorem IsBlock.exists_inner {block : List Char} (h : IsBlock block) :
    ∃ inner, block = '<' :: (inner ++ ['>']) := by
  rcases h with ⟨⟨start, stop⟩, hmem, opening, inner, closing, hopening, hclosing, rfl⟩
  have hends : ∃ name name', start = '<' :: name ∧ stop = name' ++ ['>'] := by
    simp only [blocks, List.mem_cons, Prod.mk.injEq, List.not_mem_nil, or_false] at hmem
    rcases hmem with ⟨rfl, rfl⟩ | ⟨rfl, rfl⟩ | ⟨rfl, rfl⟩
    · exact ⟨"script".toList, "</script".toList, rfl, rfl⟩
    · exact ⟨"style".toList, "</style".toList, rfl, rfl⟩
    · exact ⟨"!--".toList, "--".toList, rfl, rfl⟩
  rcases hends with ⟨name, name', rfl, rfl⟩
  rcases List.forall₂_cons_left_iff.mp hopening with ⟨c, written, hc, -, rfl⟩
  -- The closing is read from its end.
  have hclosing := List.forall₂_reverse_iff.mpr hclosing
  rw [List.reverse_append] at hclosing
  rcases List.forall₂_cons_left_iff.mp hclosing with ⟨d, written', hd, -, heq⟩
  have heq : closing = written'.reverse ++ [d] := by
    rw [← List.reverse_cons, ← heq, List.reverse_reverse]
  rw [eq_of_isLetter (.inl rfl) hc, heq, eq_of_isLetter (.inr rfl) hd]
  exact ⟨written ++ (inner ++ written'.reverse), by simp only [List.cons_append, List.append_assoc]⟩

theorem blockEnd?_of_untagged (h : Untagged cs) : blockEnd? cs = none := by
  rw [Option.eq_none_iff_forall_ne_some]
  intro rest hrest
  rcases exists_block_of_blockEnd? hrest with ⟨block, hblock, rfl⟩
  rcases hblock.exists_inner with ⟨inner, rfl⟩
  rw [List.cons_append, List.append_assoc] at h
  exact not_untagged_of_brackets h

/-- Only blocks are left out. -/
theorem without_dropBlocks (cs : List Char) : Without IsBlock cs (dropBlocks cs) := by
  fun_induction dropBlocks cs with
  | case1 => exact .nil
  | case2 c cs rest hrest ih =>
      rcases exists_block_of_blockEnd? hrest with ⟨block, hblock, heq⟩
      rw [heq]
      exact .remove hblock ih
  | case3 c cs _ ih => exact .keep c ih

/-- Without tags there are no blocks. -/
theorem dropBlocks_of_untagged (h : Untagged cs) : dropBlocks cs = cs := by
  fun_induction dropBlocks cs with
  | case1 => rfl
  | case2 c cs rest hrest ih =>
      rw [blockEnd?_of_untagged h] at hrest
      cases hrest
  | case3 c cs _ ih => rw [ih (untagged_cons.mp h).2]

end Blocks

section Tags

variable {cs : List Char}

/-- Only tags are left out. -/
theorem without_dropTags (cs : List Char) : Without IsTag cs (dropTags cs) := by
  fun_induction dropTags cs with
  | case1 => exact .nil
  | case2 c cs htag ih =>
      simp only [Bool.and_eq_true, beq_iff_eq, List.contains_iff_mem] at htag
      rcases htag with ⟨rfl, hclose⟩
      rcases List.eq_append_cons_of_mem hclose with ⟨inner, rest, rfl, hinner⟩
      -- What is dropped ends at the first closing bracket.
      have hrest : ((inner ++ '>' :: rest).dropWhile (· != '>')).drop 1 = rest := by
        have hpass : ∀ c ∈ inner, (c != '>') = true := fun c hc =>
          bne_iff_ne.mpr fun heq => hinner (heq ▸ hc)
        rw [List.dropWhile_append_of_pos hpass]
        rfl
      rw [hrest] at ih ⊢
      have htag : '<' :: (inner ++ '>' :: rest) = '<' :: (inner ++ ['>']) ++ rest := by simp
      rw [htag]
      exact .remove ⟨inner, hinner, rfl⟩ ih
  | case3 c cs _ ih => exact .keep c ih

/-- No tag is left. -/
theorem untagged_dropTags (cs : List Char) : Untagged (dropTags cs) := by
  fun_induction dropTags cs with
  | case1 => exact List.Pairwise.nil
  | case2 c cs _ ih => exact ih
  | case3 c cs htag ih =>
      refine untagged_cons.mpr ⟨fun hc hmem => htag ?_, ih⟩
      have hclose := (without_dropTags cs).sublist.subset hmem
      simp [hc, hclose]

theorem dropTags_of_untagged (h : Untagged cs) : dropTags cs = cs := by
  fun_induction dropTags cs with
  | case1 => rfl
  | case2 c cs htag ih =>
      simp only [Bool.and_eq_true, beq_iff_eq, List.contains_iff_mem] at htag
      exact absurd htag.2 ((untagged_cons.mp h).1 htag.1)
  | case3 c cs _ ih => rw [ih (untagged_cons.mp h).2]

theorem stripTags_of_untagged (h : Untagged cs) : stripTags cs = cs := by
  rw [stripTags, dropBlocks_of_untagged h, dropTags_of_untagged h]

theorem untagged_stripTags (cs : List Char) : Untagged (stripTags cs) :=
  untagged_dropTags (dropBlocks cs)

/-- A text is kept as it is if it has no tag. -/
theorem stripTags_eq_self_iff : stripTags cs = cs ↔ Untagged cs :=
  ⟨fun h => h ▸ untagged_stripTags cs, stripTags_of_untagged⟩

/-- What is stripped has no tags, and is all that was outside of them. -/
theorem stripped_stripTags (cs : List Char) : Stripped cs (stripTags cs) where
  untagged := untagged_stripTags cs
  sublist := (without_dropTags _).sublist.trans (without_dropBlocks cs).sublist
  removed := ⟨dropBlocks cs, without_dropBlocks cs, without_dropTags _⟩
  unchanged := stripTags_eq_self_iff

end Tags

end Html

namespace Filter

/-- Of the text that a value shows, the filter leaves a part without tags, and removes nothing but
markup. It leaves that part as it is. -/
theorem markup_stripped (settings : Settings) :
    ∃ filter, (Environment.create settings {}).1.filters.get? "strip_html" = some filter ∧
      ∀ v args options, ∃ left : String,
        filter.apply v args options = .ok (.string left) ∧
        Html.Stripped v.display.toList left.toList ∧
        filter.apply (.string left) args options = .ok (.string left) := by
  refine ⟨_, rfl, fun v args options => ⟨_, ofChars_apply .., ?_, ?_⟩⟩
  · rw [String.toList_ofList]
    exact Html.stripped_stripTags _
  · rw [ofChars_apply, Value.display, String.toList_ofList,
      Html.stripTags_eq_self_iff.mpr (Html.untagged_stripTags _)]

end Filter

end Liquid
