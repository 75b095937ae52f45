import Liquid.Text.Blank
import Liquid.Text.Search
import Mathlib.Data.List.Chain
import Mathlib.Data.List.Infix
import Mathlib.Data.List.TakeWhile

/-!
# Searching, Stripping and Cutting

Where a delimiter of two characters is found in a text that has been put
together. A delimiter is absent from a text if no two neighbours in it make it
up, and that can be told part by part: what is left to see is the seam between
the parts. So the searches are about chains of neighbours, and a text that does
not contain the delimiter is turned into one first.

What a search finds at the front of a text does not depend on what is behind
that, which is said for texts of any length that are searched for.

Stripping undoes padding. A text that is as it is when it is stripped starts and
ends with no blank, and so a search for blanks at an end stops there.

## Main definitions

* `Text.Apart`: Two neighbours that are not the two characters of a delimiter.

## Theorems

* `Text.cut?_eq_none_iff`, `Text.cut?_local`: What a search depends on.
* `Text.not_infix_iff_isChain`: Texts without a delimiter.
* `Text.cut?_pair_append`: The delimiter behind such a text is the first one.
* `Text.strip_append_blank`: Stripping a padded text.
* `Text.exists_strip`: A text is what is stripped, and blanks around it.
* `Text.intercalate_pieces`: Joining the pieces of a text.
* `Text.pieces_intercalate`: Cutting what is joined with a character.
-/

namespace Liquid

namespace Text

/-- Two neighbours in a text other than `a` before `b`. -/
def Apart (a b : Char) (c d : Char) : Prop :=
  ¬(c = a ∧ d = b)

section Front

variable {needle before after cs : List Char}

/-- What is dropped from the start is all in front of the rest. -/
theorem dropStart?_eq_some_iff : dropStart? needle cs = some after ↔ cs = needle ++ after := by
  refine ⟨eq_append_of_dropStart?, ?_⟩
  rintro rfl
  induction needle with
  | nil => rfl
  | cons c needle ih => simpa [dropStart?] using ih

/-- Nothing is dropped if the text does not start so. -/
theorem dropStart?_eq_none_iff : dropStart? needle cs = none ↔ ¬needle <+: cs := by
  rw [Option.eq_none_iff_forall_ne_some]
  refine ⟨fun h ⟨after, hcs⟩ => h after (dropStart?_eq_some_iff.mpr hcs.symm), ?_⟩
  exact fun h after hafter => h ⟨after, (dropStart?_eq_some_iff.mp hafter).symm⟩

/-- If the text does not start with the needle, it is looked for behind the first character. -/
theorem cut?_cons {c : Char} (h : dropStart? needle (c :: cs) = none) :
    cut? needle (c :: cs) =
      (cut? needle cs).map fun (before, after) => (c :: before, after) := by
  rw [cut?, h]

theorem cut?_of_dropStart? (h : dropStart? needle cs = some after) :
    cut? needle cs = some ([], after) := by
  cases cs with
  | nil =>
      rcases List.append_eq_nil_iff.mp (dropStart?_eq_some_iff.mp h).symm with ⟨rfl, rfl⟩
      rfl
  | cons c cs => rw [cut?, h]

/-- A text is found if it is there. -/
theorem cut?_eq_none_iff : cut? needle cs = none ↔ ¬needle <:+: cs := by
  induction cs with
  | nil =>
      rw [List.infix_nil]
      cases needle <;> simp [cut?]
  | cons c cs ih =>
      rw [List.infix_cons_iff, not_or, ← dropStart?_eq_none_iff, ← ih]
      cases hstart : dropStart? needle (c :: cs) with
      | none => rw [cut?_cons hstart, Option.map_eq_none_iff]; simp
      | some after => rw [cut?_of_dropStart? hstart]; simp

/-- Where a text is first found does not depend on what is behind it. -/
theorem cut?_local (h : cut? needle cs = some (before, after)) (after' : List Char) :
    cut? needle (before ++ (needle ++ after')) = some (before, after') := by
  induction cs generalizing before with
  | nil =>
      cases needle with
      | nil =>
          cases h
          exact cut?_of_dropStart? rfl
      | cons c needle => cases h
  | cons c cs ih =>
      cases hstart : dropStart? needle (c :: cs) with
      | some rest =>
          rw [cut?_of_dropStart? hstart] at h
          cases h
          exact cut?_of_dropStart? (dropStart?_eq_some_iff.mpr rfl)
      | none =>
          rw [cut?_cons hstart] at h
          rcases Option.map_eq_some_iff.mp h with ⟨⟨first, rest⟩, hcut, heq⟩
          cases heq
          rw [eq_append_of_cut? hcut] at hstart
          have hnone : dropStart? needle (c :: (first ++ (needle ++ after'))) = none := by
            rw [dropStart?_eq_none_iff] at hstart ⊢
            intro hprefix
            -- As many characters as are searched for stand before what is behind.
            have hseen (behind : List Char) :
                c :: (first ++ needle) <+: c :: (first ++ (needle ++ behind)) :=
              ⟨behind, by simp⟩
            have hlength : needle.length ≤ (c :: (first ++ needle)).length := by simp; omega
            have hstarts := List.prefix_of_prefix_length_le hprefix (hseen after') hlength
            exact hstart (hstarts.trans (hseen after))
          rw [List.cons_append, cut?_cons hnone, ih hcut]
          rfl
/-- What is before the place where a text is first found does not contain it. -/
theorem not_infix_of_cut? (hne : needle ≠ []) (h : cut? needle cs = some (before, after)) :
    ¬needle <:+: before := by
  intro hinfix
  have hfound : cut? needle before ≠ none := fun hnone => cut?_eq_none_iff.mp hnone hinfix
  rcases Option.ne_none_iff_exists'.mp hfound with ⟨⟨first, last⟩, hcut⟩
  have hbefore := eq_append_of_cut? hcut
  -- It would have been found there in the whole text too.
  have hwhole := cut?_local hcut (last ++ (needle ++ after))
  subst hbefore
  rw [eq_append_of_cut? h, List.append_assoc, List.append_assoc, hwhole] at h
  have hlength := congrArg List.length (Prod.mk.inj (Option.some.inj h)).1
  rw [List.length_append, List.length_append] at hlength
  exact hne (List.length_eq_zero_iff.mp (by omega))

end Front

section Search

variable {a b : Char} {before : List Char}

/-- A text does not contain two characters if none of its neighbours are these two. -/
theorem not_infix_iff_isChain : ¬[a, b] <:+: before ↔ before.IsChain (Apart a b) := by
  rw [List.isChain_iff_forall_rel_of_append_cons_cons]
  constructor
  · rintro h c d first rest rfl ⟨rfl, rfl⟩
    exact h ⟨first, rest, by simp⟩
  · rintro h ⟨first, rest, heq⟩
    exact h (show before = first ++ a :: b :: rest by simp [← heq]) ⟨rfl, rfl⟩

/-- The start of a text without two characters is not these two, whatever is behind it, unless it
ends with the first of them. -/
theorem apart_head {c d : Char} {after : List Char} (h : (c :: before).IsChain (Apart a b))
    (hlast : (c :: before).getLast? ≠ some a) {rest : List Char}
    (hrest : before ++ after = d :: rest) : Apart a b c d := by
  cases before with
  | nil =>
      rintro ⟨rfl, _⟩
      exact hlast rfl
  | cons e before =>
      cases hrest
      exact h.rel_head? rfl

theorem getLast?_ne_of_cons {c : Char} (h : (c :: before).getLast? ≠ some a) :
    before.getLast? ≠ some a := by
  intro hbefore
  apply h
  cases before with
  | nil => cases hbefore
  | cons d before => exact hbefore

theorem getLast?_ne_of_append {cs : List Char} (h : (cs ++ before).getLast? ≠ some a) :
    before.getLast? ≠ some a := by
  intro hbefore
  rw [List.getLast?_append, hbefore] at h
  exact h rfl

/-- A pair of characters is found where it first stands. -/
theorem cut?_pair_append (after : List Char) (h : before.IsChain (Apart a b))
    (hlast : before.getLast? ≠ some a) :
    cut? [a, b] (before ++ a :: b :: after) = some (before, after) := by
  induction before with
  | nil => simp [cut?, dropStart?]
  | cons c before ih =>
      -- The delimiter does not start at the front, so the search goes on behind it.
      have hnone : dropStart? [a, b] (c :: (before ++ a :: b :: after)) = none := by
        cases hrest : before ++ a :: b :: after with
        | nil => simp at hrest
        | cons d rest =>
            have happart := apart_head h hlast hrest
            simp only [dropStart?, beq_iff_eq]
            by_cases hc : a = c
            · rw [if_pos hc, if_neg fun hd => happart ⟨hc.symm, hd.symm⟩]
            · rw [if_neg hc]
      rw [List.cons_append, cut?, hnone]
      simp only [ih h.tail (getLast?_ne_of_cons hlast), Option.map_some]

/-- Of two characters that differ, the first one before the text that is searched for cannot take
part in it. -/
theorem cut?_pair_of_ne (hne : a ≠ b) (after : List Char) (h : ¬[a, b] <:+: before) :
    cut? [a, b] (before ++ a :: b :: after) = some (before, after) := by
  induction before with
  | nil => exact cut?_of_dropStart? (dropStart?_eq_some_iff.mpr rfl)
  | cons c before ih =>
      rw [List.infix_cons_iff, not_or] at h
      have hnone : dropStart? [a, b] (c :: (before ++ a :: b :: after)) = none := by
        rw [dropStart?_eq_none_iff]
        rintro ⟨rest, hrest⟩
        rcases List.cons.inj hrest with ⟨rfl, hnext⟩
        -- The pair can only start with the last character in front if its characters are the same.
        cases before with
        | nil => exact hne (List.cons.inj hnext).1.symm
        | cons d before =>
            rcases List.cons.inj hnext with ⟨rfl, _⟩
            exact h.1 ⟨before, rfl⟩
      rw [List.cons_append, cut?_cons hnone, ih h.2]
      rfl

/-- What is put in front brings no delimiter if it lacks its first character. -/
theorem not_infix_append {a b : Char} {before cs : List Char} (ha : a ∉ before)
    (h : ¬[a, b] <:+: cs) : ¬[a, b] <:+: before ++ cs := by
  induction before with
  | nil => exact h
  | cons c before ih =>
      rw [List.mem_cons, not_or] at ha
      rw [List.cons_append, List.infix_cons_iff, not_or]
      refine ⟨?_, ih ha.2⟩
      rintro ⟨rest, hrest⟩
      exact ha.1 (List.cons.inj hrest).1

/-- A character behind a text completes no delimiter if it is not the last of one. -/
theorem not_infix_concat {a b c : Char} {cs : List Char} (hc : c ≠ b) (h : ¬[a, b] <:+: cs) :
    ¬[a, b] <:+: cs ++ [c] := by
  rw [not_infix_iff_isChain] at h ⊢
  refine h.append (List.isChain_singleton c) ?_
  rintro d _ e he ⟨_, rfl⟩
  cases he
  exact hc rfl

end Search

section Strip

variable {cs : List Char}

theorem stripRight_isPrefix (cs : List Char) : stripRight cs <+: cs := by
  have h : cs.reverse.dropWhile isBlank <:+ cs.reverse := List.dropWhile_suffix _
  rw [← List.reverse_prefix, List.reverse_reverse] at h
  exact h

theorem length_stripRight_le (cs : List Char) : (stripRight cs).length ≤ cs.length :=
  (stripRight_isPrefix cs).length_le

theorem stripLeft_eq_self_of_strip (h : strip cs = cs) : stripLeft cs = cs := by
  apply (List.dropWhile_suffix isBlank).eq_of_length_le
  have hright := length_stripRight_le (stripLeft cs)
  change (strip cs).length ≤ _ at hright
  rw [h] at hright
  exact hright

theorem stripRight_eq_self_of_strip (h : strip cs = cs) : stripRight cs = cs := by
  unfold strip at h
  rwa [stripLeft_eq_self_of_strip h] at h

theorem stripLeft_cons_blank {c : Char} (h : isBlank c = true) (cs : List Char) :
    stripLeft (c :: cs) = stripLeft cs :=
  List.dropWhile_cons_of_pos h

/-- Blanks in front are taken off. -/
theorem stripLeft_append_blank {before : List Char} (h : ∀ c ∈ before, isBlank c = true)
    (cs : List Char) : stripLeft (before ++ cs) = stripLeft cs :=
  List.dropWhile_append_of_pos h

/-- Blanks at the end are taken off. -/
theorem stripRight_append_blank {after : List Char} (h : ∀ c ∈ after, isBlank c = true)
    (cs : List Char) : stripRight (cs ++ after) = stripRight cs := by
  unfold stripRight
  rw [List.reverse_append, List.dropWhile_append_of_pos fun c hc => h c (List.mem_reverse.mp hc)]

/-- A text that starts with no blank is not shortened on the left by what is behind it. -/
theorem stripLeft_append (h : stripLeft cs = cs) (hne : cs ≠ []) (ds : List Char) :
    stripLeft (cs ++ ds) = cs ++ ds := by
  cases cs with
  | nil => exact absurd rfl hne
  | cons c cs =>
      -- The first character is no blank, or it would have been taken off.
      have hc : isBlank c = false := by
        by_contra hc
        rw [Bool.not_eq_false] at hc
        rw [stripLeft_cons_blank hc] at h
        have := (List.dropWhile_suffix (l := cs) isBlank).length_le
        unfold stripLeft at h
        rw [h, List.length_cons] at this
        omega
      exact List.dropWhile_cons_of_neg (by simp [hc])

theorem stripLeft_eq_self (h : ∀ c ∈ cs, isBlank c = false) : stripLeft cs = cs := by
  cases cs with
  | nil => rfl
  | cons c cs => exact List.dropWhile_cons_of_neg (by simp [h c List.mem_cons_self])

/-- Where there are no blanks none are taken off. -/
theorem strip_eq_self (h : ∀ c ∈ cs, isBlank c = false) : strip cs = cs := by
  have hreverse : stripLeft cs.reverse = cs.reverse :=
    stripLeft_eq_self fun c hc => h c (List.mem_reverse.mp hc)
  rw [strip, stripLeft_eq_self h, stripRight]
  exact (congrArg List.reverse hreverse).trans (List.reverse_reverse cs)

/-- A text with no blank at either end is left as it is. -/
theorem strip_eq_self_of_ends {first last : Char} (hfirst : isBlank first = false)
    (hlast : isBlank last = false) (cs : List Char) :
    strip (first :: (cs ++ [last])) = first :: (cs ++ [last]) := by
  have hleft : stripLeft (first :: (cs ++ [last])) = first :: (cs ++ [last]) :=
    List.dropWhile_cons_of_neg (by simp [hfirst])
  have hright : stripLeft (last :: (cs.reverse ++ [first])) = last :: (cs.reverse ++ [first]) :=
    List.dropWhile_cons_of_neg (by simp [hlast])
  have hreverse : (first :: (cs ++ [last])).reverse = last :: (cs.reverse ++ [first]) := by simp
  rw [strip, hleft, stripRight, hreverse]
  refine (congrArg List.reverse hright).trans ?_
  rw [← hreverse, List.reverse_reverse]

/-- Blanks on both sides make no difference to what is left. -/
theorem strip_append_blank (before after cs : List Char) (hbefore : ∀ c ∈ before, isBlank c = true)
    (hafter : ∀ c ∈ after, isBlank c = true) : strip (before ++ (cs ++ after)) = strip cs := by
  unfold strip
  rw [stripLeft_append_blank hbefore, stripLeft, List.dropWhile_append]
  cases hcs : cs.dropWhile isBlank with
  | nil =>
      have hnil : after.dropWhile isBlank = [] := by
        rw [← List.append_nil after, List.dropWhile_append_of_pos hafter, List.dropWhile_nil]
      simp [hnil, stripLeft, hcs]
  | cons c rest =>
      rw [List.isEmpty_cons, if_neg Bool.false_ne_true, stripRight_append_blank hafter, ← hcs]
      rfl

theorem strip_pad (cs : List Char) : strip (' ' :: (cs ++ [' '])) = strip cs :=
  strip_append_blank [' '] [' '] cs (List.all_eq_true.mp rfl) (List.all_eq_true.mp rfl)

/-- A text that ends with no blank is not shortened on the right by what is before it. -/
theorem stripRight_append (h : stripRight cs = cs) (hne : cs ≠ []) (ds : List Char) :
    stripRight (ds ++ cs) = ds ++ cs := by
  have hreverse : stripLeft cs.reverse = cs.reverse := by
    rw [← List.reverse_reverse (stripLeft _)]
    exact congrArg List.reverse h
  have hkept := stripLeft_append hreverse (by simpa using hne) ds.reverse
  rw [← List.reverse_append] at hkept
  exact (congrArg List.reverse hkept).trans (List.reverse_reverse _)

/-- A text is what is left of it with the blanks on both sides. -/
theorem exists_strip (cs : List Char) :
    ∃ before after, (∀ c ∈ before, isBlank c = true) ∧ (∀ c ∈ after, isBlank c = true) ∧
      cs = before ++ (strip cs ++ after) := by
  let after := ((stripLeft cs).reverse.takeWhile isBlank).reverse
  have hafter : ∀ c ∈ after, isBlank c = true :=
    fun c hc => List.mem_takeWhile_imp (List.mem_reverse.mp hc)
  have hright : strip cs ++ after = stripLeft cs := by
    rw [strip, stripRight, ← List.reverse_append, List.takeWhile_append_dropWhile,
      List.reverse_reverse]
  refine ⟨cs.takeWhile isBlank, after, fun c => List.mem_takeWhile_imp, hafter, ?_⟩
  rw [hright]
  exact List.takeWhile_append_dropWhile.symm

/-- What is stripped has no blanks to take off. -/
theorem strip_strip (cs : List Char) : strip (strip cs) = strip cs := by
  rcases exists_strip cs with ⟨before, after, hbefore, hafter, hcs⟩
  rw [← strip_append_blank before after (strip cs) hbefore hafter, ← hcs]

end Strip

section Cutting

variable {needle text before after : List Char}

/-- The first piece ends at the first occurrence. -/
theorem pieces_of_cut? (hne : needle ≠ []) (h : cut? needle text = some (before, after)) :
    pieces needle text = before :: pieces needle after := by
  rw [pieces, dif_neg hne]
  split
  · next hnone =>
    rw [h] at hnone
    cases hnone
  · next hsome =>
    rw [h] at hsome
    cases hsome
    rfl

theorem pieces_of_none (h : cut? needle text = none) : pieces needle text = [text] := by
  rw [pieces]
  split
  · rfl
  · split
    · rfl
    · next hsome =>
      rw [h] at hsome
      cases hsome

/-- There is a piece at least, if only an empty one. -/
theorem pieces_ne_nil (needle text : List Char) : pieces needle text ≠ [] := by
  rw [pieces]
  split
  · exact List.cons_ne_nil _ _
  · split <;> exact List.cons_ne_nil _ _

/-- Joined again, the pieces are the text. -/
theorem intercalate_pieces (needle text : List Char) :
    needle.intercalate (pieces needle text) = text := by
  fun_induction pieces needle text with
  | case1 text => exact List.intercalate_singleton
  | case2 text hne hnone => exact List.intercalate_singleton
  | case3 text hne before after hcut ih =>
      rw [List.intercalate_cons_of_ne_nil (pieces_ne_nil needle after), ih, List.append_assoc]
      exact (eq_append_of_cut? hcut).symm

/-- What is joined in two steps is joined. -/
theorem intercalate_append {parts more : List (List Char)} (hparts : parts ≠ []) (hmore : more ≠ []) :
    needle.intercalate (parts ++ more) =
      needle.intercalate parts ++ (needle ++ needle.intercalate more) := by
  induction parts with
  | nil => exact absurd rfl hparts
  | cons part parts ih =>
      rw [List.cons_append, List.intercalate_cons_of_ne_nil (List.append_ne_nil_of_right_ne_nil _ hmore)]
      by_cases hlast : parts = []
      · rw [hlast, List.nil_append, List.intercalate_singleton, List.append_assoc]
      · rw [ih hlast, List.intercalate_cons_of_ne_nil hlast]
        simp only [List.append_assoc]

end Cutting

section Character

variable {c : Char} {before : List Char}

/-- A character is found where it first stands. -/
theorem cut?_character (h : c ∉ before) (after : List Char) :
    cut? [c] (before ++ c :: after) = some (before, after) := by
  induction before with
  | nil => exact cut?_of_dropStart? (dropStart?_eq_some_iff.mpr rfl)
  | cons d before ih =>
      rw [List.mem_cons, not_or] at h
      have hnone : dropStart? [c] (d :: (before ++ c :: after)) = none := by
        rw [dropStart?_eq_none_iff]
        rintro ⟨rest, heq⟩
        exact h.1 (List.cons.inj heq).1
      rw [List.cons_append, cut?_cons hnone, ih h.2]
      rfl

/-- What is joined with a character that it does not have is cut again. -/
theorem pieces_intercalate {parts : List (List Char)} (hne : parts ≠ [])
    (h : ∀ part ∈ parts, c ∉ part) : pieces [c] ([c].intercalate parts) = parts := by
  induction parts with
  | nil => exact absurd rfl hne
  | cons part parts ih =>
      rcases List.forall_mem_cons.mp h with ⟨hpart, hparts⟩
      by_cases hlast : parts = []
      · subst hlast
        rw [List.intercalate_singleton]
        refine pieces_of_none (cut?_eq_none_iff.mpr ?_)
        rwa [List.singleton_infix_iff]
      · rw [List.intercalate_cons_of_ne_nil hlast, List.append_assoc, List.singleton_append,
          pieces_of_cut? (List.cons_ne_nil c []) (cut?_character hpart _), ih hlast hparts]

end Character

end Text

end Liquid
