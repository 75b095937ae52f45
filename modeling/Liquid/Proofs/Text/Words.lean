import Liquid.Text.Blank
import Mathlib.Data.List.Basic

/-!
# Texts in Words

What the words of a text are. A text is a run of blanks, or it is a word between
a run of blanks and a rest that does not go on with the word. Every text can be
read in one such way, and in no other, so this is what the reader finds.

It reads character by character and keeps the word that it is in. A text that
goes on with that word is as good as one that begins with it, which is how the
reader is related to whole texts.

## Main definitions

* `Text.IsWord`: A word by itself.
* `Text.InWords`: A text and the words in it.

## Theorems

* `Text.words_eq_iff`: The words that are read are those in the text.
* `Text.InWords.joined`, `Text.InWords.extended`: Texts made of words.
-/

namespace Liquid

namespace Text

/-- A word: some characters, none of them blank. -/
structure IsWord (word : List Char) : Prop where
  ne_nil : word ≠ []
  not_blank : ∀ c ∈ word, isBlank c = false

/-- What may stand behind a word: nothing, or a text that starts with a blank. -/
def WordEnds (behind : List Char) : Prop :=
  ∀ c ∈ behind.head?, isBlank c = true

/-- A text and the words in it, in order. -/
inductive InWords : List Char → List (List Char) → Prop
  | blank {cs : List Char} : (∀ c ∈ cs, isBlank c = true) → InWords cs []
  | word {before word behind : List Char} {words : List (List Char)} :
      (∀ c ∈ before, isBlank c = true) → IsWord word → WordEnds behind → InWords behind words →
        InWords (before ++ (word ++ behind)) (word :: words)

theorem wordEnds_nil : WordEnds [] :=
  fun _ hc => nomatch hc

theorem wordEnds_cons {c : Char} (hc : isBlank c = true) (cs : List Char) : WordEnds (c :: cs) := by
  intro d hd
  rwa [← Option.some.inj hd]

section Reading

variable {held before word behind cs : List Char} {found more : List (List Char)}

/-- Blanks in front of words are passed over. -/
theorem wordsFrom_blanks (h : ∀ c ∈ before, isBlank c = true) (cs : List Char) :
    wordsFrom [] (before ++ cs) = wordsFrom [] cs := by
  induction before with
  | nil => rfl
  | cons c before ih =>
      rcases List.forall_mem_cons.mp h with ⟨hc, hbefore⟩
      rw [List.cons_append, wordsFrom, if_pos hc]
      exact ih hbefore

/-- Characters of a word are held until it ends. -/
theorem wordsFrom_word (h : ∀ c ∈ word, isBlank c = false) (held cs : List Char) :
    wordsFrom held (word ++ cs) = wordsFrom (word.reverse ++ held) cs := by
  induction word generalizing held with
  | nil => rfl
  | cons c word ih =>
      rcases List.forall_mem_cons.mp h with ⟨hc, hword⟩
      have hnot : ¬isBlank c = true := by simp [hc]
      rw [List.cons_append, wordsFrom, if_neg hnot, ih hword, List.reverse_cons, List.append_assoc,
        List.singleton_append]

/-- Where a word has ended, the reader is as at the start. -/
theorem wordsFrom_behind (hheld : held ≠ []) (h : WordEnds behind) :
    wordsFrom held behind = held.reverse :: wordsFrom [] behind := by
  have hempty : ¬held.isEmpty = true := by simpa using hheld
  cases behind with
  | nil =>
      rw [wordsFrom, if_neg hempty]
      rfl
  | cons c cs =>
      have hc : isBlank c = true := h c rfl
      rw [wordsFrom, if_pos hc, if_neg hempty, wordsFrom, if_pos hc]
      rfl

/-- The words of a text are told by how it is divided. -/
theorem InWords.words_eq (h : InWords cs found) : words cs = found := by
  unfold words
  induction h with
  | @blank cs hcs => rw [← List.append_nil cs, wordsFrom_blanks hcs]; rfl
  | @word before word behind found hbefore hword hbehind _ ih =>
      have hheld : word.reverse ++ [] ≠ [] := by simpa using hword.ne_nil
      rw [wordsFrom_blanks hbefore, wordsFrom_word hword.not_blank, wordsFrom_behind hheld hbehind,
        ih, List.append_nil, List.reverse_reverse]

/-- A blank in front changes nothing. -/
theorem InWords.cons_blank {c : Char} (hc : isBlank c = true) (h : InWords cs found) :
    InWords (c :: cs) found := by
  cases h with
  | blank hcs => exact .blank (List.forall_mem_cons.mpr ⟨hc, hcs⟩)
  | word hbefore hword hbehind hrest =>
      rw [← List.cons_append]
      exact .word (List.forall_mem_cons.mpr ⟨hc, hbefore⟩) hword hbehind hrest

/-- A word that ends is the first one. -/
theorem InWords.cons_word (hword : IsWord word) (hbehind : WordEnds behind)
    (h : InWords behind found) : InWords (word ++ behind) (word :: found) := by
  have hwhole := InWords.word (List.forall_mem_nil _) hword hbehind h
  rwa [List.nil_append] at hwhole

theorem inWords_nil : InWords [] [] :=
  .blank (List.forall_mem_nil _)

theorem inWords_singleton (hword : IsWord word) : InWords word [word] := by
  have hwhole := InWords.cons_word hword wordEnds_nil inWords_nil
  rwa [List.append_nil] at hwhole

theorem isWord_reverse (hne : held ≠ []) (h : ∀ c ∈ held, isBlank c = false) :
    IsWord held.reverse :=
  ⟨by simpa using hne, fun c hc => h c (List.mem_reverse.mp hc)⟩

/-- Any text that begins with what is held is read in words. -/
theorem inWords_wordsFrom (hheld : ∀ c ∈ held, isBlank c = false) (cs : List Char) :
    InWords (held.reverse ++ cs) (wordsFrom held cs) := by
  -- On the characters, with the word that is held so far.
  induction cs generalizing held with
  | nil =>
      rw [wordsFrom]
      by_cases hne : held = []
      · subst hne
        exact inWords_nil
      · rw [if_neg (by simpa using hne), List.append_nil]
        exact inWords_singleton (isWord_reverse hne hheld)
  | cons c cs ih =>
      rw [wordsFrom]
      by_cases hc : isBlank c = true
      · -- A blank ends the word that is held, if there is one.
        have hrest : InWords (c :: cs) (wordsFrom [] cs) :=
          (ih (List.forall_mem_nil _)).cons_blank hc
        rw [if_pos hc]
        by_cases hne : held = []
        · subst hne
          exact hrest
        · rw [if_neg (by simpa using hne)]
          exact .cons_word (isWord_reverse hne hheld) (wordEnds_cons hc cs) hrest
      · -- Any other character goes on with it.
        rw [if_neg hc]
        rw [Bool.not_eq_true] at hc
        have hmore := ih (List.forall_mem_cons.mpr ⟨hc, hheld⟩)
        rwa [List.reverse_cons, List.append_assoc, List.singleton_append] at hmore

/-- The words that are read are those in the text. -/
theorem words_eq_iff : words cs = found ↔ InWords cs found := by
  constructor
  · rintro rfl
    exact inWords_wordsFrom (List.forall_mem_nil _) cs
  · exact InWords.words_eq

/-- Every text is divided into its words. -/
theorem inWords_words (cs : List Char) : InWords cs (words cs) :=
  words_eq_iff.mp rfl

theorem InWords.isWord (h : InWords cs found) : ∀ word ∈ found, IsWord word := by
  induction h with
  | blank => exact fun word hmem => nomatch hmem
  | word _ hword _ _ ih => exact List.forall_mem_cons.mpr ⟨hword, ih⟩

end Reading

section Writing

variable {mark : List Char} {parts more : List (List Char)}

/-- Words with a space between each two are found, and so is what is behind the last one if it does
not go on with that. -/
theorem InWords.joined (hne : parts ≠ []) (h : ∀ part ∈ parts, IsWord part)
    (hmark : WordEnds mark) (hmore : InWords mark more) :
    InWords ([' '].intercalate parts ++ mark) (parts ++ more) := by
  induction parts with
  | nil => exact absurd rfl hne
  | cons part parts ih =>
      rcases List.forall_mem_cons.mp h with ⟨hpart, hparts⟩
      -- The mark is behind the last word, and blanks are between the others.
      by_cases hlast : parts = []
      · subst hlast
        rw [List.intercalate_singleton]
        exact .cons_word hpart hmark hmore
      · rw [List.intercalate_cons_of_ne_nil hlast]
        simp only [List.append_assoc, List.cons_append, List.nil_append]
        exact .cons_word hpart (wordEnds_cons rfl _) ((ih hlast hparts).cons_blank rfl)

/-- What has no blank goes on with the last word, and makes no other. -/
theorem InWords.extended (hne : parts ≠ []) (h : ∀ part ∈ parts, IsWord part)
    (hmark : ∀ c ∈ mark, isBlank c = false) :
    ∃ found, found.length = parts.length ∧ InWords ([' '].intercalate parts ++ mark) found := by
  induction parts with
  | nil => exact absurd rfl hne
  | cons part parts ih =>
      rcases List.forall_mem_cons.mp h with ⟨hpart, hparts⟩
      -- The mark goes on with the last word.
      by_cases hlast : parts = []
      · subst hlast
        have hword : IsWord (part ++ mark) :=
          ⟨List.append_ne_nil_of_left_ne_nil hpart.ne_nil mark,
            List.forall_mem_append.mpr ⟨hpart.not_blank, hmark⟩⟩
        rw [List.intercalate_singleton]
        exact ⟨[part ++ mark], rfl, inWords_singleton hword⟩
      · rcases ih hlast hparts with ⟨found, hlength, hfound⟩
        refine ⟨part :: found, by rw [List.length_cons, List.length_cons, hlength], ?_⟩
        rw [List.intercalate_cons_of_ne_nil hlast]
        simp only [List.append_assoc, List.cons_append, List.nil_append]
        exact .cons_word hpart (wordEnds_cons rfl _) (hfound.cons_blank rfl)

end Writing

end Text

end Liquid
