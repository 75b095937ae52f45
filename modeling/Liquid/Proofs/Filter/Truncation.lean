import Liquid.Environment
import Liquid.Proofs.Filter.Call
import Liquid.Proofs.Text.Words

/-!
# Truncation

How texts are cut to a number of characters or words, and that a text that has
been cut is not cut again.

A text that is too long loses its end to the mark. It has then just as many
characters as the limit says, unless the mark alone has more. In that case
nothing but the mark is left, and that is cut to itself.

Words are counted without the mark. So a text that has been cut may have more
words than it should have, but only if the mark has words of its own. If these
stand apart, they are what is cut off the second time, and the mark that is put
on is the one that they came from. If the mark only goes on with the last word,
there are no more words than before. A mark that does both, as one with a blank
inside does, grows with each cut.

## Main definitions

* `Filter.Cut`: A text cut to so many characters.
* `Filter.CutWords`: A text cut to so many words.

## Theorems

* `Filter.truncate_truncate`, `Filter.truncateWords_truncateWords`: Cutting
  twice.
* `Filter.truncations`: Both filters.
-/

namespace Liquid

open Text

namespace Filter

/-- What becomes of a text that is cut to a number of characters. -/
structure Cut (limit : Int) (mark cs cut : List Char) : Prop where
  whole : cs.length ≤ limit → cut = cs
  part : limit < cs.length → ∃ kept, kept <+: cs ∧
    (kept.length : Int) = max (limit - mark.length) 0 ∧ cut = kept ++ mark
  length : limit < cs.length → (cut.length : Int) = max limit mark.length

/-- What becomes of a text that is cut to a number of words, and to one at least. -/
structure CutWords (count : Int) (mark cs cut : List Char) (found : List (List Char)) : Prop where
  inWords : InWords cs found
  whole : found.length ≤ max count 1 → cut = cs
  part : max count 1 < found.length → ∃ kept, kept <+: found ∧
    (kept.length : Int) = max count 1 ∧ cut = [' '].intercalate kept ++ mark

section Characters

variable {limit : Int} {mark cs : List Char}

theorem truncate_of_le (h : cs.length ≤ limit) : truncate limit mark cs = cs :=
  if_pos h

/-- A longer text is cut so that the mark fits, if it does at all. -/
theorem truncate_of_lt (h : limit < cs.length) :
    truncate limit mark cs = cs.take (limit - mark.length).toNat ++ mark :=
  if_neg (by omega)

/-- A text is whole, or its start with the mark behind it. -/
theorem cut_truncate (limit : Int) (mark cs : List Char) :
    Cut limit mark cs (truncate limit mark cs) where
  whole h := truncate_of_le h
  part h := by
    refine ⟨_, List.take_prefix _ cs, ?_, truncate_of_lt h⟩
    rw [List.length_take]
    omega
  length h := by
    rw [truncate_of_lt h, List.length_append, List.length_take]
    omega

/-- What is cut once is not cut again. -/
theorem truncate_truncate (limit : Int) (mark cs : List Char) :
    truncate limit mark (truncate limit mark cs) = truncate limit mark cs := by
  have hcut := cut_truncate limit mark cs
  by_cases hwhole : cs.length ≤ limit
  · rw [hcut.whole hwhole, hcut.whole hwhole]
  · have hlong : limit < cs.length := by omega
    have hlength := hcut.length hlong
    by_cases hmark : (mark.length : Int) ≤ limit
    · exact truncate_of_le (by omega)
    · -- The mark is all that is left, and there is no room for anything else.
      have hnone : (limit - mark.length).toNat = 0 := by omega
      have hshort : limit < (truncate limit mark cs).length := by omega
      rw [truncate_of_lt hshort, truncate_of_lt hlong, hnone, List.take_zero, List.take_zero]

end Characters

section Words

variable {limit : Int} {mark cs : List Char} {found : List (List Char)}

theorem truncateWords_of_le (h : InWords cs found) (hle : found.length ≤ limit) :
    truncateWords limit mark cs = cs := by
  rw [← h.words_eq] at hle
  exact if_pos hle

/-- Of more words, the first ones are kept with single blanks between them. -/
theorem truncateWords_of_lt (h : InWords cs found) (hlt : limit < found.length) :
    truncateWords limit mark cs = [' '].intercalate (found.take limit.toNat) ++ mark := by
  rw [← h.words_eq] at hlt ⊢
  exact if_neg (by omega)

theorem cutWords_truncateWords (count : Int) (mark cs : List Char) :
    CutWords count mark cs (truncateWords (max count 1) mark cs) (words cs) where
  inWords := inWords_words cs
  whole hle := truncateWords_of_le (inWords_words cs) hle
  part hlt := by
    refine ⟨_, List.take_prefix _ _, ?_, truncateWords_of_lt (inWords_words cs) hlt⟩
    rw [List.length_take]
    omega

/-- Cut words stay, if the mark is part of the last one or words of its own. -/
theorem truncateWords_truncateWords (hlimit : 1 ≤ limit)
    (hmark : (∀ c ∈ mark, Text.isBlank c = false) ∨ WordEnds mark) (cs : List Char) :
    truncateWords limit mark (truncateWords limit mark cs) = truncateWords limit mark cs := by
  have hcs := inWords_words cs
  by_cases hwhole : (words cs).length ≤ limit
  · rw [truncateWords_of_le hcs hwhole, truncateWords_of_le hcs hwhole]
  · have hlong : limit < (words cs).length := by omega
    have hcut : truncateWords limit mark cs =
        [' '].intercalate ((words cs).take limit.toNat) ++ mark :=
      truncateWords_of_lt hcs hlong
    have hlength : ((words cs).take limit.toNat).length = limit.toNat := by
      rw [List.length_take]
      omega
    have hne : (words cs).take limit.toNat ≠ [] := by
      intro hnil
      rw [hnil, List.length_nil] at hlength
      omega
    have hwords : ∀ word ∈ (words cs).take limit.toNat, IsWord word :=
      fun word hword => hcs.isWord word (List.mem_of_mem_take hword)
    rw [hcut]
    -- The mark goes on with the last word, or ends it.
    rcases hmark with hmark | hmark
    · rcases InWords.extended hne hwords hmark with ⟨found, hfound, hjoined⟩
      exact truncateWords_of_le hjoined (by omega)
    · have hjoined := InWords.joined hne hwords hmark (inWords_words mark)
      by_cases hshort : ((words cs).take limit.toNat ++ words mark).length ≤ limit
      · exact truncateWords_of_le hjoined hshort
      · -- Only words of the mark are cut off.
        rw [truncateWords_of_lt hjoined (by omega), List.take_left' hlength]

end Words

section Filters

/-- The filter that cuts a text to a number of characters. -/
def truncater : Filter :=
  .ofOptionals "truncate" fun v limit mark =>
    textResult (truncate (countOf 50 limit) (markOf mark) (charsOf v))

/-- The filter that cuts a text to a number of words. -/
def wordTruncater : Filter :=
  .ofOptionals "truncatewords" fun v limit mark =>
    textResult (truncateWords (max (countOf 15 limit) 1) (markOf mark) (charsOf v))

variable (v mark : Value) (n : Int) (rest : List Value) (options : Table Value)

theorem truncater_apply : truncater.apply v (.integer n :: mark :: rest) options =
    .ok (.string (String.ofList (truncate n mark.display.toList v.display.toList))) := by
  rw [truncater, ofOptionals_apply, List.head?_cons, countOf_integer]
  rfl

theorem wordTruncater_apply : wordTruncater.apply v (.integer n :: mark :: rest) options =
    .ok (.string (String.ofList
      (truncateWords (max n 1) mark.display.toList v.display.toList))) := by
  rw [wordTruncater, ofOptionals_apply, List.head?_cons, countOf_integer]
  rfl

/-- For any value, count and mark, what the filters leave of the text that the value shows, and what
they make of that. -/
theorem truncations (settings : Settings) :
    ∃ truncate truncateWords,
      (Environment.create settings {}).1.filters.get? "truncate" = some truncate ∧
      (Environment.create settings {}).1.filters.get? "truncatewords" = some truncateWords ∧
      ∀ (v : Value) (n : Int) (mark : Value) (rest : List Value) (options : Table Value),
        let answer (w : Value) := truncate.apply w (.integer n :: mark :: rest) options
        let wordsAnswer (w : Value) := truncateWords.apply w (.integer n :: mark :: rest) options
        (∃ cut : String, answer v = .ok (.string cut) ∧
          Cut n mark.display.toList v.display.toList cut.toList ∧
          answer (.string cut) = .ok (.string cut)) ∧
        ∃ (cut : String) (found : List (List Char)), wordsAnswer v = .ok (.string cut) ∧
          CutWords n mark.display.toList v.display.toList cut.toList found ∧
          ((∀ c ∈ mark.display.toList, Text.isBlank c = false) ∨ WordEnds mark.display.toList →
            wordsAnswer (.string cut) = .ok (.string cut)) := by
  refine ⟨truncater, wordTruncater, rfl, rfl, fun v n mark rest options => ⟨?_, ?_⟩⟩
  -- By characters: what is cut is not cut again.
  · refine ⟨_, truncater_apply .., ?_, ?_⟩
    · rw [String.toList_ofList]
      exact cut_truncate n _ _
    · dsimp only
      rw [truncater_apply, Value.display, String.toList_ofList, truncate_truncate]
  -- By words: a mark may bring words of its own, unless it has no blank or starts with one.
  · refine ⟨_, words v.display.toList, wordTruncater_apply .., ?_, ?_⟩
    · rw [String.toList_ofList]
      exact cutWords_truncateWords n _ _
    · intro hmark
      dsimp only
      rw [wordTruncater_apply, Value.display, String.toList_ofList,
        truncateWords_truncateWords (by omega) hmark]

/-- A mark with words of its own, behind a blank. The text that it is put behind has more words than
it should have, and stays as it is. -/
theorem truncations_marked :
    let mark : Value := .string " and more"
    let answer (text : String) : Noted FilterFailure Value :=
      wordTruncater.apply (.string text) [.integer 2, mark] []
    ((∀ c ∈ mark.display.toList, Text.isBlank c = false) ∨ WordEnds mark.display.toList) ∧
      answer "one  two three" = .ok (.string "one two and more") ∧
      (2 : Int) < (words "one two and more".toList).length ∧
      answer "one two and more" = .ok (.string "one two and more") := by
  intro mark answer
  have hmark : WordEnds mark.display.toList := by
    have hblank : mark.display.toList = ' ' :: "and more".toList := by decide
    rw [hblank]
    exact wordEnds_cons (by decide) _
  have hcut : answer "one  two three" = .ok (.string "one two and more") := by
    have hchars : truncateWords (max 2 1) mark.display.toList
        (Value.string "one  two three").display.toList = "one two and more".toList := by
      decide
    refine (wordTruncater_apply ..).trans ?_
    rw [hchars, String.ofList_toList]
  -- With its mark, the text has more words than the limit.
  have hlonger : (2 : Int) < (words "one two and more".toList).length := by decide
  rcases truncations {} with ⟨_, found, -, hfound, h⟩
  have hfound' : found = wordTruncater := (Option.some.inj hfound).symm
  subst hfound'
  rcases (h (.string "one  two three") 2 mark [] []).2 with ⟨cut, _, hanswer, -, hagain⟩
  have hcut' : cut = "one two and more" := by
    have heq := hanswer.symm.trans hcut
    cases heq
    rfl
  subst hcut'
  exact ⟨.inr hmark, hcut, hlonger, hagain (.inr hmark)⟩

end Filters

end Filter

end Liquid
