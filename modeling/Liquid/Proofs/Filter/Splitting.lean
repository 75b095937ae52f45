import Liquid.Environment
import Liquid.Proofs.Filter.Call
import Liquid.Proofs.Text.Search
import Mathlib.Data.List.DropRight

/-!
# Splitting and Joining

What splitting loses, and what it finds again. Of a text that is split at a
separator only the empty parts at the end are dropped. Each of these is a copy of
the separator behind what the other parts make up. That is also true of a text
that is nothing but copies, where no part is left. Without a separator every
character is a part and nothing is lost.

The parts of a list come back if they are joined with a character that is in none
of them and the last of them is not empty. A list of no parts is such a list.

A space is no separator like the others. It stands for all runs of blanks.

## Main definitions

* `Filter.Splits`: What splitting and joining again make of a text.

## Theorems

* `Filter.exists_copies`: The parts that are dropped are separators at the end.
* `Filter.splitText_intercalate`: Splitting what is joined with a character.
* `Filter.split_and_join`: Both filters.
-/

namespace Liquid

open Text

namespace Filter

/-- The text that a value shows is split into parts, of which the last one is not empty. Joined
again, they are the text without some copies of the separator at its end. -/
structure Splits (split join : Value → Noted FilterFailure Value) (v : Value) (separator : String)
    (parts : List String) (joined : String) : Prop where
  split_eq : split v = .ok (.array (parts.map .string))
  join_eq : join (.array (parts.map .string)) = .ok (.string joined)
  getLast?_ne : parts.getLast? ≠ some ""
  copies : separator ≠ "" → ∃ count,
    v.display.toList = joined.toList ++ (List.replicate count separator.toList).flatten
  characters : separator = "" → v.display = joined

section Parts

variable {separator cs : List Char} {parts : List (List Char)}

/-- No empty part is left at the end. -/
theorem getLast?_dropEmptyEnd (parts : List (List Char)) :
    (dropEmptyEnd parts).getLast? ≠ some [] := by
  intro hlast
  have hne : parts.rdropWhile List.isEmpty ≠ [] := by
    intro hnil
    rw [show dropEmptyEnd parts = [] from hnil] at hlast
    cases hlast
  have hempty := List.rdropWhile_last_not List.isEmpty parts hne
  have heq : (parts.rdropWhile List.isEmpty).getLast hne = [] :=
    Option.some.inj ((List.getLast?_eq_some_getLast hne).symm.trans hlast)
  rw [heq] at hempty
  exact hempty rfl

theorem dropEmptyEnd_eq_self (h : parts.getLast? ≠ some []) : dropEmptyEnd parts = parts := by
  refine List.rdropWhile_eq_self_iff.mpr fun hne hempty => h ?_
  rw [List.getLast?_eq_some_getLast hne, List.isEmpty_iff.mp hempty]

/-- Whether there are parts before it or not, an empty part at the end adds a separator or nothing
to the text. -/
theorem exists_copies (separator : List Char) (parts : List (List Char)) :
    ∃ count, separator.intercalate parts =
      separator.intercalate (dropEmptyEnd parts) ++ (List.replicate count separator).flatten := by
  induction parts using List.reverseRecOn with
  | nil => exact ⟨0, rfl⟩
  | append_singleton parts part ih =>
      have hdrop : dropEmptyEnd (parts ++ [part]) =
          if part.isEmpty = true then dropEmptyEnd parts else parts ++ [part] :=
        List.rdropWhile_concat ..
      rw [hdrop]
      -- An empty part at the end is one more copy of the separator.
      by_cases hpart : part = []
      · subst hpart
        rw [if_pos List.isEmpty_nil]
        by_cases hparts : parts = []
        · subst hparts
          exact ⟨0, rfl⟩
        · rcases ih with ⟨count, hcount⟩
          refine ⟨count + 1, ?_⟩
          rw [intercalate_append hparts (List.cons_ne_nil _ _), List.intercalate_singleton,
            List.append_nil, hcount, List.replicate_succ', List.flatten_append,
            List.flatten_singleton, List.append_assoc]
      · rw [if_neg (by simpa using hpart)]
        exact ⟨0, (List.append_nil _).symm⟩

/-- Splitting is cutting at each occurrence, without the empty end. -/
theorem splitText_eq (hne : separator ≠ []) (hspace : separator ≠ [' ']) :
    splitText separator cs = dropEmptyEnd (pieces separator cs) := by
  unfold splitText
  rw [if_neg (by simpa using hspace), if_neg (by simpa using hne)]

theorem splitText_nil (cs : List Char) : splitText [] cs = cs.map fun c => [c] :=
  rfl

theorem intercalate_characters (cs : List Char) :
    [].intercalate (cs.map fun c => [c]) = cs := by
  induction cs with
  | nil => rfl
  | cons c cs ih =>
      by_cases hcs : cs = []
      · rw [hcs]
        rfl
      · have hmap : cs.map (fun c => [c]) ≠ [] := fun hnil => hcs (List.map_eq_nil_iff.mp hnil)
        rw [List.map_cons, List.intercalate_cons_of_ne_nil hmap, ih]
        rfl

theorem getLast?_splitText (hspace : separator ≠ [' ']) :
    (splitText separator cs).getLast? ≠ some [] := by
  by_cases hne : separator = []
  · subst hne
    rw [splitText_nil, List.getLast?_map]
    intro hlast
    rcases Option.map_eq_some_iff.mp hlast with ⟨c, -, hc⟩
    cases hc
  · rw [splitText_eq hne hspace]
    exact getLast?_dropEmptyEnd _

/-- Joined again, only copies of the separator at the end are missing. -/
theorem splitText_copies (hne : separator ≠ []) (hspace : separator ≠ [' ']) :
    ∃ count, cs = separator.intercalate (splitText separator cs) ++
      (List.replicate count separator).flatten := by
  rcases exists_copies separator (pieces separator cs) with ⟨count, hcount⟩
  rw [intercalate_pieces] at hcount
  rw [splitText_eq hne hspace]
  exact ⟨count, hcount⟩

/-- What is joined with a character that it does not have is split again. -/
theorem splitText_intercalate {c : Char} (hspace : c ≠ ' ') (h : ∀ part ∈ parts, c ∉ part)
    (hlast : parts.getLast? ≠ some []) : splitText [c] ([c].intercalate parts) = parts := by
  rw [splitText_eq (List.cons_ne_nil c []) (by simpa using hspace)]
  by_cases hparts : parts = []
  · -- No parts make an empty text, and that is a single empty piece.
    subst hparts
    rw [List.intercalate_nil, pieces_of_none rfl]
    rfl
  · rw [pieces_intercalate hparts h]
    exact dropEmptyEnd_eq_self hlast

end Parts

section Filters

/-- The filter that splits a text. -/
def splitter : Filter :=
  .ofBinary "split" fun v separator =>
    .ok (.array ((splitText (charsOf separator) (charsOf v)).map fun part =>
      .string (String.ofList part)))

/-- The parts that it gives. -/
def partsOf (separator cs : List Char) : List String :=
  (splitText separator cs).map String.ofList

variable {c : Char} {separator : List Char} {parts : List String}

theorem splitter_apply (v w : Value) (rest : List Value) (options : Table Value) :
    splitter.apply v (w :: rest) options =
      .ok (.array ((partsOf w.display.toList v.display.toList).map .string)) := by
  rw [splitter, ofBinary_apply, partsOf, List.map_map]
  rfl

theorem join_apply (parts : List String) (w : Value) (rest : List Value) (options : Table Value) :
    (ofOptional "join" join).apply (.array (parts.map .string)) (w :: rest) options =
      .ok (.string (w.display.intercalate parts)) := by
  have hshown : (parts.map Value.string).map Value.display = parts := by
    rw [List.map_map]
    exact List.map_id' parts
  rw [ofOptional_apply]
  change Noted.ok (Value.string
    (w.display.intercalate ((parts.map Value.string).map Value.display))) = _
  rw [hshown]

theorem toList_partsOf (separator cs : List Char) :
    (partsOf separator cs).map String.toList = splitText separator cs := by
  rw [partsOf, List.map_map]
  exact List.map_id'' (fun _ => String.toList_ofList) _

/-- Texts are joined by their characters. -/
theorem toList_joined (separator : String) (cs : List Char) :
    (separator.intercalate (partsOf separator.toList cs)).toList =
      separator.toList.intercalate (splitText separator.toList cs) := by
  rw [String.toList_intercalate, toList_partsOf]

theorem getLast?_toList (h : parts.getLast? ≠ some "") :
    (parts.map String.toList).getLast? ≠ some [] := by
  intro hlast
  rw [List.getLast?_map] at hlast
  rcases Option.map_eq_some_iff.mp hlast with ⟨last, hfound, hnil⟩
  exact h (hfound.trans (congrArg some (String.toList_injective hnil)))

theorem getLast?_partsOf (hspace : separator ≠ [' ']) (cs : List Char) :
    (partsOf separator cs).getLast? ≠ some "" := by
  intro hlast
  have hparts : ((partsOf separator cs).map String.toList).getLast? = some [] := by
    rw [List.getLast?_map, hlast]
    rfl
  rw [toList_partsOf] at hparts
  exact getLast?_splitText hspace hparts

theorem partsOf_intercalate (hspace : c ≠ ' ') (h : ∀ part ∈ parts, c ∉ part.toList)
    (hlast : parts.getLast? ≠ some "") :
    partsOf [c] ((String.singleton c).intercalate parts).toList = parts := by
  have hparts : ∀ part ∈ parts.map String.toList, c ∉ part := by
    intro part hpart
    rcases List.mem_map.mp hpart with ⟨text, htext, rfl⟩
    exact h text htext
  rw [partsOf, String.toList_intercalate, String.toList_singleton,
    splitText_intercalate hspace hparts (getLast?_toList hlast), List.map_map]
  exact List.map_id'' (fun _ => String.ofList_toList) _

/-- The two laws of splitting, for the parts of any text. -/
theorem splits_partsOf {v w : Value} (hspace : w.display ≠ " ") (rest : List Value)
    (options : Table Value) :
    Splits (splitter.apply · (w :: rest) options)
      ((ofOptional "join" join).apply · (w :: rest) options) v w.display
      (partsOf w.display.toList v.display.toList)
      (w.display.intercalate (partsOf w.display.toList v.display.toList)) := by
  have hspace : w.display.toList ≠ [' '] := fun heq => hspace (String.toList_injective heq)
  refine ⟨splitter_apply .., join_apply .., getLast?_partsOf hspace _, ?_, ?_⟩
  -- With a separator the parts are joined to what they were split from, but for empty parts at the
  -- end.
  · intro hne
    rw [toList_joined]
    exact splitText_copies (fun hnil => hne (String.toList_injective hnil)) hspace
  -- Without one they are the characters.
  · intro hempty
    apply String.toList_injective
    rw [toList_joined, hempty]
    exact (intercalate_characters _).symm

/-- For any value and any separator but a space, what splitting and joining give. For any character
but a space, what joining and splitting give for parts without it. -/
theorem split_and_join (settings : Settings) :
    ∃ split join, (Environment.create settings {}).1.filters.get? "split" = some split ∧
      (Environment.create settings {}).1.filters.get? "join" = some join ∧
      ∀ (w : Value) (rest : List Value) (options : Table Value),
        (∀ v, w.display ≠ " " → ∃ parts joined,
          Splits (split.apply · (w :: rest) options) (join.apply · (w :: rest) options) v w.display
            parts joined) ∧
        ∀ (c : Char) (parts : List String), w.display = String.singleton c → c ≠ ' ' →
          (∀ part ∈ parts, c ∉ part.toList) → parts.getLast? ≠ some "" →
            ∃ joined,
              join.apply (.array (parts.map .string)) (w :: rest) options = .ok (.string joined) ∧
              split.apply (.string joined) (w :: rest) options =
                .ok (.array (parts.map .string)) := by
  refine ⟨splitter, .ofOptional "join" join, rfl, rfl, fun w rest options => ⟨?_, ?_⟩⟩
  · intro v hspace
    exact ⟨_, _, splits_partsOf hspace rest options⟩
  · intro c parts hc hspace hparts hlast
    refine ⟨_, join_apply .., ?_⟩
    rw [splitter_apply, Value.display, hc, String.toList_singleton,
      partsOf_intercalate hspace hparts hlast]

/-- A separator that overlaps with itself, and stands twice at the end. Parts of which the first and
an inner one are empty. -/
theorem split_and_join_overlapping :
    let parts : List String := ["", "x", "", "y"]
    (Value.string "aa").display ≠ " " ∧
      splitter.apply (.string "baaaa") [.string "aa"] [] = .ok (.array (["b"].map .string)) ∧
      (∃ count, "baaaa".toList = "b".toList ++ (List.replicate count "aa".toList).flatten) ∧
      (∀ part ∈ parts, ',' ∉ part.toList) ∧ parts.getLast? ≠ some "" ∧
      splitter.apply (.string ",x,,y") [.string ","] [] = .ok (.array (parts.map .string)) := by
  intro parts
  have hspace : (Value.string "aa").display ≠ " " := by simp [Value.display]
  have hparts : ∀ part ∈ parts, ',' ∉ part.toList := by simp [parts]
  have hlast : parts.getLast? ≠ some "" := by simp [parts]
  -- The separator is found twice behind the first character.
  have hpieces : pieces "aa".toList "baaaa".toList = [['b'], [], []] := by
    simp [pieces, cut?, dropStart?]
  have hsplit : splitter.apply (.string "baaaa") [.string "aa"] [] =
      .ok (.array (["b"].map .string)) := by
    rw [splitter_apply, partsOf, splitText_eq (by simp [Value.display]) (by simp [Value.display]),
      Value.display, Value.display, hpieces]
    rfl
  have hjoin : (ofOptional "join" join).apply (.array (["b"].map .string)) [.string "aa"] [] =
      .ok (.string "b") := rfl
  rcases split_and_join {} with ⟨found, joiner, hfound, hjoiner, h⟩
  have hfound' : found = splitter := (Option.some.inj hfound).symm
  have hjoiner' : joiner = ofOptional "join" join := (Option.some.inj hjoiner).symm
  subst hfound' hjoiner'
  refine ⟨hspace, hsplit, ?_, hparts, hlast, ?_⟩
  · rcases (h (.string "aa") [] []).1 (.string "baaaa") hspace with ⟨found, joined, hsplits⟩
    have hfound : found.map Value.string = ["b"].map .string := by
      have heq := hsplits.split_eq.symm.trans hsplit
      injection heq with _ hresult
      exact Value.array.inj (Except.ok.inj hresult)
    have hjoined : joined = "b" := by
      have heq := hsplits.join_eq
      rw [hfound, hjoin] at heq
      cases heq
      rfl
    subst hjoined
    exact hsplits.copies (by simp [Value.display])
  · rcases (h (.string ",") [] []).2 ',' parts rfl (by decide) hparts hlast with
      ⟨joined, hjoined, hsplit⟩
    have hjoin : (ofOptional "join" join).apply (.array (parts.map .string)) [.string ","] [] =
        .ok (.string ",x,,y") := rfl
    rw [hjoin] at hjoined
    cases hjoined
    exact hsplit

end Filters

end Filter

end Liquid
