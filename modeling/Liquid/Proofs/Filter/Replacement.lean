import Liquid.Environment
import Liquid.Proofs.Filter.Call
import Liquid.Proofs.Text.Replace

/-!
# Replacing and Removing

Six filters look for a text in another, three of them to put a third one in its
place and three to take it out. Of each three, one goes for all occurrences, one
for the first and one for the last. Taking a text out is putting nothing in its
place.

The filters for the last and for the first occurrence are mirror images: the one
does with texts what the other does with the reversed texts. Nothing needs to be
said of occurrences that overlap, nor of the empty text, which occurs everywhere.

## Main definitions

* `Filter.Occurrences`: Which occurrences a filter goes for.
* `Filter.Replacements`: What the six filters have to do with each other.

## Theorems

* `Filter.remover_apply`, `Filter.replacer_apply`: The answers of the filters.
* `Filter.replacements_mirrored`: The filters of the language.
-/

namespace Liquid

open Text (OccursAt)

namespace Filter

/-- Which occurrences of a text a filter goes for. -/
inductive Occurrences
  | all
  | first
  | last

namespace Occurrences

/-- The text with another in the place of the occurrences. -/
def replaced : Occurrences → List Char → List Char → List Char → List Char
  | all => Text.replaceAll
  | first => Text.replaceFirst
  | last => Text.replaceLast

/-- The name of the filter that takes the occurrences out. -/
def removerName : Occurrences → String
  | all => "remove"
  | first => "remove_first"
  | last => "remove_last"

/-- The name of the filter that puts a text in their place. -/
def replacerName : Occurrences → String
  | all => "replace"
  | first => "replace_first"
  | last => "replace_last"

end Occurrences

/-- What the filters that replace and remove have to do with each other, and with the one that
reverses. -/
structure Replacements
    (remove replace : Occurrences → Value → List Value → Noted FilterFailure Value)
    (reverse : Value → Noted FilterFailure Value) : Prop where
  answered : ∀ (which : Occurrences) (s t r : String) (rest : List Value), ∃ text : String,
    replace which (.string s) (.string t :: .string r :: rest) = .ok (.string text)
  mirrored : ∀ (s t r : String) (rest : List Value),
    replace .last (.string s) (.string t :: .string r :: rest) = do
      let s ← reverse (.string s)
      let t ← reverse (.string t)
      let r ← reverse (.string r)
      let replaced ← replace .first s (t :: r :: rest)
      reverse replaced
  removed : ∀ (which : Occurrences) (s t : String) (rest : List Value),
    remove which (.string s) (.string t :: rest) =
      replace which (.string s) (.string t :: .string "" :: rest)
  once : ∀ (s t r : String) (rest : List Value), t ≠ "" →
    (∃! offset, OccursAt t.toList s.toList offset) → ∀ which : Occurrences,
      replace which (.string s) (.string t :: .string r :: rest) =
        replace .all (.string s) (.string t :: .string r :: rest)
  absent : ∀ (s t : String) (rest : List Value),
    (∀ offset, ¬OccursAt t.toList s.toList offset) → ∀ which : Occurrences,
      remove which (.string s) (.string t :: rest) = .ok (.string s) ∧
        replace which (.string s) (.string t :: rest) = .ok (.string s)

/-- The filter that takes occurrences out. -/
def remover (which : Occurrences) : Filter :=
  .ofRemoval which.removerName which.replaced

/-- The filter that puts a text in their place. -/
def replacer (which : Occurrences) : Filter :=
  .ofReplacement which.replacerName which.replaced

section Answers

variable (which : Occurrences) (v t : Value) (rest : List Value) (options : Table Value)

theorem remover_apply : (remover which).apply v (t :: rest) options =
    .ok (.string (String.ofList (which.replaced t.display.toList [] v.display.toList))) := by
  rw [remover, ofRemoval, ofBinary_apply]
  rfl

theorem replacer_apply : (replacer which).apply v (t :: rest) options =
    .ok (.string (String.ofList (which.replaced t.display.toList
      ((rest.head?.map charsOf).getD []) v.display.toList))) := by
  rw [replacer, ofReplacement, ofTernary_apply]
  rfl

/-- A text that does not occur is not replaced, whatever would be put in its place. -/
theorem replaced_eq_self {needle text : List Char} (h : ¬needle <:+: text)
    (substitute : List Char) : which.replaced needle substitute text = text := by
  cases which with
  | all => exact Text.replaceAll_eq_self substitute h
  | first => exact Text.replaceFirst_eq_self substitute h
  | last => exact Text.replaceLast_eq_self substitute h

/-- If there is one occurrence, it is the first, the last and all of them. -/
theorem replaced_once {needle text : List Char} (hne : needle ≠ [])
    (h : ∃! offset, OccursAt needle text offset) (substitute : List Char) :
    which.replaced needle substitute text = Text.replaceAll needle substitute text := by
  have hfirst := Text.replaceAll_eq_replaceFirst substitute hne h
  cases which with
  | all => rfl
  | first => exact hfirst.symm
  | last => exact (Text.replaceLast_eq_replaceFirst substitute h).trans hfirst.symm

end Answers

/-- The six filters, by what they do to the characters. -/
theorem replacements (options : Table Value) :
    Replacements (fun which v args => (remover which).apply v args options)
      (fun which v args => (replacer which).apply v args options)
      (fun v => (ofUnary "reverse" reverse).apply v [] options) where
  answered which s t r rest := ⟨_, replacer_apply ..⟩
  mirrored s t r rest := by
    have hreverse (s : String) : (ofUnary "reverse" reverse).apply (.string s) [] options =
        .ok (.string (String.ofList s.toList.reverse)) :=
      ofUnary_apply ..
    rw [replacer_apply, hreverse, hreverse, hreverse]
    change _ = (replacer .first).apply _ _ options >>= _
    rw [replacer_apply]
    -- The last occurrence is the first one of the reversed texts.
    refine Eq.trans ?_ (hreverse _).symm
    simp only [Value.display, String.toList_ofList, List.head?_cons, Option.map_some,
      Option.getD_some, charsOf, Occurrences.replaced, Text.replaceLast_eq_reverse]
  removed which s t rest := by
    rw [remover_apply, replacer_apply]
    rfl
  once s t r rest hne h which := by
    have hne' : t.toList ≠ [] := fun hnil => hne (String.toList_eq_nil_iff.mp hnil)
    rw [replacer_apply, replacer_apply, Value.display, Value.display, replaced_once which hne' h]
    rfl
  absent s t rest h which := by
    have hinfix : ¬t.toList <:+: s.toList := by
      rw [← Text.exists_occursAt_iff, not_exists]
      exact h
    rw [remover_apply, replacer_apply, Value.display, Value.display, replaced_eq_self which hinfix,
      replaced_eq_self which hinfix, String.ofList_toList]
    exact ⟨rfl, rfl⟩

/-- For all texts, what the six filters for replacing and removing have to do with each other. -/
theorem replacements_mirrored (settings : Settings) :
    ∃ (remove replace : Occurrences → Filter) (reverse : Filter),
      (∀ which : Occurrences,
        (Environment.create settings {}).1.filters.get? which.removerName = some (remove which) ∧
        (Environment.create settings {}).1.filters.get? which.replacerName =
          some (replace which)) ∧
      (Environment.create settings {}).1.filters.get? "reverse" = some reverse ∧
      ∀ options : Table Value,
        Replacements (fun which v args => (remove which).apply v args options)
          (fun which v args => (replace which).apply v args options)
          (fun v => reverse.apply v [] options) := by
  refine ⟨remover, replacer, .ofUnary "reverse" reverse, fun which => ?_, rfl, replacements⟩
  cases which <;> exact ⟨rfl, rfl⟩

/-- A text that could overlap itself, where it occurs once and where it does not occur. -/
theorem replacements_mirrored_overlapping :
    let answer (which : Occurrences) (s : String) : Noted FilterFailure Value :=
      (replacer which).apply (.string s) [.string "aba", .string "x"] []
    "aba" ≠ "" ∧ (∃! offset, OccursAt "aba".toList "ababba".toList offset) ∧
      answer .last "ababba" = .ok (.string "xbba") ∧
      answer .last "ababba" = answer .all "ababba" ∧
      (∀ offset, ¬OccursAt "aba".toList "abba".toList offset) ∧
      answer .first "abba" = .ok (.string "abba") := by
  intro answer
  have hne : "aba" ≠ "" := by decide
  -- The text has the first letters of another occurrence in it, but not the whole.
  have honce : ∃! offset, OccursAt "aba".toList "ababba".toList offset := by
    have hsmall : ∀ offset ≤ "ababba".toList.length,
        OccursAt "aba".toList "ababba".toList offset → offset = 0 := by
      decide
    refine ⟨0, by decide, fun offset hoffset => hsmall offset ?_ hoffset⟩
    exact (Text.occursAt_iff_prefix.mp hoffset).1
  have habsent : ∀ offset, ¬OccursAt "aba".toList "abba".toList offset := by
    rw [← not_exists, Text.exists_occursAt_iff]
    decide
  rcases replacements_mirrored {} with ⟨_, replace, _, hnames, -, h⟩
  have hreplace (which : Occurrences) : replace which = replacer which := by
    have hname := (hnames which).2
    cases which <;> exact (Option.some.inj hname).symm
  have hanswer (which : Occurrences) (s : String) : answer which s =
      (replace which).apply (.string s) [.string "aba", .string "x"] [] := by
    rw [hreplace]
  refine ⟨hne, honce, rfl, ?_, habsent, ?_⟩
  · rw [hanswer, hanswer]
    exact (h []).once "ababba" "aba" "x" [] hne honce .last
  · rw [hanswer]
    exact ((h []).absent "abba" "aba" [.string "x"] habsent .first).2

end Filter

end Liquid
