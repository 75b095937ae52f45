import Liquid.Text.CharSet

/-!
# Blanks

The blank characters: those that separate words and that stripping removes.
Besides the ASCII blanks they hold the four information separators and the
Unicode spaces, so the set is wider than the whitespace of `Char`.

## Main definitions

* `blanks`: The 29 blank characters.
* `isBlank`: Whether a character is blank.
* `stripLeft`: The text without its leading blanks.
* `stripRight`: The text without its trailing blanks.
* `strip`: The text without blanks at either end.
* `words`: The maximal runs of characters that are not blank.
-/

namespace Liquid

namespace Text

/-- The 29 blank characters. -/
def blanks : CharSet :=
  ⟨[
    9, 14, 28, 33, 133, 134, 160, 161, 5760, 5761, 8192, 8203, 8232, 8234, 8239, 8240, 8287, 8288,
    12288, 12289
  ]⟩

/-- Whether the character is blank. -/
def isBlank (c : Char) : Bool :=
  blanks.has c

/-- The text without its leading blanks. -/
def stripLeft (cs : List Char) : List Char :=
  cs.dropWhile isBlank

/-- The text without its trailing blanks. -/
def stripRight (cs : List Char) : List Char :=
  (cs.reverse.dropWhile isBlank).reverse

/-- The text without blanks at either end. -/
def strip (cs : List Char) : List Char :=
  stripRight (stripLeft cs)

/-- The words of a text, where `word` holds the one being read, last character first. -/
def wordsFrom (word : List Char) : List Char → List (List Char)
  | [] => if word.isEmpty then [] else [word.reverse]
  | c :: cs =>
    if isBlank c then
      if word.isEmpty then wordsFrom [] cs else word.reverse :: wordsFrom [] cs
    else
      wordsFrom (c :: word) cs

/-- The maximal runs of characters that are not blank, in order. -/
def words (cs : List Char) : List (List Char) :=
  wordsFrom [] cs

end Text

end Liquid
