import Liquid.Text.Digit

/-!
# Escaping

The five characters with a meaning in HTML, written as character references.
`escape` writes every one of them so, and therefore writes the ampersand of a
reference that is already there a second time. `escapeOnce` keeps an ampersand
that begins a complete reference.

## Main definitions

* `reserved?`: The reference for a character that has a meaning in HTML.
* `beginsReference`: Whether a complete reference follows an ampersand.
* `escape`, `escapeOnce`: The two ways of escaping.
-/

namespace Liquid

namespace Html

/-- The reference that stands for a character with a meaning in HTML. -/
def reserved? : Char → Option (List Char)
  | '&' => some "&amp;".toList
  | '<' => some "&lt;".toList
  | '>' => some "&gt;".toList
  | '"' => some "&quot;".toList
  | '\'' => some "&#39;".toList
  | _ => none

/-- The text with every character that has a meaning in HTML written as a reference. -/
def escape (cs : List Char) : List Char :=
  cs.flatMap fun c => (reserved? c).getD [c]

/-- Whether the character is a hexadecimal digit. -/
def isHexDigit (c : Char) : Bool :=
  c.isDigit || ('a' ≤ c && c ≤ 'f') || ('A' ≤ c && c ≤ 'F')

/-- Whether a non-empty run of characters of the kind, and then a semicolon, start the text. -/
def runToSemicolon (kind : Char → Bool) (cs : List Char) : Bool :=
  !(cs.takeWhile kind).isEmpty && (cs.dropWhile kind).head? == some ';'

/-- Whether what follows an ampersand makes a complete reference of it: a name, or the number of
a character in decimal or hexadecimal, and a semicolon. -/
def beginsReference : List Char → Bool
  | '#' :: c :: cs =>
    runToSemicolon Text.isDigit (c :: cs)
      || ((c == 'x' || c == 'X') && runToSemicolon isHexDigit cs)
  | c :: cs => c.isAlpha && runToSemicolon Char.isAlphanum (c :: cs)
  | [] => false

/-- The text escaped, except for the ampersands of the references that it holds. -/
def escapeOnce : List Char → List Char
  | [] => []
  | c :: cs =>
    (if c == '&' && beginsReference cs then [c] else (reserved? c).getD [c]) ++ escapeOnce cs

end Html

end Liquid
