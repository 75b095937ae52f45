import Liquid.Text.Printable

/-!
# Quoted Text

A text as a literal: between quotes, with everything that does not show
written as an escape. The quote is the single one, unless the text holds a
single quote and no double one; so a text with at most one kind of quote
needs no escaped quote.

## Main definitions

* `quoteFor`: The quote that a text is put between.
* `escaped`: How one character is written.
* `quoted`: The whole literal.
-/

namespace Liquid

namespace Text

/-- The quote that the text is put between. -/
def quoteFor (cs : List Char) : Char :=
  if cs.contains '\'' && !cs.contains '"' then '"' else '\''

/-- The number in hexadecimal, with at least `width` digits. -/
def hexOfWidth (width n : Nat) : List Char :=
  let digits := Nat.toDigits 16 n
  List.replicate (width - digits.length) '0' ++ digits

/-- How one character is written between the given quotes. -/
def escaped (quote c : Char) : List Char :=
  if c == quote || c == '\\' then ['\\', c]
  else if c == '\t' then ['\\', 't']
  else if c == '\n' then ['\\', 'n']
  else if c == '\r' then ['\\', 'r']
  else if isPrintable c then [c]
  else if c.toNat < 0x100 then '\\' :: 'x' :: hexOfWidth 2 c.toNat
  else if c.toNat < 0x10000 then '\\' :: 'u' :: hexOfWidth 4 c.toNat
  else '\\' :: 'U' :: hexOfWidth 8 c.toNat

/-- The text as a literal, quotes included. -/
def quotedChars (cs : List Char) : List Char :=
  let quote := quoteFor cs
  quote :: cs.flatMap (escaped quote) ++ [quote]

/-- The text as a literal, quotes included. -/
def quoted (text : String) : String :=
  String.ofList (quotedChars text.toList)

end Text

end Liquid
