import Liquid.Text.Blank
import Liquid.Text.Digit
import Liquid.Text.Search
import Liquid.Text.Word

/-!
# Lexemes

The words of the expression language: strings in either quote, numbers with an
optional minus, names, operators and punctuation, between any blanks. A name
may hold hyphens and end in a question mark, and a few names are keywords.

At each place the kinds are tried in a fixed order and the first that applies
is taken at its full length. So a minus belongs to the digits behind it, a
number with a point needs digits on both sides of it, and two points are one
sign.

The last lexeme is always the end of the source.

## Main definitions

* `Lexeme`: A word, its kind and where it starts.
* `Lexeme.Fault`: Why a source has no lexemes.
* `Lexeme.extent?`: The kind and length of the word at the start of a text.
* `Lexeme.scan`: The lexemes of a source.
-/

namespace Liquid

/-- The kinds of words. -/
inductive Lexeme.Kind
  | string
  | integer
  | decimal
  | identifier
  | keyword
  | operator
  | symbol
  | stop
deriving DecidableEq

/-- A word of the expression language. The text of a string stands without its quotes. -/
structure Lexeme where
  kind : Lexeme.Kind
  text : String
  offset : Nat
deriving DecidableEq

namespace Lexeme

/-- Why a source has no lexemes. -/
inductive Fault
  | unterminatedString
  | unexpectedCharacter (c : Char)
deriving DecidableEq

/-- The names that are keywords. -/
def keywords : List String :=
  ["and", "or", "contains", "true", "false", "nil", "null"]

/-- The operators, no one of them behind a shorter one that starts it. -/
def operators : List (List Char) :=
  ["==".toList, "!=".toList, "<>".toList, ">=".toList, "<=".toList, ">".toList, "<".toList]

/-- The punctuation, the two points before the single one. -/
def symbols : List (List Char) :=
  ["..".toList, "|".toList, ":".toList, ",".toList, ".".toList, "[".toList, "]".toList,
    "(".toList, ")".toList]

/-- Whether a name may start with the character. -/
def startsName (c : Char) : Bool :=
  c.isAlpha || c == '_'

/-- Whether a name may go on with the character. -/
def continuesName (c : Char) : Bool :=
  Text.isWordChar c || c == '-'

/-- The length of the digits at the start of the text. -/
def digitSpan (cs : List Char) : Nat :=
  (cs.takeWhile Text.isDigit).length

/-- The kind and length of the number at the start of the text. -/
def number? (cs : List Char) : Option (Kind × Nat) :=
  let sign := if cs.head? == some '-' then 1 else 0
  let whole := digitSpan (cs.drop sign)
  let rest := cs.drop (sign + whole)
  -- A point without digits behind it is no part of the number.
  let places := if rest.head? == some '.' then digitSpan (rest.drop 1) else 0
  if whole == 0 then none
  else if places == 0 then some (.integer, sign + whole)
  else some (.decimal, sign + whole + 1 + places)

/-- The length of the string at the start of the text, quotes included. -/
def stringSpan? : List Char → Option Nat
  | c :: cs =>
    if (c == '"' || c == '\'') && cs.contains c then some ((cs.takeWhile (· != c)).length + 2)
    else none
  | [] => none

/-- The length of the name at the start of the text. -/
def nameSpan? : List Char → Option Nat
  | c :: cs =>
    if startsName c then
      let inside := cs.takeWhile continuesName
      some (1 + inside.length + if (cs.drop inside.length).head? == some '?' then 1 else 0)
    else none
  | [] => none

/-- The length of the first of the words that starts the text. -/
def wordSpan? (words : List (List Char)) (cs : List Char) : Option Nat :=
  (words.find? fun word => word.isPrefixOf cs).map List.length

/-- The kind and length of the word at the start of the text. -/
def extent? (cs : List Char) : Option (Kind × Nat) :=
  ((stringSpan? cs).map fun n => (.string, n)).or <|
  (number? cs).or <|
  ((wordSpan? operators cs).map fun n => (.operator, n)).or <|
  ((wordSpan? symbols cs).map fun n => (.symbol, n)).or <|
  (nameSpan? cs).map fun n =>
    (if keywords.contains (String.ofList (cs.take n)) then .keyword else .identifier, n)

/-- The lexeme of a kind that is spelled by the given characters. -/
def spelled (kind : Kind) (raw : List Char) (offset : Nat) : Lexeme :=
  match kind with
  | .string => ⟨.string, String.ofList (raw.drop 1).dropLast, offset⟩
  | kind => ⟨kind, String.ofList raw, offset⟩

/-- The lexemes of a text that starts at the given offset. -/
def scanFrom (offset : Nat) : List Char → Except Fault (List Lexeme)
  | [] => .ok [⟨.stop, "", offset⟩]
  | c :: cs =>
    if Text.isBlank c then scanFrom (offset + 1) cs
    else
      match extent? (c :: cs) with
      | some (kind, n) =>
        (scanFrom (offset + 1 + (n - 1)) (cs.drop (n - 1))).map
          (spelled kind ((c :: cs).take n) offset :: ·)
      | none =>
        .error (if c == '"' || c == '\'' then .unterminatedString else .unexpectedCharacter c)
termination_by cs => cs.length
decreasing_by
  · simp
  · simp only [List.length_drop, List.length_cons]
    omega

/-- The lexemes of a source, the end of it being the last. -/
def scan (source : String) : Except Fault (List Lexeme) :=
  scanFrom 0 source.toList

end Lexeme

end Liquid
