import Liquid.Filter
import Liquid.Html.Tags
import Liquid.Text.Case
import Liquid.Text.Search
import Liquid.Value.Item

/-!
# Filters for Texts

Filters on the text that a value shows. Arguments are taken by the text they
show too, save counts, which are taken as numbers; a count that is none is as
good as missing. None of these filters rejects anything.

## Main definitions

* `Filter.window`: The part of a list that a start and a length select.
* `Filter.splitText`: The parts of a text around a separator.
* `Filter.truncate`, `Filter.truncateWords`: A text cut to a length.
* `Filter.textFilters`: The filters.
-/

namespace Liquid

namespace Filter

/-- The characters that a value shows. -/
def charsOf (v : Value) : List Char :=
  v.display.toList

/-- A text as the result of a filter. -/
def textResult (cs : List Char) : Except FilterFailure Value :=
  .ok (.string (String.ofList cs))

/-- A filter on the characters of a text. -/
def ofChars (name : String) (f : List Char → List Char) : Filter :=
  ofUnary name fun v => textResult (f (charsOf v))

/-- A filter on the characters of a text and of an argument. -/
def ofCharsBinary (name : String) (f : List Char → List Char → List Char) : Filter :=
  ofBinary name fun v w => textResult (f (charsOf v) (charsOf w))

/-- A filter that puts a text in the place of another, by default nothing. -/
def ofReplacement (name : String) (f : List Char → List Char → List Char → List Char) : Filter :=
  ofTernary name fun v target substitute =>
    textResult (f (charsOf target) ((substitute.map charsOf).getD []) (charsOf v))

/-- A filter that takes a text out. -/
def ofRemoval (name : String) (f : List Char → List Char → List Char → List Char) : Filter :=
  ofBinary name fun v target => textResult (f (charsOf target) [] (charsOf v))

/-- A count, with a default where it is missing or no number. -/
def countOf (default : Int) (v : Option Value) : Int :=
  (v.bind Value.integer?).getD default

/-- The text without its line ends. -/
def stripNewlines (cs : List Char) : List Char :=
  Text.replaceAll ['\n'] [] (Text.replaceAll ['\r', '\n'] [] cs)

/-- The text with a break before each line end. -/
def newlineToBreak (cs : List Char) : List Char :=
  Text.replaceAll ['\n'] "<br />\n".toList (Text.replaceAll ['\r', '\n'] ['\n'] cs)

/-- The list without its empty members at the end. -/
def dropEmptyEnd (parts : List (List Char)) : List (List Char) :=
  (parts.reverse.dropWhile List.isEmpty).reverse

/-- The parts of a text around a separator, without empty ones at the end. A space separates as
runs of blanks do, and nothing separates every character. -/
def splitText (separator cs : List Char) : List (List Char) :=
  if separator == [' '] then Text.words cs
  else if separator.isEmpty then cs.map fun c => [c]
  else dropEmptyEnd (Text.pieces separator cs)

/-- The part of a list of `length` members from `start` on. A negative start counts from the end;
members before the beginning count into the length. -/
def window {α : Type} (start length : Int) (xs : List α) : List α :=
  -- What is still negative then lies before the beginning.
  let start := if start < 0 then start + xs.length else start
  let (start, length) := if start < 0 then (0, length + start) else (start, length)
  (xs.drop start.toNat).take length.toNat

/-- The part of an array, or of the text of any other value. -/
def slice (v start : Value) (length : Option Value) : Except FilterFailure Value :=
  let start := countOf 0 (some start)
  let length := countOf 1 length
  match v with
  | .array items => .ok (.array (window start length items))
  | _ => textResult (window start length (charsOf v))

/-- The text, if it has no more characters than the limit, or as much of it as leaves room for the
mark that it was cut. -/
def truncate (limit : Int) (mark cs : List Char) : List Char :=
  if cs.length ≤ limit then cs else cs.take (limit - mark.length).toNat ++ mark

/-- The text, if it has no more words than the limit, or that many words and the mark. -/
def truncateWords (limit : Int) (mark cs : List Char) : List Char :=
  let words := Text.words cs
  if words.length ≤ limit then cs else [' '].intercalate (words.take limit.toNat) ++ mark

/-- The mark that a text was cut. -/
def markOf (v : Option Value) : List Char :=
  (v.map charsOf).getD ['.', '.', '.']

/-- The number of characters, items or entries; zero for a value that has none. -/
def size : Value → Except FilterFailure Value
  | .string s => .ok (.integer s.length)
  | .array items => .ok (.integer items.length)
  | .dictionary entries => .ok (.integer entries.length)
  | .range start stop =>
    match Value.rangeLength start stop with
    | .ok length => .ok (.integer length)
    | .error crash => .error (.crashed crash)
  | _ => .ok (.integer 0)

/-- The filters for texts. -/
def textFilters : List Filter :=
  [ofCharsBinary "append" fun cs suffix => cs ++ suffix,
    ofCharsBinary "prepend" fun cs start => start ++ cs,
    ofChars "capitalize" Text.capitalized,
    ofChars "downcase" Text.lower,
    ofChars "upcase" Text.upper,
    ofChars "strip" Text.strip,
    ofChars "lstrip" Text.stripLeft,
    ofChars "rstrip" Text.stripRight,
    ofChars "strip_newlines" stripNewlines,
    ofChars "newline_to_br" newlineToBreak,
    ofChars "strip_html" Html.stripTags,
    ofRemoval "remove" Text.replaceAll,
    ofRemoval "remove_first" Text.replaceFirst,
    ofRemoval "remove_last" Text.replaceLast,
    ofReplacement "replace" Text.replaceAll,
    ofReplacement "replace_first" Text.replaceFirst,
    ofReplacement "replace_last" Text.replaceLast,
    ofBinary "split" fun v separator =>
      .ok (.array ((splitText (charsOf separator) (charsOf v)).map fun part =>
        .string (String.ofList part))),
    ofTernary "slice" slice,
    ofOptionals "truncate" fun v limit mark =>
      textResult (truncate (countOf 50 limit) (markOf mark) (charsOf v)),
    ofOptionals "truncatewords" fun v limit mark =>
      -- At least one word is kept, whatever the count.
      textResult (truncateWords (max (countOf 15 limit) 1) (markOf mark) (charsOf v)),
    ofUnary "size" size]

end Filter

end Liquid
