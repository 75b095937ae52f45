import Liquid.Document.Layout

/-!
# Documents

The files that hold data or settings: data laid out by indentation, or flow
collections, of which the common notation of brackets, braces and double
quotes is a part. A document holds one datum. It may start with a line of three
hyphens and end with one of three points.

What a document is wanted for is a mapping. An empty document serves as an
empty one, and so does any datum that counts as nothing: null, false, zero, and
the empty text and list.

## Main definitions

* `Document.read?`: The datum that a document holds.
* `Document.entries?`: The entries of a datum that serves as a mapping.
-/

namespace Liquid

namespace Document

/-- Whether a character may stand in a document. -/
def isAllowed (c : Char) : Bool :=
  c == '\t' || c == '\n' || c == '\r' || c == '\u0085' || (' ' ≤ c && c ≤ '~')
    || ('\u00a0' ≤ c && c != '\ufeff' && c != '\ufffe' && c != '\uffff')

/-- The lines of a text. -/
def lines (cs : List Char) : List (List Char) :=
  cs.splitOn '\n'

/-- Whether a line is the given mark. -/
def isMark (mark line : List Char) : Bool :=
  Text.stripRight line == mark

/-- The lines between the marks that start and end a document, where only empty lines may follow
the latter. -/
def unmarked? (lines : List (List Char)) : Option (List (List Char)) :=
  let isEmpty (line : List Char) : Bool := line.all Quotation.isBlank
  let isNote (line : List Char) : Bool := isEmpty line || line.head? == some '#'
  let lines :=
    match lines.dropWhile isNote with
    | first :: rest => if isMark ['-', '-', '-'] first then rest else lines
    | [] => []
  let body := lines.takeWhile fun line => !isMark ['.', '.', '.'] line
  if (lines.drop (body.length + 1)).all isNote then some body else none

/-- The datum that a document holds. -/
def read? (text : String) : Option Datum := do
  let cs := text.toList
  if !cs.all isAllowed then none
  else
    let body ← unmarked? (lines cs)
    let cs := ['\n'].intercalate body
    let (datum, rest) ← Layout.block? (4 * cs.length + 4) 0 cs
    match Layout.content? rest with
    | none => some datum
    | some _ => none

/-- Whether a datum counts as nothing. -/
def isNothing : Datum → Bool
  | .null => true
  | .bool flag => !flag
  | .integer n => n == 0
  | .double d => d.toDecimal.isZero
  | .text s => s.isEmpty
  | .list items => items.isEmpty
  | _ => false

/-- The entries of a datum that serves as a mapping. -/
def entries? : Datum → Option (List (Datum.Key × Datum))
  | .mapping entries => some entries
  | datum => if isNothing datum then some [] else none

/-- The entries as the variables of a template. -/
def bindings (entries : List (Datum.Key × Datum)) : Table Value :=
  Table.ofEntries (entries.map fun (key, datum) => (key.display, Value.ofDatum datum))

end Document

end Liquid
