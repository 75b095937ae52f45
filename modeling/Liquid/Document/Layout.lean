import Liquid.Document.Flow

/-!
# Layout

Lists and mappings laid out by indentation. A line that starts with a hyphen
is an item, one with a key and a colon is an entry, and all lines of one
collection start in the same column. What belongs to an item or entry stands
behind it on its line, or on the lines below that are indented further; the
items of a list that belongs to an entry need not be.

A position in a document is the text that is left, from the start of a line
on. The column of the content on a line is counted when the line is reached.

## Main definitions

* `Layout.content?`: The next line with content.
* `Layout.key?`: A key at the start of a line.
* `Layout.inline?`: A scalar or a flow collection, which may run over lines.
* `Layout.block?`: Whatever is laid out from a line on.
-/

namespace Liquid

namespace Layout

/-- The text from the next line on. -/
def nextLine (cs : List Char) : List Char :=
  (cs.dropWhile (· != '\n')).drop 1

/-- The next line with content: the column where that starts, and the text from there. -/
def contentFrom (column : Nat) (inComment : Bool) : List Char → Option (Nat × List Char)
  | [] => none
  | c :: cs =>
    if c == '\n' then contentFrom 0 false cs
    else if inComment then contentFrom column true cs
    else if c == ' ' then contentFrom (column + 1) false cs
    else if c == '#' then contentFrom column true cs
    else some (column, c :: cs)

/-- The next line with content: the column where that starts, and the text from there. -/
def content? (cs : List Char) : Option (Nat × List Char) :=
  contentFrom 0 false cs

/-- Whether nothing but a comment is left on the line. -/
def endsLine (cs : List Char) : Bool :=
  match cs.dropWhile Quotation.isBlank with
  | [] => true
  | c :: _ => c == '\n' || c == '#'

/-- The text from the next line on, if nothing but a comment is left on this one. -/
def finishLine? (cs : List Char) : Option (List Char) :=
  if endsLine cs then some (nextLine cs) else none

/-- Whether an item starts here. -/
def startsItem : List Char → Bool
  | '-' :: cs => Flow.startsBlank cs
  | _ => false

/-- A scalar without quotes up to where it ends on its line, and what follows it. -/
def plainFrom : List Char → List Char × List Char
  | [] => ([], [])
  | c :: cs =>
    if c == '\n' || (c == ':' && Flow.startsBlank cs)
        || (Quotation.isBlank c && cs.head? == some '#') then ([], c :: cs)
    else
      let (scalar, rest) := plainFrom cs
      (c :: scalar, rest)

/-- A scalar that is a key, and what follows its colon. -/
def key? (cs : List Char) : Option (Datum.Key × List Char) := do
  let (scalar, rest) ←
    match Quotation.read? cs with
    | some (text, rest) => some (Datum.text (String.ofList text), rest)
    | none =>
      if Flow.startsPlain cs then
        let (scalar, rest) := plainFrom cs
        some (Plain.datum (Text.stripRight scalar), rest)
      else none
  let key ← scalar.key?
  match rest.dropWhile Quotation.isBlank with
  | ':' :: rest => if Flow.startsBlank rest then some (key, rest) else none
  | _ => none

/-- The number of empty lines, and the next line that is not empty: the column where it starts, and
the text from there. -/
def lineBelow (gap column : Nat) : List Char → Nat × Nat × List Char
  | [] => (gap, column, [])
  | c :: cs =>
    if c == '\n' then lineBelow (gap + 1) 0 cs
    else if c == ' ' then lineBelow gap (column + 1) cs
    else (gap, column, c :: cs)

/-- A scalar without quotes with its further lines, which are indented by so much at least, and the
text from the line behind it. -/
def plainLines? (indent : Nat) : Nat → List Char → Option (List Char × List Char)
  | 0, _ => none
  | steps + 1, cs =>
    let (scalar, rest) := plainFrom cs
    let line := Text.stripRight scalar
    match rest with
    | [] => some (line, [])
    | c :: below =>
      -- A colon here would be that of a second key on the line.
      if c == ':' then none
      else if c != '\n' then some (line, nextLine below)
      else
        let (gap, column, content) := lineBelow 0 0 below
        if content.isEmpty || column < indent || content.head? == some '#' then some (line, below)
        else do
          let (further, next) ← plainLines? indent steps content
          some (line ++ Quotation.foldOf gap ++ further, next)

/-- A scalar or a flow collection, whose further lines are indented by so much at least, and the
text from the line behind it. -/
def inline? (indent : Nat) (cs : List Char) : Option (Datum × List Char) :=
  if Flow.startsPlain cs then do
    let (scalar, next) ← plainLines? indent (cs.length + 1) cs
    some (Plain.datum scalar, next)
  else do
    let (datum, rest) ← Flow.read? cs
    let next ← finishLine? rest
    some (datum, next)

mutual

/-- Whatever is laid out from a line on, if it is indented by so much at least, and null if not. -/
def block? : Nat → Nat → List Char → Option (Datum × List Char)
  | 0, _, _ => none
  | steps + 1, indent, cs =>
    match content? cs with
    | none => some (.null, [])
    | some (column, content) =>
      if column < indent then some (.null, cs) else laidOut? steps column indent content

/-- Whatever starts in a column with the given text. -/
def laidOut? : Nat → Nat → Nat → List Char → Option (Datum × List Char)
  | 0, _, _, _ => none
  | steps + 1, column, indent, content =>
    if startsItem content then items? steps column [] content
    else
      match key? content with
      | some (key, rest) => entries? steps column [] key rest
      | none => inline? indent content

/-- The list in a column, at one of its items. -/
def items? : Nat → Nat → List Datum → List Char → Option (Datum × List Char)
  | 0, _, _, _ => none
  | steps + 1, column, done, content => do
    let body := content.drop 1
    let blanks := (body.takeWhile (· == ' ')).length
    let (item, next) ←
      if endsLine body then block? steps (column + 1) (nextLine body)
      else laidOut? steps (column + 1 + blanks) (column + 1) (body.drop blanks)
    match content? next with
    | none => some (.list (item :: done).reverse, [])
    | some (other, content) =>
      -- A line further in belongs to no item, one further out ends the list.
      if column < other then none
      else if other == column && startsItem content then items? steps column (item :: done) content
      else some (.list (item :: done).reverse, next)

/-- The mapping in a column, behind one of its keys. -/
def entries? : Nat → Nat → List (Datum.Key × Datum) → Datum.Key → List Char →
    Option (Datum × List Char)
  | 0, _, _, _, _ => none
  | steps + 1, column, done, key, rest => do
    let (item, next) ← entryValue? steps column rest
    let done := (key, item) :: done
    match content? next with
    | none => some (.mapping done.reverse, [])
    | some (other, content) =>
      if other < column then some (.mapping done.reverse, next)
      else if column < other || startsItem content then none
      else
        match key? content with
        | none => none
        | some (key, rest) =>
          -- A key may come only once.
          if Flow.hasKey done key then none else entries? steps column done key rest

/-- The value behind a key in a column. -/
def entryValue? : Nat → Nat → List Char → Option (Datum × List Char)
  | 0, _, _ => none
  | steps + 1, column, rest =>
    if endsLine rest then
      match content? (nextLine rest) with
      | some (other, content) =>
        -- A list may stand in the column of the key that it belongs to.
        if other == column && startsItem content then items? steps column [] content
        else block? steps (column + 1) (nextLine rest)
      | none => some (.null, [])
    else inline? (column + 1) (rest.dropWhile Quotation.isBlank)

end

end Layout

end Liquid
