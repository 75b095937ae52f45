import Liquid.Document.Plain
import Liquid.Document.Quotation
import Liquid.Text.Blank

/-!
# Flow Collections

Lists between brackets and mappings between braces. Lines mean nothing inside
of them, and a comment may stand wherever a blank may. A mapping may leave out
a value, which is null then, and no key may come twice.

Reading goes by a bound on the number of steps. Each step reads a character or
hands what follows one to another, so a few times the length of the text is
enough.

## Main definitions

* `Flow.skip`: Blanks, line breaks and comments.
* `Flow.scalar?`: A scalar inside a collection.
* `Flow.value?`: A scalar or a collection.
-/

namespace Liquid

namespace Flow

/-- The text from the first character that is not blank and in no comment. -/
def skipFrom (inComment : Bool) : List Char → List Char
  | [] => []
  | c :: cs =>
    if c == '\n' then skipFrom false cs
    else if inComment then skipFrom true cs
    else if Quotation.isBlank c then skipFrom false cs
    else if c == '#' then skipFrom true cs
    else c :: cs

/-- The text from the first character that is not blank and in no comment. -/
def skip (cs : List Char) : List Char :=
  skipFrom false cs

/-- Whether a character ends a scalar inside a collection. -/
def isBracket (c : Char) : Bool :=
  c == ',' || c == '[' || c == ']' || c == '\x7b' || c == '\x7d'

/-- Whether a text goes on with a blank, or ends. -/
def startsBlank : List Char → Bool
  | [] => true
  | c :: _ => c == '\n' || Quotation.isBlank c

/-- Whether a text goes on with a blank or a bracket, or ends. -/
def startsGap (cs : List Char) : Bool :=
  startsBlank cs || cs.head?.any isBracket

/-- Whether a scalar without quotes may start here. -/
def startsPlain : List Char → Bool
  | [] => false
  | c :: cs =>
    if c == '-' || c == '?' || c == ':' then !startsBlank cs
    else !isBracket c && !"#&*!|>'\"%@`\n\t ".toList.contains c

/-- A scalar without quotes up to where it ends inside a collection, and what follows it. -/
def plainFrom : List Char → List Char × List Char
  | [] => ([], [])
  | c :: cs =>
    if c == '\n' || isBracket c || (c == ':' && startsGap cs)
        || (Quotation.isBlank c && cs.head? == some '#') then ([], c :: cs)
    else
      let (scalar, rest) := plainFrom cs
      (c :: scalar, rest)

/-- A scalar inside a collection, and what follows it. -/
def scalar? (cs : List Char) : Option (Datum × List Char) :=
  match Quotation.read? cs with
  | some (text, rest) => some (.text (String.ofList text), rest)
  | none =>
    if startsPlain cs then
      let (scalar, rest) := plainFrom cs
      some (Plain.datum (Text.stripRight scalar), rest)
    else none

/-- Whether a key stands in a mapping already. -/
def hasKey (entries : List (Datum.Key × Datum)) (key : Datum.Key) : Bool :=
  entries.any fun (other, _) => other == key

mutual

/-- A scalar or a collection, and what follows it. -/
def value? : Nat → List Char → Option (Datum × List Char)
  | 0, _ => none
  | _ + 1, [] => none
  | steps + 1, c :: cs =>
    if c == '[' then items? steps [] (skip cs)
    else if c == '\x7b' then entries? steps [] (skip cs)
    else scalar? (c :: cs)

/-- The list whose items so far are given, last one first. -/
def items? : Nat → List Datum → List Char → Option (Datum × List Char)
  | 0, _, _ => none
  | _ + 1, _, [] => none
  | steps + 1, done, c :: cs =>
    if c == ']' then some (.list done.reverse, cs)
    else
      match value? steps (c :: cs) with
      | none => none
      | some (item, rest) =>
        match skip rest with
        | ',' :: rest => items? steps (item :: done) (skip rest)
        | ']' :: rest => some (.list (item :: done).reverse, rest)
        | _ => none

/-- The mapping whose entries so far are given, last one first. -/
def entries? : Nat → List (Datum.Key × Datum) → List Char → Option (Datum × List Char)
  | 0, _, _ => none
  | _ + 1, _, [] => none
  | steps + 1, done, c :: cs =>
    if c == '\x7d' then some (.mapping done.reverse, cs)
    else
      match scalar? (c :: cs) with
      | none => none
      | some (scalar, rest) =>
        match Datum.key? scalar, entryValue? steps (skip rest) with
        | some key, some (item, rest) =>
          if hasKey done key then none
          else
            match skip rest with
            | ',' :: rest => entries? steps ((key, item) :: done) (skip rest)
            | '\x7d' :: rest => some (.mapping ((key, item) :: done).reverse, rest)
            | _ => none
        | _, _ => none

/-- The value behind a key, which may be missing. -/
def entryValue? : Nat → List Char → Option (Datum × List Char)
  | 0, _ => none
  | steps + 1, cs =>
    match cs with
    | ':' :: rest =>
      match skip rest with
      | ',' :: rest => some (.null, ',' :: rest)
      | '\x7d' :: rest => some (.null, '\x7d' :: rest)
      | rest => value? steps rest
    | _ => some (.null, cs)

end

/-- A bound on the steps that reading a text takes. -/
def steps (cs : List Char) : Nat :=
  3 * cs.length + 3

/-- A scalar or a collection at the start of a text, and what follows it. -/
def read? (cs : List Char) : Option (Datum × List Char) :=
  value? (steps cs) cs

end Flow

end Liquid
