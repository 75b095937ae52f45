import Liquid.Proofs.Text.Search
import Liquid.Token.Scan

/-!
# Printed Templates

Templates put together from their parts, and the tokens that they should be
scanned into. A part is a text or a construct between its delimiters, with a
space inside each of them, and the hyphens that tell which neighbours are
trimmed.

Not every list of parts can be told from its print. Two texts next to each
other look like one, a text may not contain or complete a delimiter that opens
something, and the inside of a construct not the one that closes it. The names
of tags that scanning itself acts on are left out as well.

The tokens are described part by part: a part knows what is printed before it,
which gives its place, and its two neighbours, which tell how it is trimmed.

## Main definitions

* `Segment`: A part of a template.
* `Segment.printAll`: Parts as a source.
* `Segment.Printable`: Parts that can be told from their print.
* `Segment.tokens`: The tokens of parts.
-/

namespace Liquid

/-- A part of a template, a tag with its name and its arguments. -/
inductive Segment
  | text (text : List Char)
  | output (markers : Markers) (value : List Char)
  | tag (markers : Markers) (name args : List Char)

namespace Segment

def isText : Segment → Bool
  | text _ => true
  | _ => false

/-- The markers of a construct; a text has none. -/
def markers : Segment → Markers
  | text _ => ⟨false, false⟩
  | output markers _ => markers
  | tag markers _ _ => markers

/-- The hyphen that is a marker, if it is there. -/
def hyphen (marked : Bool) : List Char :=
  if marked then ['-'] else []

/-- What stands between the delimiters of a construct. -/
def inner (markers : Markers) (body : List Char) : List Char :=
  hyphen markers.left ++ (' ' :: (body ++ [' ']) ++ hyphen markers.right)

/-- A construct with its delimiters. -/
def enclosed (isOutput : Bool) (markers : Markers) (body : List Char) : List Char :=
  Piece.opener isOutput ++ inner markers body ++ Piece.closer isOutput

/-- The name of a tag with its arguments, if it has any. -/
def joined (name args : List Char) : List Char :=
  if args.isEmpty then name else name ++ ' ' :: args

/-- The source of a part. -/
def print : Segment → List Char
  | text cs => cs
  | output markers value => enclosed true markers value
  | tag markers name args => enclosed false markers (joined name args)

/-- The source of parts, one after the other. -/
def printAll (segments : List Segment) : List Char :=
  segments.flatMap print

/-- Whether a part can be read back from its print. -/
def Proper : Segment → Prop
  | text cs => cs ≠ [] ∧ ¬Piece.opener true <:+: cs ∧ ¬Piece.opener false <:+: cs
  | output _ value => Text.strip value = value ∧ ¬Piece.closer true <:+: value
  | tag _ name args =>
    name ≠ [] ∧ (∀ c ∈ name, Text.isBlank c = false) ∧ name ≠ "raw".toList ∧
      name ≠ "comment".toList ∧ name.head? ≠ some '#' ∧ Text.strip args = args ∧
      ¬Piece.closer false <:+: joined name args

/-- Whether a part can be told from the one behind it: a text is followed by a construct, and does
not complete its delimiter. -/
def Apart : Segment → Segment → Prop
  | text cs, next => next.isText = false ∧ cs.getLast? ≠ some '\x7b'
  | _, _ => True

/-- Parts that can be told from their print. -/
structure Printable (segments : List Segment) : Prop where
  proper : ∀ segment ∈ segments, segment.Proper
  apart : segments.IsChain Apart

instance : DecidablePred Proper
  | text cs =>
    inferInstanceAs (Decidable (cs ≠ [] ∧ ¬Piece.opener true <:+: cs ∧ ¬Piece.opener false <:+: cs))
  | output _ value =>
    inferInstanceAs (Decidable (Text.strip value = value ∧ ¬Piece.closer true <:+: value))
  | tag _ name args =>
    -- Only the characters of the name are asked, although there is an end to all characters.
    letI : Decidable (∀ c ∈ name, Text.isBlank c = false) := List.decidableBAll _ name
    inferInstanceAs (Decidable (name ≠ [] ∧ (∀ c ∈ name, Text.isBlank c = false) ∧
      name ≠ "raw".toList ∧ name ≠ "comment".toList ∧ name.head? ≠ some '#' ∧
      Text.strip args = args ∧ ¬Piece.closer false <:+: joined name args))

instance : DecidableRel Apart
  | text cs, next => inferInstanceAs (Decidable (next.isText = false ∧ cs.getLast? ≠ some '\x7b'))
  | output .., _ => inferInstanceAs (Decidable True)
  | tag .., _ => inferInstanceAs (Decidable True)

instance (segments : List Segment) : Decidable (Printable segments) :=
  decidable_of_iff ((∀ segment ∈ segments, segment.Proper) ∧ segments.IsChain Apart)
    ⟨fun h => ⟨h.1, h.2⟩, fun h => ⟨h.proper, h.apart⟩⟩

/-- What the token of a part holds, if one is left: the part before it asks for its start to be
trimmed or not, the part behind it for its end. -/
def content? (trimStart trimEnd : Bool) : Segment → Option Token.Content
  | text cs =>
    let left := Scan.State.trimmed trimStart trimEnd cs
    if left.isEmpty then none else some (.text (String.ofList left))
  | output _ value => some (.output (String.ofList value))
  | tag _ name args => some (.tag (String.ofList name) (String.ofList args))

/-- The tokens of parts behind others. -/
def tokensBehind (before : List Segment) : List Segment → List Token
  | [] => []
  | segment :: rest =>
    let content := segment.content? (before.getLast?.any fun last => last.markers.right)
      (rest.head?.any fun next => next.markers.left)
    (content.map fun content =>
        ⟨content, (printAll before).length, Place.start.after (printAll before)⟩).toList ++
      tokensBehind (before ++ [segment]) rest

/-- The tokens of parts. -/
def tokens (segments : List Segment) : List Token :=
  tokensBehind [] segments

end Segment

end Liquid
