import Liquid.Proofs.Token.Append

/-!
# Sources without Markers

Sources put together from constructs that are closed and have no markers. Nothing
is trimmed in such a source and nothing trims it, so what is read of it is read
of it wherever it stands, and two of them together have the tokens of both. Where
the tokens stand has no part in this: only what they hold is said.

## Main definitions

* `Token.Reads`: Sources without markers, with what their tokens hold.

## Theorems

* `Token.Reads.append`: Two such sources together.
* `Token.reads_tag`, `Token.reads_output`: A construct and the text before it.
* `Token.scan_of_reads`: What such a source is scanned into.
-/

namespace Liquid

namespace Token

open Piece (closer)
open Segment (Leads enclosed joined)

/-- Whether a source is closed constructs, with texts before them, that have no markers, so that
what is read of it goes with what is read of its neighbours; and what its tokens hold. -/
def Reads (cs : List Char) (contents : List Content) : Prop :=
  ∃ pieces, Piece.Cut cs pieces ∧ ∀ tokens offset place, ∃ more : List Token,
    (pieces offset place).foldl Scan.State.read ⟨tokens, false⟩ = ⟨more.reverse ++ tokens, false⟩ ∧
      more.map (·.content) = contents

section Reads

variable {cs ds lead : List Char} {contents contents' : List Content}

/-- What two sources read as is read one after the other. -/
theorem Reads.append (h : Reads cs contents) (h' : Reads ds contents') :
    Reads (cs ++ ds) (contents ++ contents') := by
  rcases h with ⟨pieces, hcut, hread⟩
  rcases h' with ⟨pieces', hcut', hread'⟩
  refine ⟨_, hcut.append hcut', fun tokens offset place => ?_⟩
  rcases hread tokens offset place with ⟨first, hfirst, hcontents⟩
  rcases hread' (first.reverse ++ tokens) (offset + cs.length) (place.after cs) with
    ⟨second, hsecond, hcontents'⟩
  refine ⟨first ++ second, ?_, ?_⟩
  · rw [List.foldl_append, hfirst, hsecond, List.reverse_append, List.append_assoc]
  · rw [List.map_append, hcontents, hcontents']

/-- A source is scanned to tokens of what it reads as, wherever they are placed. -/
theorem scan_of_reads (h : Reads cs contents) (strict : Bool) :
    ∃ tokens remarks, Token.scan strict (String.ofList cs) = .ok (tokens, remarks) ∧
      tokens.map (·.content) = contents := by
  rcases h with ⟨pieces, hcut, hread⟩
  rcases hread [] 0 .start with ⟨more, hmore, hcontents⟩
  have hscan := @Scan.scan_cut_text cs [] pieces hcut rfl strict
  simp only [Scan.State.start, hmore, List.append_nil] at hscan
  refine ⟨_, _, hscan, ?_⟩
  simpa [ofText, Scan.State.trimmed] using hcontents

/-- The tokens that hold something, wherever they stand. -/
theorem exists_tokens_of_cons {tokens : List Token} {content : Content}
    (h : tokens.map (·.content) = content :: contents) :
    ∃ offset place rest, tokens = ⟨content, offset, place⟩ :: rest ∧
      rest.map (·.content) = contents := by
  cases tokens with
  | nil => cases h
  | cons token rest =>
      rcases token with ⟨_, offset, place⟩
      rcases List.cons.inj h with ⟨rfl, hrest⟩
      exact ⟨offset, place, rest, rfl, hrest⟩

/-- What the tokens of a text hold. -/
def textContents (lead : List Char) : List Content :=
  (ofText lead 0 .start).map (·.content)

/-- A text and a construct behind it are read as they stand. -/
theorem read_construct {piece : Piece} {content : Content} (hpiece : ∀ tokens : List Token,
      Scan.State.read ⟨tokens, false⟩ piece =
        ⟨⟨content, piece.offset, piece.place⟩ :: tokens, false⟩)
    (lead : List Char) (tokens : List Token) (offset : Nat) (place : Place) :
    ∃ more : List Token,
      [⟨.text lead false, offset, place⟩, piece].foldl Scan.State.read ⟨tokens, false⟩ =
        ⟨more.reverse ++ tokens, false⟩ ∧
      more.map (·.content) = textContents lead ++ [content] := by
  refine ⟨ofText lead offset place ++ [⟨content, piece.offset, piece.place⟩], ?_, ?_⟩
  · -- Nothing is pending, so the text is kept whole, or dropped if there is none.
    have htext : Scan.State.read ⟨tokens, false⟩ ⟨.text lead false, offset, place⟩ =
        ⟨(ofText lead offset place).reverse ++ tokens, false⟩ := by
      unfold Scan.State.read Scan.State.trimmed Scan.State.pushText ofText
      cases lead <;> rfl
    rw [List.foldl_cons, List.foldl_cons, List.foldl_nil, htext, hpiece]
    simp
  · unfold textContents ofText
    cases lead <;> rfl

/-- A tag of a name that can be printed, with any arguments. -/
theorem reads_tag (hlead : Leads lead) {word args : List Char}
    (hword : (Segment.tag ⟨false, false⟩ word []).Proper)
    (hclosed : ¬closer false <:+: joined word args) :
    Reads (lead ++ enclosed false ⟨false, false⟩ (joined word args))
      (textContents lead ++ [.tag (String.ofList word) (String.ofList (Text.strip args))]) := by
  have hencloses : Piece.Encloses false lead (Segment.inner ⟨false, false⟩ (joined word args)) :=
    ⟨hlead, Segment.cut?_inner false ⟨false, false⟩ hclosed⟩
  -- The word is none of those that the lexer treats itself.
  rcases hword with ⟨hne, hblank, hraw, hcomment, hnote, _⟩
  have hname := @Segment.splitName_joined word args hne hblank
  have hcut := Piece.cut_tag hencloses
  simp only [Segment.splitMarkers_inner, hname] at hcut
  refine ⟨_, hcut hraw hcomment hnote, fun tokens offset place => read_construct ?_ _ _ _ _⟩
  intro tokens
  simp [Scan.State.read, Scan.trimLast_false]

/-- An output without markers reads as its stripped inside. -/
theorem reads_output (hlead : Leads lead) {source : List Char}
    (hclosed : ¬closer true <:+: source) :
    Reads (lead ++ enclosed true ⟨false, false⟩ source)
      (textContents lead ++ [.output (String.ofList (Text.strip source))]) := by
  have hencloses : Piece.Encloses true lead (Segment.inner ⟨false, false⟩ source) :=
    ⟨hlead, Segment.cut?_inner true ⟨false, false⟩ hclosed⟩
  have hcut := Piece.cut_output hencloses
  simp only [Segment.splitMarkers_inner, Text.strip_pad] at hcut
  refine ⟨_, hcut, fun tokens offset place => read_construct ?_ _ _ _ _⟩
  intro tokens
  simp [Scan.State.read, Scan.trimLast_false]

end Reads

end Token

end Liquid
