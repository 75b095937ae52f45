import Liquid.Proofs.Token.Standing

/-!
# Scanning Two Sources as One

A source that ends with the closing delimiter of an output or of a tag is cut in
the same way whatever follows, and what follows is cut as a source of its own.
So all that the second source can see of the first is where it starts, the token
just before, which it might trim, and whether its own first text is trimmed. The
token just before is no text, and without a marker nothing is trimmed: then the
second source has its own tokens, moved by the first one.

Moving a place adds the line feeds of the first source to its line. The column
changes on the first line of the second source only, which goes on with the last
line of the first.

## Main definitions

* `Place.shifted`, `Token.shifted`: Where things are once a text stands before.
* `Token.EndsClosed`: A source that ends with a construct that is closed.

## Theorems

* `Place.after_shifted`: Places behind two texts.
* `Piece.piecesFrom_shifted`: Pieces behind a text.
* `Scan.run_resumed`: Reading pieces behind other tokens.
* `Token.EndsClosed.exists_scan_append`: Scanning two sources as one.
-/

namespace Liquid

namespace Place

/-- The place in a source, once a text stands before the source. -/
def shifted (used : List Char) (place : Place) : Place where
  line := place.line + used.count '\n'
  column :=
    if place.line = 1 then place.column + (used.reverse.takeWhile (· != '\n')).length
    else place.column

/-- A place moves on in the same way wherever it started. -/
theorem next_shifted {place : Place} (hline : place.line ≠ 0) (used : List Char) (c : Char) :
    next (place.shifted used) c = (next place c).shifted used := by
  unfold next shifted
  by_cases hc : c = '\n'
  · simp [hc, hline, Nat.add_right_comm]
  · by_cases hfirst : place.line = 1
    · simp [hc, hfirst, Nat.add_right_comm]
    · simp [hc, hfirst]

/-- Lines are counted from one. -/
theorem line_start_after_ne_zero (cs : List Char) : (start.after cs).line ≠ 0 := by
  rw [start_after]
  exact Nat.succ_ne_zero _

/-- The place behind two texts is the one behind the second text, once the first stands before. -/
theorem after_shifted (used cs : List Char) :
    (start.after used).after cs = (start.after cs).shifted used := by
  induction cs using List.reverseRecOn with
  | nil =>
      change start.after used = start.shifted used
      rw [start_after]
      simp [behind, shifted, start, Nat.add_comm]
  | append_singleton cs c ih =>
      rw [after_append, ih, after_append]
      exact next_shifted (line_start_after_ne_zero cs) used c

end Place

namespace Piece

/-- The piece of a source, once a text stands before the source. -/
def shifted (used : List Char) (piece : Piece) : Piece where
  content :=
    match piece.content with
    | .unclosed construct opened rest => .unclosed construct (opened.shifted used) rest
    | content => content
  offset := used.length + piece.offset
  place := piece.place.shifted used

/-- A closed piece behind a text is the piece at the start, moved by the text. -/
theorem shifted_part {part : Part} (h : ∀ offset place, (part.piece offset place).isClosed = true)
    (used : List Char) :
    part.piece used.length (Place.start.after used) = (part.piece 0 .start).shifted used := by
  rcases part with ⟨content, before⟩
  have hclosed := h 0 .start
  cases content with
  | unclosed => cases hclosed
  | text | output | tag | silent => simp [Part.piece, shifted, Place.after_shifted]

/-- What is left open behind a text is what is left open at the start, moved by the text. -/
theorem shifted_opened (last : Opened) (used : List Char) :
    last.piece used.length (Place.start.after used) = (last.piece 0 .start).shifted used := by
  simp [Opened.piece, shifted, Place.after_shifted]

/-- Behind a text, a source is cut into its own pieces. -/
theorem piecesFrom_shifted (used cs : List Char) :
    piecesFrom used.length (Place.start.after used) cs =
      (piecesFrom 0 .start cs).map (shifted used) := by
  rcases exists_cutting cs with ⟨parts, last, hcutting⟩
  rw [hcutting.pieces, hcutting.pieces, List.map_append, List.map_map, List.map_map]
  congr 1
  · exact List.map_congr_left fun part hpart => shifted_part (hcutting.closed part hpart) used
  · exact List.map_congr_left fun last _ => shifted_opened last used

/-- Two cuts one after the other are a cut. -/
theorem Cut.append {first second : List Char} {pieces pieces' : Nat → Place → List Piece}
    (h : Cut first pieces) (h' : Cut second pieces') :
    Cut (first ++ second) fun offset place =>
      pieces offset place ++ pieces' (offset + first.length) (place.after first) where
  delimited := by
    rcases h'.delimited with ⟨isOutput, hclosed⟩
    exact ⟨isOutput, hclosed.trans (List.suffix_append _ _)⟩
  cut rest offset place := by
    rw [List.append_assoc, h.cut, h'.cut, List.append_assoc, List.length_append,
      Place.after_append, Nat.add_assoc]
  closed offset place := by
    rw [List.all_append, h.closed, h'.closed]
    rfl

/-- A construct that is cut off behind any text that leads up to it is cut off behind any source in
which none is left open. -/
theorem exists_cut_of_complete {before inside : List Char} {isOutput : Bool}
    {content : Piece.Content} (hbefore : Complete before) (hseam : before.getLast? ≠ some '\x7b')
    (hcut : ∀ {lead}, Segment.Leads lead → Cut (lead ++ whole isOutput inside) fun offset place =>
      [⟨.text lead false, offset, place⟩, ⟨content, offset + lead.length, place.after lead⟩]) :
    ∃ pieces : Nat → Place → List Piece, Cut (before ++ whole isOutput inside) fun offset place =>
      pieces offset place ++ [⟨content, offset + before.length, place.after before⟩] := by
  -- On the cuts of the complete part: the last construct stands behind its last text.
  induction hbefore with
  | @text cs hopen =>
      rcases opening?_eq_none_iff.mp hopen with ⟨houtput, htag⟩
      exact ⟨fun offset place => [⟨.text cs false, offset, place⟩], hcut ⟨houtput, htag, hseam⟩⟩
  | @cut used rest pieces hused _ ih =>
      rcases ih (Text.getLast?_ne_of_append hseam) with ⟨pieces', hpieces'⟩
      refine ⟨fun offset place =>
        pieces offset place ++ pieces' (offset + used.length) (place.after used), ?_⟩
      have happend := hused.append hpieces'
      simp only [← List.append_assoc, Nat.add_assoc, ← List.length_append,
        ← Place.after_append] at happend
      exact happend

end Piece

/-- The token of a source, once a text stands before the source. -/
def Token.shifted (used : List Char) (token : Token) : Token :=
  ⟨token.content, used.length + token.offset, token.place.shifted used⟩

namespace Scan

namespace State

/-- The state of reading a source, once a text with the given tokens, the last one first, stands
before it. -/
def resumed (used : List Char) (front : List Token) (state : State) : State :=
  ⟨state.tokens.map (Token.shifted used) ++ front, state.trimNext⟩

/-- Whether nothing that was read has to do with a text that is next: it is not trimmed, and the
last token cannot be. -/
def Settled (state : State) : Prop :=
  state.trimNext = false ∧ ∀ token ∈ state.tokens.head?, token.content.isOutput? ≠ none

end State

section Resumed

variable {used : List Char} {front : List Token}

/-- A text is pushed in the same way onto tokens that are resumed. -/
theorem pushText_resumed (tokens : List Token) (text : List Char) (offset : Nat) (place : Place) :
    State.pushText (tokens.map (Token.shifted used) ++ front) text (used.length + offset)
        (place.shifted used) =
      (State.pushText tokens text offset place).map (Token.shifted used) ++ front := by
  unfold State.pushText
  by_cases htext : text.isEmpty
  · rw [if_pos htext, if_pos htext]
  · rw [if_neg htext, if_neg htext]
    rfl

/-- There is nothing to trim where the last token is not a text. -/
theorem trimLast_of_head? (trim : Bool)
    (hfront : ∀ token ∈ front.head?, token.content.isOutput? ≠ none) :
    State.trimLast trim front = front := by
  match front with
  | [] => rfl
  | ⟨.text text, offset, place⟩ :: front => exact absurd rfl (hfront _ rfl)
  | ⟨.output source, offset, place⟩ :: front => rfl
  | ⟨.tag name args, offset, place⟩ :: front => rfl

/-- Trimming does not reach behind the tokens that are resumed. -/
theorem trimLast_resumed (trim : Bool)
    (hfront : ∀ token ∈ front.head?, token.content.isOutput? ≠ none) (tokens : List Token) :
    State.trimLast trim (tokens.map (Token.shifted used) ++ front) =
      (State.trimLast trim tokens).map (Token.shifted used) ++ front := by
  -- Only a text that stands last is trimmed.
  match tokens with
  | [] => exact trimLast_of_head? trim hfront
  | ⟨.text text, offset, place⟩ :: tokens =>
      cases trim with
      | false => rfl
      | true => exact pushText_resumed tokens _ offset place
  | ⟨.output source, offset, place⟩ :: tokens => rfl
  | ⟨.tag name args, offset, place⟩ :: tokens => rfl

/-- A piece is read by a resumed state as it is by the state itself. -/
theorem read_resumed (hfront : ∀ token ∈ front.head?, token.content.isOutput? ≠ none)
    (state : State) (piece : Piece) :
    (state.resumed used front).read (piece.shifted used) =
      (state.read piece).resumed used front := by
  rcases state with ⟨tokens, trimNext⟩
  rcases piece with ⟨content, offset, place⟩
  have htrim (trim : Bool) : State.trimLast trim (tokens.map (Token.shifted used) ++ front) = _ :=
    trimLast_resumed trim hfront tokens
  -- A construct trims the text in front of it, and is kept itself.
  cases content with
  | text text trimEnd => exact congrArg (State.mk · false) (pushText_resumed tokens _ offset place)
  | output markers source =>
      exact congrArg (fun tokens => State.mk (_ :: tokens) markers.right) (htrim markers.left)
  | tag markers name args =>
      exact congrArg (fun tokens => State.mk (_ :: tokens) markers.right) (htrim markers.left)
  | silent markers => exact congrArg (State.mk · markers.right) (htrim markers.left)
  | unclosed construct opened rest => rfl

/-- The pieces of a source are read alike behind the tokens of another one. -/
theorem run_resumed {strict : Bool}
    (hfront : ∀ token ∈ front.head?, token.content.isOutput? ≠ none) {state : State}
    {pieces : List Piece} {tokens : List Token} {remarks : List Remark}
    (h : run strict state pieces = .ok (tokens, remarks)) :
    ∃ remarks', run strict (state.resumed used front) (pieces.map (Piece.shifted used)) =
      .ok (front.reverse ++ tokens.map (Token.shifted used), remarks') := by
  induction pieces generalizing state with
  | nil =>
      cases h
      exact ⟨[], by simp [run, State.resumed]⟩
  | cons piece pieces ih =>
      have hread : (state.resumed used front).read _ = _ := read_resumed hfront state piece
      rcases piece with ⟨content, offset, place⟩
      cases content with
      | text | output | tag | silent =>
          rcases ih h with ⟨remarks', hrun⟩
          refine ⟨remarks', ?_⟩
          rw [← hread] at hrun
          exact hrun
      | unclosed construct opened rest =>
          cases strict with
          | true => cases h
          | false =>
              refine ⟨[.unclosed construct (opened.shifted used)], ?_⟩
              -- The rest of the source is one more text, or nothing at all.
              cases construct with
              | comment =>
                  cases h
                  simp [run, State.resumed, Piece.shifted]
              | output | tag | raw =>
                  cases h
                  simp [run, State.resumed, Piece.shifted, pushText_resumed]

end Resumed

end Scan

namespace Token

/-- Whether a source ends with the closing delimiter of an output or of a tag that becomes a token,
and without a marker at that end. Before the construct stands what strict scanning accepts, and what
does not end with half a delimiter. Else it would not start there: nothing does in a raw block or a
comment, and of three braces the first two open an output. -/
structure EndsClosed (source : String) (before : List Char) (isOutput : Bool) (inside : List Char) :
    Prop where
  eq : source.toList = before ++ Piece.whole isOutput inside
  accepted : ∃ result, Token.scan true (String.ofList before) = .ok result
  seam : before.getLast? ≠ some '\x7b'
  closed : Text.cut? (Piece.closer isOutput) (inside ++ Piece.closer isOutput) = some (inside, [])
  unmarked : (Piece.splitMarkers inside).1.right = false
  ordinary : isOutput = false →
    let name := (Piece.splitName (Piece.splitMarkers inside).2).1
    name ≠ "raw".toList ∧ name ≠ "comment".toList ∧ name.head? ≠ some '#'

/-- The empty source has no tokens. -/
theorem scan_empty (strict : Bool) : Token.scan strict "" = .ok ([], [.tokenized 0]) := by
  unfold Token.scan Piece.pieces
  rw [String.toList_empty, Segment.piecesFrom_text 0 .start rfl]
  rfl

section EndsClosed

variable {source : String} {before inside : List Char} {isOutput : Bool}

/-- Such a source is cut into the same pieces whatever is behind it, and nothing of them has to do
with a text that is next. -/
theorem EndsClosed.exists_cut (h : EndsClosed source before isOutput inside) :
    ∃ pieces, Piece.Cut source.toList pieces ∧
      ∀ state offset place, ((pieces offset place).foldl Scan.State.read state).Settled := by
  have hcomplete := h.accepted.elim fun _ => Scan.complete_of_scan
  have hcloses (rest : List Char) :
      Text.cut? (Piece.closer isOutput) (inside ++ (Piece.closer isOutput ++ rest)) =
        some (inside, rest) :=
    Text.cut?_local h.closed rest
  rw [h.eq]
  -- An output and a tag settle the state alike: nothing is pending behind either.
  cases isOutput with
  | true =>
      rcases Piece.exists_cut_of_complete hcomplete h.seam
        fun hlead => Piece.cut_output ⟨hlead, hcloses⟩ with ⟨pieces, hcut⟩
      refine ⟨_, hcut, fun state offset place => ?_⟩
      rw [List.foldl_append]
      refine ⟨h.unmarked, ?_⟩
      rintro _ ⟨⟩
      exact nofun
  | false =>
      rcases h.ordinary rfl with ⟨hraw, hcomment, hnote⟩
      rcases Piece.exists_cut_of_complete hcomplete h.seam
        fun hlead => Piece.cut_tag ⟨hlead, hcloses⟩ hraw hcomment hnote with ⟨pieces, hcut⟩
      refine ⟨_, hcut, fun state offset place => ?_⟩
      rw [List.foldl_append]
      refine ⟨h.unmarked, ?_⟩
      rintro _ ⟨⟩
      exact nofun

/-- A source behind one that ends like this has its own tokens, behind those of the other. -/
theorem EndsClosed.exists_scan_append (h : EndsClosed source before isOutput inside) :
    ∃ front, ∀ {strict : Bool} {second : String} {tokens : List Token} {remarks : List Remark},
      Token.scan strict second = .ok (tokens, remarks) →
      ∃ remarks', Token.scan strict (source ++ second) =
        .ok (front ++ tokens.map (Token.shifted source.toList), remarks') := by
  rcases h.exists_cut with ⟨pieces, hcut, hsettled⟩
  -- The state that the first source leaves, with nothing pending, is where the second is resumed.
  let state := (pieces 0 .start).foldl Scan.State.read .start
  have hstate : state.Settled := hsettled .start 0 .start
  refine ⟨state.tokens.reverse, fun {strict second tokens remarks} hscan => ?_⟩
  rcases map_eq_ok_iff.mp hscan with ⟨⟨scanned, noted⟩, hrun, heq⟩
  cases heq
  have hresumed : state = Scan.State.start.resumed source.toList state.tokens :=
    congrArg (Scan.State.mk state.tokens) hstate.1
  rcases Scan.run_resumed hstate.2 hrun with ⟨remarks', hrun'⟩
  -- The pieces of the second source are those it has alone, moved.
  have hpieces : Piece.pieces (source ++ second) =
      pieces 0 .start ++ (Piece.pieces second).map (Piece.shifted source.toList) := by
    unfold Piece.pieces
    rw [String.toList_append, hcut.cut, Nat.zero_add, Piece.piecesFrom_shifted]
  refine ⟨_, map_eq_ok_iff.mpr ⟨(_, remarks'), ?_, rfl⟩⟩
  rw [hpieces, Scan.run_closed strict .start (hcut.closed 0 .start), ← hrun', ← hresumed]

end EndsClosed

end Token

end Liquid
