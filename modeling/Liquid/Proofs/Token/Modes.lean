import Liquid.Proofs.Token.Construct

/-!
# Strict and Lenient Scanning

The two modes read the same pieces, and differ only in what they make of a
construct that is left open. If there is none, neither has anything to say. If
there is one, strict scanning refuses the source for it. Lenient scanning
remarks on the same construct at the same place, and once. Its tokens are those
of the source before that construct, and behind them the rest of the source as
a text, just as it is written. Of a comment nothing is kept. The tag that opens
a raw block or a comment is not part of the rest, and what it says about the
text before it counts.

## Main definitions

* `Token.ofText`: A text as a token, if it is not empty.
* `Token.trimEnd`: Tokens with the end of the last one trimmed, if that is a
  text.
* `Token.LeavesOpen`: A source with a construct that is left open.

## Theorems

* `Scan.run_closed`: Closed constructs are read alike in both modes.
* `Token.scan_modes`: The two modes on every source.
-/

namespace Liquid

namespace Token

/-- A text as a token, if it is not empty. -/
def ofText (text : List Char) (offset : Nat) (place : Place) : List Token :=
  if text.isEmpty then [] else [⟨.text (String.ofList text), offset, place⟩]

/-- The tokens with the end of the last one trimmed, if that is a text and it is asked for. -/
def trimEnd (trim : Bool) (tokens : List Token) : List Token :=
  match tokens.getLast? with
  | some ⟨.text text, offset, place⟩ =>
    if trim then tokens.dropLast ++ ofText (Text.stripRight text.toList) offset place else tokens
  | _ => tokens

end Token

namespace Scan

/-- In the order of the source a text comes last. -/
theorem reverse_pushText (tokens : List Token) (text : List Char) (offset : Nat) (place : Place) :
    (State.pushText tokens text offset place).reverse =
      tokens.reverse ++ Token.ofText text offset place := by
  unfold State.pushText Token.ofText
  split <;> simp

/-- In the order of the source trimming takes blanks off the end. -/
theorem reverse_trimLast (trim : Bool) (tokens : List Token) :
    (State.trimLast trim tokens).reverse = Token.trimEnd trim tokens.reverse := by
  unfold Token.trimEnd
  rw [List.getLast?_reverse, List.dropLast_reverse]
  -- Only a text that stands last is trimmed.
  match tokens with
  | [] => rfl
  | ⟨.text text, offset, place⟩ :: tokens =>
      cases trim with
      | false => rfl
      | true => exact reverse_pushText tokens _ offset place
  | ⟨.output _, _, _⟩ :: _ => rfl
  | ⟨.tag _ _, _, _⟩ :: _ => rfl

/-- Closed constructs are read alike in both modes. -/
theorem run_closed (strict : Bool) (state : State) {pieces : List Piece}
    (h : pieces.all Piece.isClosed = true) (rest : List Piece) :
    run strict state (pieces ++ rest) = run strict (pieces.foldl State.read state) rest := by
  -- On the pieces: a closed one is read in either mode.
  induction pieces generalizing state with
  | nil => rfl
  | cons piece pieces ih =>
      rw [List.all_cons, Bool.and_eq_true] at h
      rw [List.cons_append, List.foldl_cons, ← ih (state.read piece) h.2, run]
      rcases piece with ⟨content, offset, place⟩
      cases content with
      | unclosed => cases h.1
      | text | output | tag | silent => rfl

/-- Without a marker nothing is trimmed. -/
theorem trimLast_false (tokens : List Token) : State.trimLast false tokens = tokens := by
  unfold State.trimLast
  split <;> rfl

/-- What is kept of the rest of a source behind a construct that is left open. -/
def kept (construct : Unclosed) (rest : List Char) (offset : Nat) (place : Place) : List Token :=
  match construct with
  | .comment => []
  | _ => Token.ofText rest offset place

/-- An open construct is refused, or remarked on and its rest kept. -/
theorem run_openPieces {construct : Unclosed} {markers : Markers} {opening rest : List Char}
    (h : Piece.LeftOpen construct markers opening rest) (strict : Bool) (state : State)
    (offset : Nat) (place : Place) :
    run strict state (Piece.openPieces construct markers opening rest offset place) =
      if strict then .error ⟨construct, place⟩
      else
        .ok (Token.trimEnd markers.left state.tokens.reverse ++
            kept construct rest (offset + opening.length) (place.after opening),
          [.unclosed construct place]) := by
  have hwhole (inside : List Char) : (Piece.whole false inside).isEmpty = false := by
    rw [List.isEmpty_eq_false_iff]
    exact Piece.whole_ne_nil false inside
  -- In strict mode the kind of the construct does not matter.
  cases strict with
  | true => cases h <;> simp [Piece.openPieces, run, hwhole]
  | false =>
      rw [if_neg Bool.false_ne_true, ← reverse_trimLast]
      -- An output or a tag is kept with its opening, a raw block without, and a comment not at all.
      cases h with
      | output => simp [Piece.openPieces, run, kept, trimLast_false, reverse_pushText]
      | tag => simp [Piece.openPieces, run, kept, trimLast_false, reverse_pushText]
      | raw => simp [Piece.openPieces, run, kept, hwhole, State.read, reverse_pushText]
      | comment => simp [Piece.openPieces, run, kept, hwhole, State.read]

/-- What is read in a source in which no construct is left open. -/
def stateOf (cs : List Char) : State :=
  (Piece.piecesFrom 0 .start cs).foldl State.read .start

/-- A complete source is scanned alike in both modes. -/
theorem scan_of_complete {cs : List Char} (h : Piece.Complete cs) (strict : Bool) :
    Token.scan strict (String.ofList cs) =
      .ok ((stateOf cs).tokens.reverse, [.tokenized (stateOf cs).tokens.reverse.length]) := by
  have hrun := run_closed strict .start (h.all_isClosed 0 .start) []
  unfold Token.scan Piece.pieces
  rw [String.toList_ofList]
  rw [List.append_nil] at hrun
  rw [hrun]
  rfl

/-- A text that a construct without a token stands behind is trimmed as its marker asks. -/
theorem read_text_silent {state : State} (hstate : Segment.Settled state.tokens) (cs : List Char)
    (markers : Markers) (offset offset' : Nat) (place place' : Place) :
    (state.read ⟨.text cs false, offset, place⟩).read ⟨.silent markers, offset', place'⟩ =
      ⟨State.pushText state.tokens (State.trimmed state.trimNext markers.left cs) offset place,
        markers.right⟩ :=
  congrArg (State.mk · markers.right)
    (Segment.trimLast_pushText hstate state.trimNext markers.left cs offset place)

/-- A source of which nothing is left open, and then a text: its tokens are those read before the
text, and the text itself, trimmed at its start if what is before it asks for that. -/
theorem scan_cut_text {used after : List Char} {pieces : Nat → Place → List Piece}
    (hcut : Piece.Cut used pieces) (hafter : Piece.opening? after = none) (strict : Bool) :
    let state := (pieces 0 .start).foldl State.read .start
    let tokens := state.tokens.reverse ++
      Token.ofText (State.trimmed state.trimNext false after) used.length (Place.start.after used)
    Token.scan strict (String.ofList (used ++ after)) =
      .ok (tokens, [.tokenized tokens.length]) := by
  intro state tokens
  -- The state behind the cut reads one more text.
  have hstate : stateOf (used ++ after) = state.read
      ⟨.text after false, used.length, Place.start.after used⟩ := by
    unfold stateOf
    rw [hcut.cut, Segment.piecesFrom_text _ _ hafter, List.foldl_append, Nat.zero_add]
    rfl
  have htokens : (stateOf (used ++ after)).tokens.reverse = tokens := by
    rw [hstate]
    exact reverse_pushText ..
  rw [scan_of_complete (.cut hcut (.text hafter)) strict, htokens]

section LeftOpen

variable {before opening rest : List Char} {construct : Unclosed} {markers : Markers}

/-- A construct that is left open is refused in strict mode, and kept as text otherwise. -/
theorem scan_of_leftOpen (hbefore : Piece.Complete before)
    (hseam : before.getLast? ≠ some '\x7b') (h : Piece.LeftOpen construct markers opening rest)
    (strict : Bool) :
    Token.scan strict (String.ofList (before ++ (opening ++ rest))) =
      if strict then .error ⟨construct, Place.start.after before⟩
      else
        let place := Place.start.after before
        let tokens := Token.trimEnd markers.left (stateOf before).tokens.reverse ++
          kept construct rest (before.length + opening.length) (place.after opening)
        .ok (tokens, [.unclosed construct place, .tokenized tokens.length]) := by
  unfold Token.scan Piece.pieces
  rw [String.toList_ofList, Piece.piecesFrom_complete_append hbefore hseam h,
    run_closed strict .start (hbefore.all_isClosed 0 .start), run_openPieces h, Nat.zero_add]
  cases strict <;> rfl

/-- What strict scanning accepts leaves nothing open. -/
theorem complete_of_scan {cs : List Char} {result : List Token × List Remark}
    (h : Token.scan true (String.ofList cs) = .ok result) : Piece.Complete cs := by
  rcases Piece.complete_or_leftOpen cs with
    hcomplete | ⟨before, construct, markers, opening, rest, rfl, hbefore, hseam, hopen⟩
  · exact hcomplete
  · rw [scan_of_leftOpen hbefore hseam hopen] at h
    cases h

end LeftOpen

end Scan

/-- Whether a construct of a source is left open. Before it stands what strict scanning accepts, and
what does not end with half a delimiter: of three braces the first two open an output. -/
structure Token.LeavesOpen (source : String) (before : List Char) (construct : Unclosed)
    (markers : Markers) (opening rest : List Char) : Prop where
  eq : source.toList = before ++ (opening ++ rest)
  accepted : ∃ result, Token.scan true (String.ofList before) = .ok result
  seam : before.getLast? ≠ some '\x7b'
  leftOpen : Piece.LeftOpen construct markers opening rest

/-- Strict and lenient scanning agree on every source. Either no construct is left open, and both
give the same tokens and no warning. Or strict scanning refuses the source for one construct, and
lenient scanning warns once, of that construct at the same place: its tokens are those of the source
before, the last of them trimmed if the tag that opens a block says so, and the rest of the source
as one text, if there is any and it is not that of a comment. -/
theorem Token.scan_modes (source : String) :
    ((∀ before construct markers opening rest,
        ¬LeavesOpen source before construct markers opening rest) ∧
      ∃ tokens, ∀ strict, Token.scan strict source = .ok (tokens, [.tokenized tokens.length])) ∨
    ∃ before construct markers opening rest tokens,
      LeavesOpen source before construct markers opening rest ∧
      (∀ strict, Token.scan strict (String.ofList before) =
        .ok (tokens, [.tokenized tokens.length])) ∧
      let place := Place.start.after before
      let behind := Scan.kept construct rest (before.length + opening.length) (place.after opening)
      let lenient := Token.trimEnd markers.left tokens ++ behind
      Token.scan true source = .error ⟨construct, place⟩ ∧
        Token.scan false source =
          .ok (lenient, [.unclosed construct place, .tokenized lenient.length]) := by
  rcases Piece.complete_or_leftOpen source.toList with
    hcomplete | ⟨before, construct, markers, opening, rest, hsource, hbefore, hseam, hopen⟩
  · have hscan := Scan.scan_of_complete hcomplete
    rw [String.ofList_toList] at hscan
    refine .inl ⟨fun before construct markers opening rest hleft => ?_, _, hscan⟩
    -- A construct that is left open is refused.
    rcases hleft.accepted with ⟨result, haccepted⟩
    have hrefused := Scan.scan_of_leftOpen (Scan.complete_of_scan haccepted) hleft.seam
      hleft.leftOpen true
    rw [← hleft.eq, String.ofList_toList, hscan] at hrefused
    cases hrefused
  · have hbefore' := Scan.scan_of_complete hbefore
    have hscan := Scan.scan_of_leftOpen hbefore hseam hopen
    rw [← hsource, String.ofList_toList] at hscan
    exact .inr ⟨before, construct, markers, opening, rest, _,
      ⟨hsource, ⟨_, hbefore' true⟩, hseam, hopen⟩, hbefore', hscan true, hscan false⟩

/-- The tag of a raw block or of a comment that is left open trims the text before it, if its left
marker says so. -/
example :
    (Token.scan false "a \x7b%- raw %\x7d b").toOption.map (·.1) =
        some [⟨.text "a", 0, .start⟩, ⟨.text " b", 12, ⟨1, 13⟩⟩] ∧
      (Token.scan false "a \x7b%- comment %\x7d b").toOption.map (·.1) =
        some [⟨.text "a", 0, .start⟩] := by
  decide +kernel

end Liquid
