import Liquid.Proofs.Token.Front

/-!
# Closed and Open Constructs

A source is cut from its front, one construct after the other. A construct that
is closed gives the same pieces whatever is behind it, and what is behind it is
cut as if it were a source of its own. So the cutting of a source goes on up to
its end, or up to the one construct in it that is left open: what stands before
that is cut as if nothing followed.

## Main definitions

* `Piece.Cut`: What is cut off the front of a source, whatever is behind it.
* `Piece.Spread`: Pieces that lie over a text without a gap.
* `Piece.LeftOpen`: A construct that is left open, with the rest of the source.
* `Piece.openPieces`: What is cut out of it.
* `Piece.Complete`: Sources in which no construct is left open.

## Theorems

* `Piece.next`: What is at the front of a source.
* `Piece.complete_or_leftOpen`: What a whole source comes to.
* `Piece.piecesFrom_complete_append`: What is cut out of a source up to a
  construct that is left open.
-/

namespace Liquid

namespace Piece

/-- A text and a construct that is closed: the text leads up to a delimiter, and the construct is
closed behind what is inside of it. -/
structure Encloses (isOutput : Bool) (before inside : List Char) : Prop where
  leads : Segment.Leads before
  closes : ∀ rest, Text.cut? (closer isOutput) (inside ++ (closer isOutput ++ rest)) =
    some (inside, rest)

/-- A construct with its delimiters. -/
def whole (isOutput : Bool) (inside : List Char) : List Char :=
  opener isOutput ++ inside ++ closer isOutput

section Cases

variable {before inside : List Char}

/-- What a tag is cut to depends on its name: a raw block, a comment, a note or a tag. -/
theorem piecesFrom_whole_tag (h : Encloses false before inside) (rest : List Char) (offset : Nat)
    (place : Place) :
    let markers := (splitMarkers inside).1
    let name := (splitName (splitMarkers inside).2).1
    let args := (splitName (splitMarkers inside).2).2
    let offset' := offset + before.length
    let place' := place.after before
    let offset'' := offset' + (whole false inside).length
    let place'' := place'.after (whole false inside)
    piecesFrom offset place (before ++ (whole false inside ++ rest)) =
      ⟨.text before false, offset, place⟩ ::
        if name == "raw".toList then
          ⟨.silent markers, offset', place'⟩ ::
            match cutRaw? rest with
            | none => [⟨.unclosed .raw place' rest, offset'', place''⟩]
            | some (text, closing, behind) =>
              let block := rest.take (rest.length - behind.length)
              ⟨.text text closing.left, offset'', place''⟩ ::
                ⟨.silent ⟨false, closing.right⟩, offset'' + text.length, place''.after text⟩ ::
                piecesFrom (offset'' + block.length) (place''.after block) behind
        else if name == "comment".toList then
          match commentEnd? 0 rest with
          | none =>
            [⟨.silent markers, offset', place'⟩,
              ⟨.unclosed .comment place' rest, offset'', place''⟩]
          | some (right, behind) =>
            let block := rest.take (rest.length - behind.length)
            ⟨.silent ⟨markers.left, right⟩, offset', place'⟩ ::
              piecesFrom (offset'' + block.length) (place''.after block) behind
        else if name.head? == some '#' then
          ⟨.silent markers, offset', place'⟩ :: piecesFrom offset'' place'' rest
        else
          ⟨.tag markers name args, offset', place'⟩ :: piecesFrom offset'' place'' rest := by
  intro markers name args offset' place' offset'' place''
  have hopen := opening?_of_leads h.leads false (inside ++ (closer false ++ rest))
  have hclose := h.closes rest
  unfold whole
  rw [List.append_assoc, List.append_assoc, piecesFrom]
  -- The opening and the closer are found where they were put.
  split
  · next hnone =>
      rw [hopen] at hnone
      cases hnone
  · next hsome =>
      rw [hopen] at hsome
      cases hsome
      split
      · next hnone =>
          rw [hclose] at hnone
          cases hnone
      · next hsome =>
          rw [hclose] at hsome
          cases hsome
          -- Then the name decides.
          simp only [Bool.false_eq_true, if_false]
          congr 1
          split
          · congr 1
            split
            · next hraw => rw [hraw]; rfl
            · next hraw => rw [hraw]; rfl
          · split
            · split
              · next hcomment => rw [hcomment]; rfl
              · next hcomment => rw [hcomment]; rfl
            · rfl

/-- Whether the piece is no open construct. -/
def isClosed (piece : Piece) : Bool :=
  match piece.content with
  | .unclosed .. => false
  | _ => true

/-- Whether a text that ends with a delimiter is cut into pieces, none of them an open construct,
whatever is behind it. -/
structure Cut (used : List Char) (pieces : Nat → Place → List Piece) : Prop where
  delimited : ∃ isOutput, closer isOutput <:+ used
  cut : ∀ rest offset place, piecesFrom offset place (used ++ rest) =
    pieces offset place ++ piecesFrom (offset + used.length) (place.after used) rest
  closed : ∀ offset place, (pieces offset place).all isClosed = true

/-- Whether a piece other than an open construct is cut from a part of a source. A text is all of
it, an output or a tag is with its delimiters. -/
inductive CutFrom : List Char → Piece.Content → Prop
  | text (cs : List Char) (trimEnd : Bool) : CutFrom cs (.text cs trimEnd)
  | output (inside : List Char) (markers : Markers) (source : List Char) :
      CutFrom (whole true inside) (.output markers source)
  | tag (inside : List Char) (markers : Markers) (name args : List Char) :
      CutFrom (whole false inside) (.tag markers name args)
  | silent (cs : List Char) (markers : Markers) : CutFrom cs (.silent markers)

/-- Whether pieces lie over a text one behind the other, with nothing left out, wherever the text
starts. -/
inductive Spread : List Char → (Nat → Place → List Piece) → Prop
  | nil : Spread [] fun _ _ => []
  | cons {span rest : List Char} {content : Piece.Content} {pieces : Nat → Place → List Piece} :
      CutFrom span content → Spread rest pieces →
      Spread (span ++ rest) fun offset place =>
        ⟨content, offset, place⟩ :: pieces (offset + span.length) (place.after span)

/-- One piece is spread over its span. -/
theorem spread_singleton {span : List Char} {content : Piece.Content} (h : CutFrom span content) :
    Spread span fun offset place => [⟨content, offset, place⟩] := by
  have hspread := Spread.cons h .nil
  rwa [List.append_nil] at hspread

/-- A construct behind the text that leads up to it. -/
theorem spread_construct {span : List Char} {content : Piece.Content} (before : List Char)
    (h : CutFrom span content) :
    Spread (before ++ span) fun offset place =>
      [⟨.text before false, offset, place⟩,
        ⟨content, offset + before.length, place.after before⟩] :=
  .cons (.text before false) (spread_singleton h)

/-- A construct ends with its closer. -/
theorem closer_suffix (before : List Char) (isOutput : Bool) (inside : List Char) :
    closer isOutput <:+ before ++ whole isOutput inside :=
  (List.suffix_append _ _).trans (List.suffix_append _ _)

/-- An output behind a text is a cut of two pieces. -/
theorem cut_output (h : Encloses true before inside) :
    Cut (before ++ whole true inside) fun offset place =>
      [⟨.text before false, offset, place⟩,
        ⟨.output (splitMarkers inside).1 (Text.strip (splitMarkers inside).2),
          offset + before.length, place.after before⟩] where
  delimited := ⟨true, closer_suffix before true inside⟩
  cut rest offset place := by
    have hopen := opening?_of_leads h.leads true (inside ++ (closer true ++ rest))
    unfold whole
    simp only [List.append_assoc]
    rw [Segment.piecesFrom_output offset place hopen (h.closes rest)]
    simp [Place.after_append, Nat.add_assoc]
  closed _ _ := rfl

/-- A tag behind a text is a cut of two pieces, if its name is none that the lexer treats itself. -/
theorem cut_tag (h : Encloses false before inside)
    (hraw : (splitName (splitMarkers inside).2).1 ≠ "raw".toList)
    (hcomment : (splitName (splitMarkers inside).2).1 ≠ "comment".toList)
    (hnote : (splitName (splitMarkers inside).2).1.head? ≠ some '#') :
    Cut (before ++ whole false inside) fun offset place =>
      [⟨.text before false, offset, place⟩,
        ⟨.tag (splitMarkers inside).1 (splitName (splitMarkers inside).2).1
            (splitName (splitMarkers inside).2).2,
          offset + before.length, place.after before⟩] where
  delimited := ⟨false, closer_suffix before false inside⟩
  cut rest offset place := by
    rw [List.append_assoc, piecesFrom_whole_tag h, beq_eq_false_iff_ne.mpr hraw,
      beq_eq_false_iff_ne.mpr hcomment, beq_eq_false_iff_ne.mpr hnote,
      if_neg Bool.false_ne_true, if_neg Bool.false_ne_true, if_neg Bool.false_ne_true]
    simp [Place.after_append, Nat.add_assoc]
  closed _ _ := rfl

/-- A tag that is a note leaves nothing but its markers. -/
theorem cut_note (h : Encloses false before inside)
    (hname : (splitName (splitMarkers inside).2).1.head? = some '#') :
    Cut (before ++ whole false inside) fun offset place =>
      [⟨.text before false, offset, place⟩,
        ⟨.silent (splitMarkers inside).1, offset + before.length, place.after before⟩] where
  delimited := ⟨false, closer_suffix before false inside⟩
  cut rest offset place := by
    rw [List.append_assoc, piecesFrom_whole_tag h]
    generalize (splitName (splitMarkers inside).2).1 = name at hname
    -- A name with a hash in front is neither of the two words.
    have hraw : (name == "raw".toList) = false := by
      rw [beq_eq_false_iff_ne]
      rintro rfl
      cases hname
    have hcomment : (name == "comment".toList) = false := by
      rw [beq_eq_false_iff_ne]
      rintro rfl
      cases hname
    rw [hraw, hcomment, hname, if_neg Bool.false_ne_true, if_neg Bool.false_ne_true,
      if_pos (beq_self_eq_true _)]
    simp [Place.after_append, Nat.add_assoc]
  closed _ _ := rfl

/-- A raw block, with its closing tag. -/
theorem cut_raw (h : Encloses false before inside)
    (hname : (splitName (splitMarkers inside).2).1 = "raw".toList) {text block : List Char}
    {closing : Markers} (hclosed : closer false <:+ block)
    (hblock : ∀ rest, cutRaw? (block ++ rest) = some (text, closing, rest)) :
    Cut (before ++ (whole false inside ++ block)) fun offset place =>
      let offset' := offset + before.length
      let place' := place.after before
      let offset'' := offset' + (whole false inside).length
      let place'' := place'.after (whole false inside)
      [⟨.text before false, offset, place⟩, ⟨.silent (splitMarkers inside).1, offset', place'⟩,
        ⟨.text text closing.left, offset'', place''⟩,
        ⟨.silent ⟨false, closing.right⟩, offset'' + text.length, place''.after text⟩] where
  delimited := ⟨false, hclosed.trans ((List.suffix_append _ _).trans (List.suffix_append _ _))⟩
  cut rest offset place := by
    rw [List.append_assoc, List.append_assoc, piecesFrom_whole_tag h, hname,
      if_pos (beq_self_eq_true _), hblock]
    simp [Place.after_append, Nat.add_assoc]
  closed _ _ := rfl

/-- A comment, with all that is in it. -/
theorem cut_comment (h : Encloses false before inside)
    (hname : (splitName (splitMarkers inside).2).1 = "comment".toList) {block : List Char}
    {right : Bool} (hclosed : closer false <:+ block)
    (hblock : ∀ rest, commentEnd? 0 (block ++ rest) = some (right, rest)) :
    Cut (before ++ (whole false inside ++ block)) fun offset place =>
      [⟨.text before false, offset, place⟩,
        ⟨.silent ⟨(splitMarkers inside).1.left, right⟩, offset + before.length,
          place.after before⟩] where
  delimited := ⟨false, hclosed.trans ((List.suffix_append _ _).trans (List.suffix_append _ _))⟩
  cut rest offset place := by
    rw [List.append_assoc, List.append_assoc, piecesFrom_whole_tag h, hname, if_neg (by decide),
      if_pos (beq_self_eq_true _), hblock]
    simp [Place.after_append, Nat.add_assoc]
  closed _ _ := rfl

/-- A construct that is left open, told by the markers of the tag that opens it, that tag, and the
rest of the source. An output or a tag that is left open has no end, and so all of it is rest. -/
inductive LeftOpen : Unclosed → Markers → List Char → List Char → Prop
  | output {after : List Char} :
      ¬closer true <:+: after → LeftOpen .output ⟨false, false⟩ [] (opener true ++ after)
  | tag {after : List Char} :
      ¬closer false <:+: after → LeftOpen .tag ⟨false, false⟩ [] (opener false ++ after)
  | raw {inside rest : List Char} :
      ¬closer false <:+: inside → (splitName (splitMarkers inside).2).1 = "raw".toList →
      (∀ behind, behind <:+ rest → endRaw? behind = none) →
      LeftOpen .raw (splitMarkers inside).1 (whole false inside) rest
  | comment {inside rest : List Char} :
      ¬closer false <:+: inside → (splitName (splitMarkers inside).2).1 = "comment".toList →
      commentEnd? 0 rest = none →
      LeftOpen .comment (splitMarkers inside).1 (whole false inside) rest

/-- What is cut out of a construct that is left open: the tag that opens it, if it is a block, and
the rest of the source. -/
def openPieces (construct : Unclosed) (markers : Markers) (opening rest : List Char)
    (offset : Nat) (place : Place) : List Piece :=
  (if opening.isEmpty then [] else [⟨.silent markers, offset, place⟩]) ++
    [⟨.unclosed construct place rest, offset + opening.length, place.after opening⟩]

/-- A raw block has no end if no end starts at any of its suffixes. -/
theorem cutRaw?_eq_none_iff {cs : List Char} :
    cutRaw? cs = none ↔ ∀ behind, behind <:+ cs → endRaw? behind = none := by
  induction cs with
  | nil =>
      refine ⟨fun _ behind hbehind => ?_, fun _ => rfl⟩
      rw [List.suffix_nil.mp hbehind]
      rfl
  | cons c cs ih =>
      -- A suffix of a longer list is the list itself or a suffix of its tail.
      have hcons : (∀ behind, behind <:+ c :: cs → endRaw? behind = none) ↔
          endRaw? (c :: cs) = none ∧ ∀ behind, behind <:+ cs → endRaw? behind = none := by
        simp only [List.suffix_cons_iff, forall_eq_or_imp]
      rw [hcons, ← ih, cutRaw?]
      cases endRaw? (c :: cs) <;> simp

/-- A construct that is not closed is cut out with all that is behind it. -/
theorem piecesFrom_delimiter {cs after : List Char} {isOutput : Bool}
    (hopen : opening? cs = some (before, isOutput, after))
    (hclose : Text.cut? (closer isOutput) after = none) (offset : Nat) (place : Place) :
    piecesFrom offset place cs =
      [⟨.text before false, offset, place⟩,
        ⟨.unclosed (if isOutput then .output else .tag) (place.after before)
            (opener isOutput ++ after), offset + before.length, place.after before⟩] := by
  rw [piecesFrom]
  -- The opening is found, and its closer is not.
  split
  · next hnone =>
      rw [hopen] at hnone
      cases hnone
  · next hsome =>
      rw [hopen] at hsome
      cases hsome
      split
      · rfl
      · next hsome =>
          rw [hclose] at hsome
          cases hsome

/-- What is found between an opening and its closer is enclosed. -/
theorem encloses_of_cut? {cs after rest : List Char} {isOutput : Bool}
    (hopen : opening? cs = some (before, isOutput, after))
    (hclose : Text.cut? (closer isOutput) after = some (inside, rest)) :
    Encloses isOutput before inside ∧ cs = before ++ (whole isOutput inside ++ rest) := by
  rcases leads_of_opening? hopen with ⟨hleads, rfl⟩
  refine ⟨⟨hleads, Text.cut?_local hclose⟩, ?_⟩
  rw [Text.eq_append_of_cut? hclose]
  simp [whole]

/-- A construct is never empty. -/
theorem whole_ne_nil (isOutput : Bool) (inside : List Char) : whole isOutput inside ≠ [] := by
  cases isOutput <;> simp [whole, opener]

/-- A construct that is left open, and the text that leads up to it. -/
theorem piecesFrom_leftOpen {opening rest : List Char} {construct : Unclosed} {markers : Markers}
    (hleads : Segment.Leads before) (h : LeftOpen construct markers opening rest) (offset : Nat)
    (place : Place) :
    piecesFrom offset place (before ++ (opening ++ rest)) =
      ⟨.text before false, offset, place⟩ ::
        openPieces construct markers opening rest (offset + before.length)
          (place.after before) := by
  have hencloses {inside : List Char} (hinside : ¬closer false <:+: inside) :
      Encloses false before inside :=
    ⟨hleads, fun rest => Text.cut?_pair_of_ne (by decide) rest hinside⟩
  -- An output or a tag has no closer at all, a raw block or a comment no end behind its opening
  -- tag.
  cases h with
  | @output after habsent =>
      exact piecesFrom_delimiter (opening?_of_leads hleads true after)
        (Text.cut?_eq_none_iff.mpr habsent) offset place
  | @tag after habsent =>
      exact piecesFrom_delimiter (opening?_of_leads hleads false after)
        (Text.cut?_eq_none_iff.mpr habsent) offset place
  | raw hinside hname hend =>
      rw [piecesFrom_whole_tag (hencloses hinside), hname, if_pos (beq_self_eq_true _),
        cutRaw?_eq_none_iff.mpr hend]
      simp [openPieces, whole_ne_nil]
  | comment hinside hname hend =>
      rw [piecesFrom_whole_tag (hencloses hinside), hname, if_neg (by decide),
        if_pos (beq_self_eq_true _), hend]
      simp [openPieces, whole_ne_nil]

/-- What is at the front of a source: no construct, one that is closed, or one that is not. -/
inductive Next (cs : List Char) : Prop
  | text : opening? cs = none → Next cs
  | cut {used : List Char} {pieces : Nat → Place → List Piece} (rest : List Char) :
      cs = used ++ rest → Cut used pieces → Spread used pieces → Next cs
  | leftOpen {before opening rest : List Char} {construct : Unclosed} {markers : Markers} :
      LeftOpen construct markers opening rest → Segment.Leads before →
      cs = before ++ (opening ++ rest) → Next cs

/-- A tag that is closed, by what it is called. -/
theorem next_tag (h : Encloses false before inside) (hinside : ¬closer false <:+: inside)
    (rest : List Char) : Next (before ++ (whole false inside ++ rest)) := by
  by_cases hraw : (splitName (splitMarkers inside).2).1 = "raw".toList
  · cases hend : cutRaw? rest with
    | none => exact .leftOpen (.raw hinside hraw (cutRaw?_eq_none_iff.mp hend)) h.leads rfl
    | some parts =>
        rcases parts with ⟨text, closing, behind⟩
        rcases cutRaw?_local hend with ⟨tail, rfl, hclosed, hlocal⟩
        have hblock (rest : List Char) :
            cutRaw? (text ++ '\x7b' :: tail ++ rest) = some (text, closing, rest) := by
          simpa using hlocal rest
        have hclosed' : closer false <:+ text ++ '\x7b' :: tail :=
          hclosed.trans ⟨text ++ ['\x7b'], by simp⟩
        refine .cut behind (by simp) (cut_raw h hraw hclosed' hblock) ?_
        -- The tag, the text inside, and the tag that closes the block.
        have hclosing := spread_singleton (.silent ('\x7b' :: tail) ⟨false, closing.right⟩)
        have hblock := Spread.cons (.text text closing.left) hclosing
        exact .cons (.text before false) (.cons (.silent (whole false inside) _) hblock)
  · by_cases hcomment : (splitName (splitMarkers inside).2).1 = "comment".toList
    · cases hend : commentEnd? 0 rest with
      | none => exact .leftOpen (.comment hinside hcomment hend) h.leads rfl
      | some parts =>
          rcases parts with ⟨right, behind⟩
          rcases commentEnd?_local hend with ⟨block, rfl, hclosed, hblock⟩
          exact .cut behind (by simp) (cut_comment h hcomment hclosed hblock)
            (spread_construct before (.silent _ _))
    · by_cases hnote : (splitName (splitMarkers inside).2).1.head? = some '#'
      · exact .cut rest (List.append_assoc ..).symm (cut_note h hnote)
          (spread_construct before (.silent _ _))
      · exact .cut rest (List.append_assoc ..).symm (cut_tag h hraw hcomment hnote)
          (spread_construct before (.tag _ _ _ _))

/-- What comes next in a source: a text up to its end, a cut, or a construct that is left open. -/
theorem next (cs : List Char) : Next cs := by
  -- By the first opening, and by the first closer behind it.
  cases hopen : opening? cs with
  | none => exact .text hopen
  | some parts =>
      rcases parts with ⟨before, isOutput, after⟩
      cases hclose : Text.cut? (closer isOutput) after with
      | none =>
          have habsent := Text.cut?_eq_none_iff.mp hclose
          rcases leads_of_opening? hopen with ⟨hleads, hcs⟩
          cases isOutput with
          | true => exact .leftOpen (.output habsent) hleads hcs
          | false => exact .leftOpen (.tag habsent) hleads hcs
      | some parts =>
          rcases parts with ⟨inside, rest⟩
          rcases encloses_of_cut? hopen hclose with ⟨hencloses, rfl⟩
          cases isOutput with
          | true =>
              exact .cut rest (List.append_assoc ..).symm (cut_output hencloses)
                (spread_construct before (.output _ _ _))
          | false => exact next_tag hencloses (Text.not_infix_of_cut? (by decide) hclose) rest

/-- The sources in which no construct is left open: one that is closed after the other, and then a
text without any. -/
inductive Complete : List Char → Prop
  | text {cs : List Char} : opening? cs = none → Complete cs
  | cut {used rest : List Char} {pieces : Nat → Place → List Piece} :
      Cut used pieces → Complete rest → Complete (used ++ rest)

/-- In a complete source every piece is closed. -/
theorem Complete.all_isClosed {cs : List Char} (h : Complete cs) (offset : Nat) (place : Place) :
    (piecesFrom offset place cs).all isClosed = true := by
  induction h generalizing offset place with
  | text hopen =>
      rw [Segment.piecesFrom_text offset place hopen]
      rfl
  | cut hcut _ ih =>
      rw [hcut.cut, List.all_append, hcut.closed, ih]
      rfl

/-- What is cut out of a source up to a construct that is left open is cut out as if nothing
followed. The text before that construct must not end with half a delimiter. -/
theorem piecesFrom_complete_append {opening rest : List Char} {construct : Unclosed}
    {markers : Markers} (hbefore : Complete before) (hseam : before.getLast? ≠ some '\x7b')
    (h : LeftOpen construct markers opening rest) (offset : Nat) (place : Place) :
    piecesFrom offset place (before ++ (opening ++ rest)) =
      piecesFrom offset place before ++
        openPieces construct markers opening rest (offset + before.length)
          (place.after before) := by
  -- On the cuts of the complete part; the construct stands behind its last text.
  induction hbefore generalizing offset place with
  | text hopen =>
      rcases opening?_eq_none_iff.mp hopen with ⟨houtput, htag⟩
      rw [piecesFrom_leftOpen ⟨houtput, htag, hseam⟩ h, Segment.piecesFrom_text offset place hopen]
      rfl
  | @cut used before pieces hcut _ ih =>
      have hseam' := Text.getLast?_ne_of_append hseam
      rw [List.append_assoc, hcut.cut, hcut.cut, ih hseam', List.append_assoc, List.length_append,
        Place.after_append, Nat.add_assoc]

/-- A cut is not empty. -/
theorem Cut.length_lt {used : List Char} {pieces : Nat → Place → List Piece} (h : Cut used pieces)
    (rest : List Char) : rest.length < (used ++ rest).length := by
  rcases h.delimited with ⟨isOutput, first, rfl⟩
  cases isOutput <;> simp [closer] <;> omega

/-- A closed construct does not end with half a delimiter. -/
theorem Cut.getLast?_append_ne {used rest : List Char} {pieces : Nat → Place → List Piece}
    (h : Cut used pieces) (hrest : rest.getLast? ≠ some '\x7b') :
    (used ++ rest).getLast? ≠ some '\x7b' := by
  rcases h.delimited with ⟨isOutput, first, rfl⟩
  rw [List.getLast?_append]
  cases hlast : rest.getLast? with
  | none => cases isOutput <;> simp [closer]
  | some c =>
      rw [Option.some_or, ← hlast]
      exact hrest

/-- No construct of a source is left open, or one is, behind a source of its own in which none
is. -/
theorem complete_or_leftOpen (cs : List Char) :
    Complete cs ∨ ∃ before construct markers opening rest,
      cs = before ++ (opening ++ rest) ∧ Complete before ∧ before.getLast? ≠ some '\x7b' ∧
      LeftOpen construct markers opening rest := by
  cases next cs with
  | text hopen => exact .inl (.text hopen)
  -- What is left behind a cut is shorter, and is complete or not in its turn.
  | @cut used pieces rest hcs hcut _ =>
      have hlength := hcs ▸ hcut.length_lt rest
      rcases complete_or_leftOpen rest with
        hrest | ⟨before, construct, markers, opening, behind, rfl, hbefore, hseam, hopen⟩
      · exact .inl (hcs ▸ hrest.cut hcut)
      · exact .inr ⟨used ++ before, construct, markers, opening, behind, by simp [hcs],
          .cut hcut hbefore, hcut.getLast?_append_ne hseam, hopen⟩
  | @leftOpen before opening rest construct markers hopen hleads hcs =>
      have hbefore := opening?_eq_none_iff.mpr ⟨hleads.output, hleads.tag⟩
      exact .inr ⟨before, construct, markers, opening, rest, hcs, .text hbefore, hleads.last, hopen⟩
termination_by cs.length

end Cases

end Piece

end Liquid
