import Liquid.Text.Search
import Liquid.Text.Word
import Liquid.Text.Blank
import Liquid.Token

/-!
# Pieces

The first half of scanning: a source cut at its delimiters, nothing trimmed
and nothing judged. What is left for the second half is local. A marker says
which neighbour to trim, and an open construct at the end says how far the
cutting came, so that strict and lenient scanning read the same pieces and
differ only in what they make of the last one.

A raw block is cut into its opening tag, which leaves no token of its own, the
text inside, and its closing tag. A comment is cut out whole, with the comments
inside it: its edges are looked for by their shape alone, wherever a tag
delimiter stands, so that no other tag inside has to be well formed.

## Main definitions

* `Markers`: Which neighbours of a construct are trimmed.
* `Piece`: A text or a construct, and where it starts.
* `opening?`: The first delimiter that opens an output or a tag.
* `cutRaw?`: The inside of a raw block, and what follows the block.
* `commentEnd?`: What follows a comment block.
* `pieces`: A source in pieces.
-/

namespace Liquid

/-- Which neighbours of a construct are trimmed: the text before it, the text behind it. -/
structure Markers where
  left : Bool
  right : Bool
deriving DecidableEq

/-- What a piece holds. -/
inductive Piece.Content
  /-- A text; the inside of a raw block may have its end trimmed by the closing tag. -/
  | text (text : List Char) (trimEnd : Bool)
  | output (markers : Markers) (source : List Char)
  | tag (markers : Markers) (name args : List Char)
  /-- A construct that leaves no token. -/
  | silent (markers : Markers)
  /-- A construct that is never closed, where it was opened, and the rest of the source. -/
  | unclosed (construct : Unclosed) (opened : Place) (rest : List Char)
deriving DecidableEq

/-- A text or a construct, and where it starts. -/
structure Piece where
  content : Piece.Content
  offset : Nat
  place : Place
deriving DecidableEq

namespace Piece

/-- The text before the first delimiter that opens something, whether that is an output, and the
text behind the delimiter. -/
def opening? : List Char → Option (List Char × Bool × List Char)
  | '\x7b' :: '\x7b' :: cs => some ([], true, cs)
  | '\x7b' :: '%' :: cs => some ([], false, cs)
  | c :: cs => (opening? cs).map fun (before, isOutput, after) => (c :: before, isOutput, after)
  | [] => none

/-- The delimiter that closes an output or a tag. -/
def closer (isOutput : Bool) : List Char :=
  if isOutput then ['\x7d', '\x7d'] else ['%', '\x7d']

/-- The delimiter that opens an output or a tag. -/
def opener (isOutput : Bool) : List Char :=
  if isOutput then ['\x7b', '\x7b'] else ['\x7b', '%']

/-- The markers at the two ends of the inside of a construct, and the inside without them. A lone
hyphen is a marker on the left. -/
def splitMarkers (inner : List Char) : Markers × List Char :=
  let left := inner.head? == some '-'
  -- The left one is taken first, so that one hyphen is never counted twice.
  let inner := if left then inner.drop 1 else inner
  let right := inner.getLast? == some '-'
  (⟨left, right⟩, if right then inner.dropLast else inner)

/-- The first word of the inside of a tag, and the rest of it without blanks at the ends. -/
def splitName (inner : List Char) : List Char × List Char :=
  let inner := Text.stripLeft inner
  (inner.takeWhile fun c => !Text.isBlank c, Text.strip (inner.dropWhile fun c => !Text.isBlank c))

/-- The text without the hyphen that it may start with, and whether it did. -/
def splitHyphen : List Char → Bool × List Char
  | '-' :: cs => (true, cs)
  | cs => (false, cs)

/-- What follows the delimiter of a tag, its marker and blanks, at the start of the text. -/
def tagStart? (cs : List Char) : Option (Bool × List Char) :=
  (Text.dropStart? ['\x7b', '%'] cs).map fun cs =>
    let (left, cs) := splitHyphen cs
    (left, Text.stripLeft cs)

/-- The markers of the closing tag of a raw block at the start of the text, and what follows. -/
def endRaw? (cs : List Char) : Option (Markers × List Char) := do
  let (left, cs) ← tagStart? cs
  let cs ← Text.dropStart? "endraw".toList cs
  let (right, cs) := splitHyphen (Text.stripLeft cs)
  let rest ← Text.dropStart? ['%', '\x7d'] cs
  some (⟨left, right⟩, rest)

/-- The inside of a raw block, the markers of its closing tag, and what follows that. -/
def cutRaw? : List Char → Option (List Char × Markers × List Char)
  | [] => none
  | c :: cs =>
    match endRaw? (c :: cs) with
    | some (markers, rest) => some ([], markers, rest)
    | none => (cutRaw? cs).map fun (body, markers, rest) => (c :: body, markers, rest)

/-- Whether the tag that starts the text opens a comment rather than closing one, whether it has a
marker on its right, and what follows it; `none` if it does neither. -/
def commentEdge? (cs : List Char) : Option (Bool × Bool × List Char) := do
  let (_, cs) ← tagStart? cs
  let (isOpening, cs) ←
    ((Text.dropStart? "comment".toList cs).map fun cs => (true, cs)).or
      ((Text.dropStart? "endcomment".toList cs).map fun cs => (false, cs))
  -- The name must end here: a longer one that starts like it is another tag.
  if cs.head?.any Text.isWordChar then none
  else
    let (inner, rest) ← Text.cut? ['%', '\x7d'] cs
    some (isOpening, inner.getLast? == some '-', rest)

/-- The first tag in the text that opens or closes a comment, as in `commentEdge?`. -/
def nextEdge? : List Char → Option (Bool × Bool × List Char)
  | [] => none
  | c :: cs => (commentEdge? (c :: cs)).or (nextEdge? cs)

theorem length_dropStart? {needle cs rest : List Char} (h : Text.dropStart? needle cs = some rest) :
    rest.length + needle.length = cs.length := by
  rw [Text.eq_append_of_dropStart? h]
  simp [Nat.add_comm]

theorem length_stripLeft_le (cs : List Char) : (Text.stripLeft cs).length ≤ cs.length :=
  (List.dropWhile_suffix _).length_le

theorem length_splitHyphen_le (cs : List Char) : (splitHyphen cs).2.length ≤ cs.length := by
  unfold splitHyphen
  split <;> simp

theorem length_tagStart?_lt {cs rest : List Char} {left : Bool}
    (h : tagStart? cs = some (left, rest)) : rest.length < cs.length := by
  obtain ⟨after, hafter, heq⟩ := Option.map_eq_some_iff.1 h
  have hlen := length_dropStart? hafter
  simp only [Prod.mk.injEq] at heq
  have hstrip := length_stripLeft_le (splitHyphen after).2
  have hyphen := length_splitHyphen_le after
  rw [← heq.2]
  simp only [List.length_cons, List.length_nil] at hlen
  omega

theorem length_endRaw?_lt {cs rest : List Char} {markers : Markers}
    (h : endRaw? cs = some (markers, rest)) : rest.length < cs.length := by
  unfold endRaw? at h
  simp only [Option.bind_eq_bind, Option.bind_eq_some_iff, Option.some.injEq, Prod.mk.injEq] at h
  obtain ⟨⟨left, a⟩, ha, b, hb, c, hc, -, rfl⟩ := h
  have h1 := length_tagStart?_lt ha
  have h2 := length_dropStart? hb
  have h3 := length_dropStart? hc
  have h4 := length_splitHyphen_le (Text.stripLeft b)
  have h5 := length_stripLeft_le b
  dsimp only at h2
  omega

theorem length_cutRaw?_lt {cs body rest : List Char} {markers : Markers}
    (h : cutRaw? cs = some (body, markers, rest)) : rest.length < cs.length := by
  induction cs generalizing body with
  | nil => simp [cutRaw?] at h
  | cons c cs ih =>
    unfold cutRaw? at h
    split at h
    · next hend =>
      simp only [Option.some.injEq, Prod.mk.injEq] at h
      obtain ⟨-, -, rfl⟩ := h
      exact length_endRaw?_lt hend
    · obtain ⟨⟨b, m, r⟩, hcut, heq⟩ := Option.map_eq_some_iff.1 h
      simp only [Prod.mk.injEq] at heq
      obtain ⟨-, rfl, rfl⟩ := heq
      have := ih hcut
      simp only [List.length_cons]
      omega

theorem length_commentEdge?_lt {cs rest : List Char} {isOpening right : Bool}
    (h : commentEdge? cs = some (isOpening, right, rest)) : rest.length < cs.length := by
  unfold commentEdge? at h
  simp only [Option.bind_eq_bind, Option.bind_eq_some_iff] at h
  obtain ⟨⟨left, a⟩, ha, ⟨o, b⟩, hb, h⟩ := h
  have h1 := length_tagStart?_lt ha
  split at h
  · simp at h
  · obtain ⟨⟨inner, r⟩, hcut, heq⟩ := Option.bind_eq_some_iff.1 h
    simp only [Option.some.injEq, Prod.mk.injEq] at heq
    obtain ⟨-, -, rfl⟩ := heq
    have h2 := Text.length_of_cut? hcut
    dsimp only at h2 hb
    -- Either name is read off the front of what follows the delimiter.
    have h3 : b.length ≤ a.length := by
      rw [Option.or_eq_some_iff] at hb
      rcases hb with hb | ⟨-, hb⟩
      all_goals
        obtain ⟨x, hx, heq⟩ := Option.map_eq_some_iff.1 hb
        simp only [Prod.mk.injEq] at heq
        have := length_dropStart? hx
        rw [← heq.2]
        omega
    omega

theorem length_nextEdge?_lt {cs rest : List Char} {isOpening right : Bool}
    (h : nextEdge? cs = some (isOpening, right, rest)) : rest.length < cs.length := by
  induction cs with
  | nil => simp [nextEdge?] at h
  | cons c cs ih =>
    rw [nextEdge?, Option.or_eq_some_iff] at h
    rcases h with h | ⟨-, h⟩
    · exact length_commentEdge?_lt h
    · have := ih h
      simp only [List.length_cons]
      omega

/-- What follows the tag that closes a comment, and whether that tag has a marker on its right.
Inside the comment, `nested` further ones are open. -/
def commentEnd? (nested : Nat) (cs : List Char) : Option (Bool × List Char) :=
  match _h : nextEdge? cs with
  | none => none
  | some (true, _, rest) => commentEnd? (nested + 1) rest
  | some (false, right, rest) =>
    match nested with
    | 0 => some (right, rest)
    | n + 1 => commentEnd? n rest
termination_by cs.length
decreasing_by
  all_goals exact length_nextEdge?_lt _h

theorem length_commentEnd?_lt {nested : Nat} {cs rest : List Char} {right : Bool}
    (h : commentEnd? nested cs = some (right, rest)) : rest.length < cs.length := by
  fun_induction commentEnd? nested cs with
  | case1 => simp at h
  | case2 nested cs _ behind hedge ih =>
    have := length_nextEdge?_lt hedge
    have := ih h
    omega
  | case3 cs _ behind hedge =>
    simp only [Option.some.injEq, Prod.mk.injEq] at h
    rw [← h.2]
    exact length_nextEdge?_lt hedge
  | case4 cs _ behind hedge n ih =>
    have := length_nextEdge?_lt hedge
    have := ih h
    omega

theorem length_opening?_lt {cs before after : List Char} {isOutput : Bool}
    (h : opening? cs = some (before, isOutput, after)) : after.length < cs.length := by
  fun_induction opening? cs generalizing before with
  | case1 cs =>
    simp only [Option.some.injEq, Prod.mk.injEq] at h
    rw [← h.2.2]
    simp only [List.length_cons]
    omega
  | case2 cs =>
    simp only [Option.some.injEq, Prod.mk.injEq] at h
    rw [← h.2.2]
    simp only [List.length_cons]
    omega
  | case3 c cs _ _ ih =>
    obtain ⟨⟨b, o, a⟩, hcut, heq⟩ := Option.map_eq_some_iff.1 h
    simp only [Prod.mk.injEq] at heq
    obtain ⟨-, rfl, rfl⟩ := heq
    have := ih hcut
    simp only [List.length_cons]
    omega
  | case4 => simp at h

/-- The pieces of a source that starts at the given offset and place. -/
def piecesFrom (offset : Nat) (place : Place) (cs : List Char) : List Piece :=
  match _hopen : opening? cs with
  | none => [⟨.text cs false, offset, place⟩]
  | some (before, isOutput, after) =>
    let offset' := offset + before.length
    let place' := place.after before
    let opened := opener isOutput
    -- The text goes first even where it is empty, because it uses up a marker before it.
    ⟨.text before false, offset, place⟩ ::
      match _hclose : Text.cut? (closer isOutput) after with
      | none =>
        -- All of the rest belongs to the open construct, so this piece is the last.
        [⟨.unclosed (if isOutput then .output else .tag) place' (opened ++ after), offset', place'⟩]
      | some (inner, rest) =>
        let whole := opened ++ inner ++ closer isOutput
        let (markers, body) := splitMarkers inner
        let offset'' := offset' + whole.length
        let place'' := place'.after whole
        if isOutput then
          ⟨.output markers (Text.strip body), offset', place'⟩ :: piecesFrom offset'' place'' rest
        else
          let (name, args) := splitName body
          if name == "raw".toList then
            ⟨.silent markers, offset', place'⟩ ::
              match _hraw : cutRaw? rest with
              | none => [⟨.unclosed .raw place' rest, offset'', place''⟩]
              | some (text, closing, behind) =>
                -- The text inside and the closing tag are pieces of their own.
                let block := rest.take (rest.length - behind.length)
                ⟨.text text closing.left, offset'', place''⟩ ::
                  ⟨.silent ⟨false, closing.right⟩, offset'' + text.length, place''.after text⟩ ::
                  piecesFrom (offset'' + block.length) (place''.after block) behind
          else if name == "comment".toList then
            match _hcomment : commentEnd? 0 rest with
            | none =>
              [⟨.silent markers, offset', place'⟩,
                ⟨.unclosed .comment place' rest, offset'', place''⟩]
            | some (right, behind) =>
              -- Only the outer two markers of a comment count.
              let block := rest.take (rest.length - behind.length)
              ⟨.silent ⟨markers.left, right⟩, offset', place'⟩ ::
                piecesFrom (offset'' + block.length) (place''.after block) behind
          else if name.head? == some '#' then
            ⟨.silent markers, offset', place'⟩ :: piecesFrom offset'' place'' rest
          else
            ⟨.tag markers name args, offset', place'⟩ :: piecesFrom offset'' place'' rest
termination_by cs.length
decreasing_by
  all_goals
    have h1 := length_opening?_lt _hopen
    have h2 := Text.length_of_cut? _hclose
  · omega
  · have h3 := length_cutRaw?_lt _hraw
    omega
  · have h3 := length_commentEnd?_lt _hcomment
    omega
  · omega
  · omega

/-- A source in pieces. -/
def pieces (source : String) : List Piece :=
  piecesFrom 0 .start source.toList

end Piece

end Liquid
