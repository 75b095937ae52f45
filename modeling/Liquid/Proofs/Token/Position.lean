import Liquid.Proofs.Token.Standing

/-!
# Positions of Tokens

The pieces of a source lie over it one behind the other, with nothing left out.
Reading them keeps this up for tokens: one that is added starts where the source
has been read up to, and trimming a text, or dropping it when nothing is left of
it, moves no other. So each token has a part of the source for itself, from its
own position to that of the next token, and finds there what it holds. Only
blanks are trimmed, so a text that does not stand right at its position stands
behind blanks.

## Main definitions

* `Place.CountedIn`: The line and column behind a text.
* `Token.Upto`: Tokens of a source that has been read up to some point.
* `Token.Positioned`: A token in the part of the source up to the next one.

## Theorems

* `Scan.upto_read`, `Scan.upto_run`: Reading keeps tokens in order.
* `Token.scan_positioned`: The positions of the tokens of a source.
-/

namespace Liquid

namespace Place

/-- Whether a place is the one behind a text, in lines and columns. On the first line the column is
one more than the offset; on a later one it is the distance to the last line feed. -/
structure CountedIn (before : List Char) (place : Place) : Prop where
  line : place.line = before.count '\n' + 1
  first : '\n' ∉ before → place.column = before.length + 1
  later : ∀ i, before[i]? = some '\n' → '\n' ∉ before.drop (i + 1) →
    place.column = before.length - i

/-- Columns start behind a line feed. -/
theorem column_behind_append {lines last : List Char} (hlast : '\n' ∉ last)
    (hlines : lines.getLast? = none ∨ lines.getLast? = some '\n') :
    (behind (lines ++ last)).column = last.length + 1 := by
  have hall : ∀ c ∈ last.reverse, (c != '\n') = true := by
    intro c hc
    rw [bne_iff_ne]
    rintro rfl
    exact hlast (List.mem_reverse.mp hc)
  unfold behind
  rw [List.reverse_append, List.takeWhile_append_of_pos hall]
  -- The last line is the whole text, or it starts behind a line break.
  rcases hlines with hlines | hlines
  · rw [List.getLast?_eq_none_iff.mp hlines]
    simp
  · rcases List.getLast?_eq_some_iff.mp hlines with ⟨lines', rfl⟩
    simp

/-- The place behind a text is counted in its lines and in the letters of its last line. -/
theorem countedIn_behind (before : List Char) : (behind before).CountedIn before where
  line := rfl
  first hfirst := @column_behind_append [] before hfirst (.inl rfl)
  later i hi hlast := by
    rcases List.getElem?_eq_some_iff.mp hi with ⟨hlt, hget⟩
    have hlines : (before.take (i + 1)).getLast? = some '\n' := by
      rw [List.take_succ_eq_append_getElem hlt, hget, List.getLast?_concat]
    have hcolumn := column_behind_append hlast (.inr hlines)
    rw [List.take_append_drop, List.length_drop] at hcolumn
    omega

end Place

namespace Token

/-- Whether a part of a source starts with what a token holds: an output or a tag with its
delimiter, a text with its characters, or with blanks and then these. -/
def Content.StartsIn (span : List Char) : Token.Content → Prop
  | .text held => held ≠ "" ∧ ∃ blanks rest, span = blanks ++ (held.toList ++ rest) ∧
      ∀ c ∈ blanks, Text.isBlank c = true
  | .output _ => Piece.opener true <+: span
  | .tag .. => Piece.opener false <+: span

/-- An output or a tag starts in the construct it was cut from. -/
theorem Content.startsIn_whole {isOutput : Bool} {content : Token.Content}
    (h : content.isOutput? = some isOutput) (inside : List Char) :
    content.StartsIn (Piece.whole isOutput inside) := by
  have hopens : Piece.opener isOutput <+: Piece.whole isOutput inside :=
    ⟨inside ++ Piece.closer isOutput, (List.append_assoc ..).symm⟩
  cases content with
  | text text => cases h
  | output source =>
      cases h
      exact hopens
  | tag name args =>
      cases h
      exact hopens

theorem Content.StartsIn.append {content : Token.Content} {span : List Char}
    (h : content.StartsIn span) (more : List Char) : content.StartsIn (span ++ more) := by
  cases content with
  | text text =>
      rcases h with ⟨hne, blanks, rest, rfl, hblanks⟩
      exact ⟨hne, blanks, rest ++ more, by simp, hblanks⟩
  | output source => exact h.trans (List.prefix_append span more)
  | tag name args => exact h.trans (List.prefix_append span more)

theorem Content.StartsIn.ne_nil {content : Token.Content} {span : List Char}
    (h : content.StartsIn span) : span ≠ [] := by
  rintro rfl
  cases content with
  | text text =>
      rcases h with ⟨hne, blanks, rest, hspan, -⟩
      rw [eq_comm, List.append_eq_nil_iff, List.append_eq_nil_iff] at hspan
      exact hne (String.toList_eq_nil_iff.mp hspan.2.1)
  | output source => cases List.prefix_nil.mp h
  | tag name args => cases List.prefix_nil.mp h

/-- Whether tokens, the last one first, are those of a source that has been read up to the end of
the given text. Each has a part of it for itself, up to the next one. -/
inductive Upto : List Char → List Token → Prop
  | nil (used : List Char) : Upto used []
  | cons {used span : List Char} {content : Token.Content} {tokens : List Token} :
      Upto used tokens → content.StartsIn span →
      Upto (used ++ span) (⟨content, used.length, Place.start.after used⟩ :: tokens)

/-- What is read and leaves no token belongs to the last one. -/
theorem Upto.append {used : List Char} {tokens : List Token} (h : Upto used tokens)
    (more : List Char) : Upto (used ++ more) tokens := by
  cases h with
  | nil => exact .nil _
  | cons h hspan =>
      rw [List.append_assoc]
      exact .cons h (hspan.append more)

end Token

namespace Scan

section Upto

open Token (Upto)

/-- A text that is pushed starts behind the blanks that were trimmed. -/
theorem upto_pushText {used blanks : List Char} {tokens : List Token} (rest text : List Char)
    (h : Upto used tokens) (hblanks : ∀ c ∈ blanks, Text.isBlank c = true) :
    Upto (used ++ (blanks ++ (text ++ rest)))
      (State.pushText tokens text used.length (Place.start.after used)) := by
  unfold State.pushText
  -- An empty text leaves no token, so the tokens reach over it.
  by_cases hempty : text.isEmpty
  · rw [if_pos hempty]
    exact h.append _
  · rw [if_neg hempty]
    refine .cons h ⟨?_, blanks, rest, by rw [String.toList_ofList], hblanks⟩
    rw [Ne, ← String.toList_eq_nil_iff, String.toList_ofList]
    exact fun hnil => hempty (List.isEmpty_iff.mpr hnil)

/-- Trimming moves no token. -/
theorem upto_trimLast {used : List Char} {tokens : List Token} (h : Upto used tokens)
    (trim : Bool) : Upto used (State.trimLast trim tokens) := by
  cases trim with
  | false =>
      rw [trimLast_false]
      exact h
  | true =>
      cases h with
      | nil => exact .nil used
      | @cons used span content tokens h hspan =>
          cases content with
          -- What is left of a text is a prefix of it, so it starts where it did.
          | text text =>
              rcases hspan with ⟨-, blanks, rest, rfl, hblanks⟩
              rcases Text.stripRight_isPrefix text.toList with ⟨tail, htail⟩
              have hpush := upto_pushText (tail ++ rest) (Text.stripRight text.toList) h hblanks
              rw [← List.append_assoc (Text.stripRight _), htail] at hpush
              exact hpush
          | output source => exact .cons h hspan
          | tag name args => exact .cons h hspan

/-- Only blanks are trimmed off the start of a text. -/
theorem exists_trimmed (trimStart trimEnd : Bool) (cs : List Char) :
    ∃ blanks rest, cs = blanks ++ (State.trimmed trimStart trimEnd cs ++ rest) ∧
      ∀ c ∈ blanks, Text.isBlank c = true := by
  -- Trimming in front leaves the text behind some blanks.
  have hstart : ∃ blanks, (∀ c ∈ blanks, Text.isBlank c = true) ∧
      blanks ++ (if trimStart then Text.stripLeft cs else cs) = cs := by
    cases trimStart with
    | false => exact ⟨[], nofun, rfl⟩
    -- Trimming at the end leaves a prefix.
    | true => exact Piece.blanks_append_stripLeft cs
  unfold State.trimmed
  generalize (if trimStart then Text.stripLeft cs else cs) = left at hstart ⊢
  rcases hstart with ⟨blanks, hblanks, rfl⟩
  cases trimEnd with
  | false => exact ⟨blanks, [], by simp, hblanks⟩
  | true =>
      rcases Text.stripRight_isPrefix left with ⟨rest, hrest⟩
      exact ⟨blanks, rest, by simp [hrest], hblanks⟩

/-- What a piece adds to the tokens stands where it is cut from. -/
theorem upto_read {used span : List Char} {content : Piece.Content} {state : State}
    (h : Upto used state.tokens) (hspan : Piece.CutFrom span content) :
    Upto (used ++ span)
      (state.read ⟨content, used.length, Place.start.after used⟩).tokens := by
  -- A text may be trimmed on both sides; a construct trims only what is in front of it.
  cases hspan with
  | text _ trimEnd =>
      rcases exists_trimmed state.trimNext trimEnd span with ⟨blanks, rest, hcs, hblanks⟩
      have hpush := upto_pushText rest (State.trimmed state.trimNext trimEnd span) h hblanks
      rwa [← hcs] at hpush
  | output inside markers source =>
      exact .cons (upto_trimLast h markers.left) (Token.Content.startsIn_whole rfl inside)
  | tag inside markers name args =>
      exact .cons (upto_trimLast h markers.left) (Token.Content.startsIn_whole rfl inside)
  | silent _ markers => exact (upto_trimLast h markers.left).append span

/-- Pieces that are spread over a text are read up to its end. -/
theorem upto_foldl {used cs : List Char} {pieces : Nat → Place → List Piece} {state : State}
    (h : Upto used state.tokens) (hspread : Piece.Spread cs pieces) :
    Upto (used ++ cs)
      ((pieces used.length (Place.start.after used)).foldl State.read state).tokens := by
  -- On the pieces: each starts where the span of the one before ends.
  induction hspread generalizing used state with
  | nil =>
      rw [List.append_nil]
      exact h
  | cons hspan _ ih =>
      have hread := ih (upto_read h hspan)
      rw [List.length_append, Place.after_append, List.append_assoc] at hread
      exact hread

/-- What is kept of the rest of a source stands where it is cut from. -/
theorem upto_kept {used : List Char} {tokens : List Token} (h : Upto used tokens)
    (construct : Unclosed) (rest : List Char) :
    Upto (used ++ rest)
      (tokens.reverse ++ kept construct rest used.length (Place.start.after used)).reverse := by
  have hpush := @upto_pushText _ [] _ [] rest h nofun
  rw [List.nil_append, List.append_nil] at hpush
  cases construct with
  | comment =>
      simp only [kept, List.append_nil, List.reverse_reverse]
      exact h.append rest
  | output | tag | raw =>
      simp only [kept, ← reverse_pushText, List.reverse_reverse]
      exact hpush

/-- What is read of a source behind tokens gives more of them, in order. -/
theorem upto_run {strict : Bool} {used cs : List Char} {state : State} {tokens : List Token}
    {remarks : List Remark} (h : Upto used state.tokens)
    (hrun : run strict state (Piece.piecesFrom used.length (Place.start.after used) cs) =
      .ok (tokens, remarks)) :
    Upto (used ++ cs) tokens.reverse := by
  -- By what comes next in the source; a cut leaves a shorter one.
  cases Piece.next cs with
  | text hopen =>
      rw [Segment.piecesFrom_text _ _ hopen] at hrun
      cases hrun
      rw [List.reverse_reverse]
      exact upto_read h (.text cs false)
  | cut rest hcs hcut hspread =>
      have hlength := hcs ▸ hcut.length_lt rest
      rw [hcs, hcut.cut, run_closed strict state (hcut.closed _ _), ← List.length_append,
        ← Place.after_append] at hrun
      rw [hcs, ← List.append_assoc]
      exact upto_run (upto_foldl h hspread) hrun
  | @leftOpen before opening rest construct markers hopen hleads hcs =>
      rw [hcs, Piece.piecesFrom_leftOpen hleads hopen] at hrun
      change run strict (state.read _) (Piece.openPieces ..) = _ at hrun
      rw [run_openPieces hopen] at hrun
      cases strict with
      | true => cases hrun
      | false =>
          cases hrun
          -- What is kept of an open construct stands behind its opening.
          have hread := upto_trimLast (upto_read h (.text before false)) markers.left
          have hkept := upto_kept (hread.append opening) construct rest
          rw [reverse_trimLast, List.length_append, List.length_append, Place.after_append,
            Place.after_append, List.append_assoc, List.append_assoc] at hkept
          rw [hcs]
          exact hkept
termination_by cs.length

end Upto

end Scan

namespace Token

/-- Whether a token stands in a source, with the part of it up to `stop` for itself. -/
structure Positioned (source : List Char) (stop : Nat) (token : Token) : Prop where
  lt : token.offset < stop
  le : stop ≤ source.length
  place : token.place.CountedIn (source.take token.offset)
  content : token.content.StartsIn ((source.take stop).drop token.offset)

/-- More source behind a token does not move it. -/
theorem Positioned.append {source : List Char} {stop : Nat} {token : Token}
    (h : token.Positioned source stop) (more : List Char) :
    token.Positioned (source ++ more) stop := by
  have htake {n : Nat} (hle : n ≤ source.length) : (source ++ more).take n = source.take n :=
    List.take_append_of_le_length hle
  refine ⟨h.lt, h.le.trans (by simp), ?_, ?_⟩
  · rw [htake (h.lt.le.trans h.le)]
    exact h.place
  · rw [htake h.le]
    exact h.content

/-- Where the part of a source ends that a token has for itself, if other tokens are behind it. -/
def stopBefore (source : List Char) (tokens : List Token) : Nat :=
  (tokens.head?.map (·.offset)).getD source.length

/-- Each token has the part of the source up to the next one for itself, and the last one what is
left. -/
theorem Upto.positioned {used : List Char} {tokens : List Token} (h : Upto used tokens)
    {front rest : List Token} {token : Token} (heq : tokens.reverse = front ++ token :: rest) :
    token.Positioned used (stopBefore used rest) := by
  induction h generalizing front rest with
  | nil => simp at heq
  | @cons used span content tokens _ hspan ih =>
      rw [List.reverse_cons] at heq
      rcases List.eq_nil_or_concat rest with rfl | ⟨rest, last, rfl⟩
      · -- The token that was read last.
        rcases List.append_inj_right' heq rfl with ⟨⟩
        have hlength := List.length_pos_iff.mpr hspan.ne_nil
        refine ⟨?_, Nat.le_refl _, ?_, ?_⟩
        · simp [stopBefore, hlength]
        · simp [Place.start_after, Place.countedIn_behind]
        · change content.StartsIn (((used ++ span).take (used ++ span).length).drop used.length)
          rw [List.take_length, List.drop_left]
          exact hspan
      -- A token before the last one stands where it did, and the next one still ends it.
      · rw [List.concat_eq_append, ← List.cons_append, ← List.append_assoc] at heq
        have hfront := List.append_inj_left' heq rfl
        have hlast := List.cons.inj (List.append_inj_right' heq rfl)
        have hstop : stopBefore (used ++ span) (rest ++ [last]) = stopBefore used rest := by
          cases rest with
          | nil => simp [stopBefore, ← hlast.1]
          | cons next rest => rfl
        rw [List.concat_eq_append, hstop]
        exact (ih hfront).append span

/-- The tokens of a source stand in it in order, and each has the part of the source up to the next
one for itself: its line and column are those of its offset, and the part starts with its delimiter
or, behind nothing but blanks, with its text. -/
theorem scan_positioned {strict : Bool} {source : String} {tokens : List Token}
    {remarks : List Remark} (h : Token.scan strict source = .ok (tokens, remarks)) :
    tokens.Pairwise (fun token next => token.offset < next.offset) ∧
    ∀ front token rest, tokens = front ++ token :: rest →
      token.Positioned source.toList (stopBefore source.toList rest) := by
  rcases map_eq_ok_iff.mp h with ⟨⟨scanned, noted⟩, hrun, heq⟩
  cases heq
  have hupto : Upto source.toList tokens.reverse := @Scan.upto_run _ [] _ _ _ _ (.nil []) hrun
  have hpositioned (front : List Token) (token : Token) (rest : List Token)
      (heq : tokens = front ++ token :: rest) :
      token.Positioned source.toList (stopBefore source.toList rest) :=
    hupto.positioned (tokens.reverse_reverse.trans heq)
  refine ⟨?_, hpositioned⟩
  -- It is enough that each token stands before the next.
  rw [← List.isChain_iff_pairwise, List.isChain_iff_forall_rel_of_append_cons_cons]
  intro token next front rest heq
  exact (hpositioned front token (next :: rest) heq).lt

/-- Texts trimmed at either end, in a raw block too, and one that is kept because a tag is left
open. -/
theorem scan_positioned_trimmed :
    let source := "a \n\x7b\x7b- b -\x7d\x7d\n \x7b%- raw -%\x7d\n c\x7b% endraw %\x7d\x7b% d"
    let tokens : List Token :=
      [⟨.text "a", 0, ⟨1, 1⟩⟩, ⟨.output "b", 3, ⟨2, 1⟩⟩, ⟨.text "c", 25, ⟨3, 13⟩⟩,
        ⟨.text "\x7b% d", 40, ⟨4, 15⟩⟩]
    Token.scan false source = .ok (tokens, [.unclosed .tag ⟨4, 15⟩, .tokenized 4]) ∧
      tokens.Pairwise (fun token next => token.offset < next.offset) ∧
      ∀ front token rest, tokens = front ++ token :: rest →
        token.Positioned source.toList (stopBefore source.toList rest) := by
  intro source tokens
  have hscan : Token.scan false source =
      .ok (tokens, [.unclosed .tag ⟨4, 15⟩, .tokenized 4]) := by
    decide +kernel
  exact ⟨hscan, scan_positioned hscan⟩

end Token

end Liquid
