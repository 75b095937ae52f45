import Liquid.Proofs.Except
import Liquid.Proofs.Token.Modes
import Mathlib.Data.List.Induction

/-!
# Where Pieces Stand

A text is cut into the same pieces wherever it starts. Each of them stands where
the part of the text before it ends, counted from there, and nothing else about
a piece has to do with the start. So a cutting is told once, by the part of the
text that stands before each piece, and the offset and the place of a piece are
read off that.

What stands before an output or a tag ends where its opening delimiter begins.
With the whole source as the text, this gives the line and column of each token
that is no text: they are counted in what stands before its delimiter.

## Main definitions

* `Place.behind`: A place, told by what stands before it.
* `Piece.Part`: A piece, told by what stands before it.
* `Piece.Opened`: The same for a construct that is left open.
* `Piece.Cutting`: What a text is cut into, wherever it starts.
* `Token.StandsIn`: An output or a tag of a source.

## Theorems

* `Place.start_after`: Lines and columns are counted in what stands before.
* `Piece.exists_cutting`: The cutting of a text.
* `Scan.comesFrom_of_run`, `Token.standsIn_of_scan`: Tokens stand at delimiters.
-/

namespace Liquid

namespace Place

/-- The place behind the given text in a source: the line is one more than the line feeds in the
text, the column one more than the characters since the last of these. -/
def behind (cs : List Char) : Place :=
  ⟨cs.count '\n' + 1, (cs.reverse.takeWhile (· != '\n')).length + 1⟩

/-- The place after a text is the place behind it. -/
theorem start_after (cs : List Char) : start.after cs = behind cs := by
  induction cs using List.reverseRecOn with
  | nil => rfl
  | append_singleton cs c ih =>
      rw [after_append, ih]
      change next _ c = _
      unfold next behind
      rw [List.count_append, List.reverse_concat]
      by_cases hc : c = '\n'
      · simp [hc]
      · simp [hc]

end Place

namespace Piece

/-- A piece of a text, told by what stands before it in the text. -/
structure Part where
  content : Piece.Content
  before : List Char

/-- A construct that is left open: what stands before its delimiter, what stands before the rest of
the text that belongs to it, and that rest. -/
structure Opened where
  construct : Unclosed
  opened : List Char
  before : List Char
  rest : List Char

namespace Part

/-- The piece, if the text starts at the given offset and place. -/
def piece (part : Part) (offset : Nat) (place : Place) : Piece :=
  ⟨part.content, offset + part.before.length, place.after part.before⟩

/-- The part, if another text stands before its own. -/
def behind (used : List Char) (part : Part) : Part :=
  ⟨part.content, used ++ part.before⟩

theorem piece_behind (used : List Char) (part : Part) (offset : Nat) (place : Place) :
    (part.behind used).piece offset place =
      part.piece (offset + used.length) (place.after used) := by
  simp [piece, behind, Place.after_append, Nat.add_assoc]

end Part

namespace Opened

/-- The piece, if the text starts at the given offset and place. -/
def piece (last : Opened) (offset : Nat) (place : Place) : Piece :=
  ⟨.unclosed last.construct (place.after last.opened) last.rest, offset + last.before.length,
    place.after last.before⟩

/-- The construct, if another text stands before its own. -/
def behind (used : List Char) (last : Opened) : Opened :=
  ⟨last.construct, used ++ last.opened, used ++ last.before, last.rest⟩

theorem piece_behind (used : List Char) (last : Opened) (offset : Nat) (place : Place) :
    (last.behind used).piece offset place =
      last.piece (offset + used.length) (place.after used) := by
  simp [piece, behind, Place.after_append, Nat.add_assoc]

end Opened

/-- Whether a piece is an output, or else a tag, if it is one of them. -/
def Content.isOutput? : Piece.Content → Option Bool
  | output .. => some true
  | tag .. => some false
  | _ => none

/-- Whether the outputs and tags among some parts stand at their delimiters in a text. -/
def Delimited (cs : List Char) (parts : List Part) : Prop :=
  ∀ part ∈ parts, ∀ isOutput ∈ part.content.isOutput?,
    ∃ inside rest, cs = part.before ++ (whole isOutput inside ++ rest)

/-- Whether a text is cut into the parts, and then the construct if one is left open, wherever the
text starts. -/
structure Cutting (cs : List Char) (parts : List Part) (last : Option Opened) : Prop where
  pieces : ∀ offset place, piecesFrom offset place cs =
    parts.map (·.piece offset place) ++ last.toList.map (·.piece offset place)
  closed : ∀ part ∈ parts, ∀ offset place, (part.piece offset place).isClosed = true
  delimited : Delimited cs parts

section Cutting

variable {before inside : List Char}

/-- What is cut off the front of a text stands before all that is cut behind it. -/
theorem Cutting.behind {used rest : List Char} {pieces : Nat → Place → List Piece}
    {parts : List Part} {last : Option Opened} (hcut : Cut used pieces) (front : List Part)
    (hfront : ∀ offset place, pieces offset place = front.map (·.piece offset place))
    (hdelimited : Delimited used front) (h : Cutting rest parts last) :
    Cutting (used ++ rest) (front ++ parts.map (·.behind used)) (last.map (·.behind used)) where
  pieces offset place := by
    rw [hcut.cut, hfront, h.pieces, List.map_append, List.map_map, List.append_assoc]
    congr 2
    · simp [Part.piece_behind]
    · cases last with
      | none => rfl
      | some last => simp [Opened.piece_behind]
  closed := by
    intro part hpart offset place
    rcases List.mem_append.mp hpart with hpart | hpart
    -- The parts of the cut are closed by it, those behind it by the cutting of the rest.
    · have hclosed := hcut.closed offset place
      rw [hfront, List.all_map, List.all_eq_true] at hclosed
      exact hclosed part hpart
    · rcases List.mem_map.mp hpart with ⟨part', hpart', rfl⟩
      rw [Part.piece_behind]
      exact h.closed part' hpart' _ _
  delimited := by
    intro part hpart isOutput houtput
    rcases List.mem_append.mp hpart with hpart | hpart
    -- A construct in the cut stands before the rest, one behind it after what is used.
    · rcases hdelimited part hpart isOutput houtput with ⟨inside, tail, rfl⟩
      exact ⟨inside, tail ++ rest, by simp⟩
    · rcases List.mem_map.mp hpart with ⟨part', hpart', rfl⟩
      rcases h.delimited part' hpart' isOutput houtput with ⟨inside, tail, rfl⟩
      exact ⟨inside, tail, by simp [Part.behind]⟩

/-- A text without an opening is one part. -/
theorem cutting_text {cs : List Char} (hopen : opening? cs = none) :
    Cutting cs [⟨.text cs false, []⟩] none where
  pieces offset place := Segment.piecesFrom_text offset place hopen
  closed := by
    intro part hpart offset place
    rw [List.mem_singleton.mp hpart]
    rfl
  delimited := by
    intro part hpart isOutput houtput
    rw [List.mem_singleton.mp hpart] at houtput
    cases houtput

/-- Texts, and constructs that leave no token, need no delimiter. -/
theorem delimited_of_isOutput?_eq_none {cs : List Char} {parts : List Part}
    (h : ∀ part ∈ parts, part.content.isOutput? = none) : Delimited cs parts := by
  intro part hpart isOutput houtput
  rw [h part hpart] at houtput
  cases houtput

/-- What stands before a construct that is left open: a text, and the tag that opens it, if it is a
block. -/
def openParts (before opening : List Char) (markers : Markers) : List Part :=
  ⟨.text before false, []⟩ :: if opening.isEmpty then [] else [⟨.silent markers, before⟩]

/-- In front of an open construct there is a text, and the tag that opened it. -/
theorem eq_of_mem_openParts {opening : List Char} {markers : Markers} {part : Part}
    (h : part ∈ openParts before opening markers) :
    part = ⟨.text before false, []⟩ ∨ part = ⟨.silent markers, before⟩ := by
  rcases List.mem_cons.mp h with rfl | hpart
  · exact .inl rfl
  · by_cases hopening : opening.isEmpty
    · simp [hopening] at hpart
    · simp [hopening] at hpart
      exact .inr hpart

/-- A construct that is left open, and the text that leads up to it. -/
theorem cutting_leftOpen {opening rest : List Char} {construct : Unclosed} {markers : Markers}
    (hleads : Segment.Leads before) (h : LeftOpen construct markers opening rest) :
    Cutting (before ++ (opening ++ rest)) (openParts before opening markers)
      (some ⟨construct, before, before ++ opening, rest⟩) where
  pieces offset place := by
    rw [piecesFrom_leftOpen hleads h]
    unfold openPieces openParts
    -- An output or a tag has nothing of its own in front of what is left open.
    by_cases hopening : opening.isEmpty
    · simp [hopening, Part.piece, Opened.piece, Place.after_append, Nat.add_assoc]
      rfl
    · simp [hopening, Part.piece, Opened.piece, Place.after_append, Nat.add_assoc]
      rfl
  closed := by
    intro part hpart offset place
    rcases eq_of_mem_openParts hpart with rfl | rfl
    · rfl
    · rfl
  delimited := by
    refine delimited_of_isOutput?_eq_none fun part hpart => ?_
    rcases eq_of_mem_openParts hpart with rfl | rfl
    · rfl
    · rfl

/-- Pieces that lie over a text are told by what stands before them in it. -/
theorem Spread.exists_parts {used : List Char} {pieces : Nat → Place → List Piece}
    (h : Spread used pieces) :
    ∃ front : List Part, (∀ offset place, pieces offset place = front.map (·.piece offset place)) ∧
      Delimited used front := by
  -- On the pieces: the later ones stand behind the span of the first.
  induction h with
  | nil => exact ⟨[], fun _ _ => rfl, nofun⟩
  | @cons span rest content pieces hspan _ ih =>
      rcases ih with ⟨front, hpieces, hdelimited⟩
      refine ⟨⟨content, []⟩ :: front.map (·.behind span), fun offset place => ?_, ?_⟩
      · change _ :: pieces (offset + span.length) (place.after span) = _
        rw [hpieces, List.map_cons, List.map_map]
        simp [Part.piece_behind]
        rfl
      · intro part hpart isOutput houtput
        rcases List.mem_cons.mp hpart with rfl | hpart
        · cases hspan with
          | output inside | tag inside =>
              cases houtput
              exact ⟨inside, rest, rfl⟩
          | text | silent => cases houtput
        · rcases List.mem_map.mp hpart with ⟨part', hpart', rfl⟩
          rcases hdelimited part' hpart' isOutput houtput with ⟨inside, tail, rfl⟩
          exact ⟨inside, tail, by simp [Part.behind]⟩

/-- Every text is cut in the same way wherever it starts. -/
theorem exists_cutting (cs : List Char) : ∃ parts last, Cutting cs parts last := by
  -- By what comes next in the source; a cut leaves a shorter one.
  cases next cs with
  | text hopen => exact ⟨_, _, cutting_text hopen⟩
  | cut rest hcs hcut hspread =>
      have hlength := hcs ▸ hcut.length_lt rest
      rcases exists_cutting rest with ⟨parts, last, hparts⟩
      rcases hspread.exists_parts with ⟨front, hpieces, hdelimited⟩
      rw [hcs]
      exact ⟨_, _, hparts.behind hcut front hpieces hdelimited⟩
  | leftOpen hopen hleads hcs =>
      rw [hcs]
      exact ⟨_, _, cutting_leftOpen hleads hopen⟩
termination_by cs.length

end Cutting

end Piece

/-- Whether a token is an output, or else a tag, if it is one of them. -/
def Token.Content.isOutput? : Token.Content → Option Bool
  | output _ => some true
  | tag .. => some false
  | text _ => none

/-- Whether a token is an output or a tag of a source, and stands where its delimiter does. -/
def Token.StandsIn (source : List Char) (token : Token) : Prop :=
  ∃ before isOutput inside rest, source = before ++ (Piece.whole isOutput inside ++ rest) ∧
    token.content.isOutput? = some isOutput ∧ token.offset = before.length ∧
    token.place = Place.behind before

namespace Scan

/-- Whether a token stands where one of the pieces does, and is what that is. -/
def ComesFrom (pieces : List Piece) (token : Token) : Prop :=
  ∃ piece ∈ pieces, token.content.isOutput? = piece.content.isOutput? ∧
    token.offset = piece.offset ∧ token.place = piece.place

/-- Pushing a text adds nothing but a text. -/
theorem mem_pushText {token : Token} {tokens : List Token} {text : List Char} {offset : Nat}
    {place : Place} (h : token ∈ State.pushText tokens text offset place)
    (hkind : token.content.isOutput? ≠ none) : token ∈ tokens := by
  unfold State.pushText at h
  by_cases hempty : text.isEmpty
  · simpa [hempty] using h
  · rw [if_neg hempty] at h
    rcases List.mem_cons.mp h with rfl | h
    · exact absurd rfl hkind
    · exact h

/-- Trimming changes texts only. -/
theorem mem_trimLast {token : Token} {trim : Bool} {tokens : List Token}
    (h : token ∈ State.trimLast trim tokens) (hkind : token.content.isOutput? ≠ none) :
    token ∈ tokens := by
  unfold State.trimLast at h
  split at h
  · by_cases htrim : trim
    · rw [if_pos htrim] at h
      exact List.mem_cons_of_mem _ (mem_pushText h hkind)
    · rwa [if_neg htrim] at h
  · exact h

/-- A token that is no text was there before, or comes from the piece that is read. -/
theorem mem_read {token : Token} {state : State} {piece : Piece}
    (h : token ∈ (state.read piece).tokens) (hkind : token.content.isOutput? ≠ none) :
    token ∈ state.tokens ∨ ComesFrom [piece] token := by
  rcases piece with ⟨content, offset, place⟩
  -- Only a construct adds a token that is no text, and it is its own.
  cases content with
  | text text trimEnd => exact .inl (mem_pushText h hkind)
  | output markers source =>
      rcases List.mem_cons.mp h with rfl | h
      · exact .inr ⟨_, List.mem_cons_self, rfl, rfl, rfl⟩
      · exact .inl (mem_trimLast h hkind)
  | tag markers name args =>
      rcases List.mem_cons.mp h with rfl | h
      · exact .inr ⟨_, List.mem_cons_self, rfl, rfl, rfl⟩
      · exact .inl (mem_trimLast h hkind)
  | silent markers => exact .inl (mem_trimLast h hkind)
  | unclosed construct opened rest => exact .inl h

/-- A token that is no text was there before, or comes from one of the pieces that are read. -/
theorem comesFrom_of_run {strict : Bool} {state : State} {pieces : List Piece}
    {tokens : List Token} {remarks : List Remark}
    (h : run strict state pieces = .ok (tokens, remarks)) {token : Token} (hmem : token ∈ tokens)
    (hkind : token.content.isOutput? ≠ none) :
    token ∈ state.tokens ∨ ComesFrom pieces token := by
  -- On the pieces: each adds at most its own token.
  induction pieces generalizing state with
  | nil =>
      cases h
      exact .inl (List.mem_reverse.mp hmem)
  | cons piece pieces ih =>
      unfold run at h
      split at h
      -- What is left open ends the run, and only a text is kept of it.
      · by_cases hstrict : strict
        · simp [hstrict] at h
        · rw [if_neg hstrict] at h
          cases h
          left
          revert hmem
          split
          · exact List.mem_reverse.mp
          · exact fun hmem => mem_pushText (List.mem_reverse.mp hmem) hkind
      · rcases ih h with hstate | ⟨piece', hpiece', hcomes⟩
        · rcases mem_read hstate hkind with hstate | ⟨piece', hpiece', hcomes⟩
          · exact .inl hstate
          · rw [List.mem_singleton.mp hpiece'] at hcomes
            exact .inr ⟨piece, List.mem_cons_self, hcomes⟩
        · exact .inr ⟨piece', List.mem_cons_of_mem _ hpiece', hcomes⟩

end Scan

/-- The outputs and tags among the tokens of a source stand at their delimiters. -/
theorem Token.standsIn_of_scan {strict : Bool} {source : String} {tokens : List Token}
    {remarks : List Remark} (h : Token.scan strict source = .ok (tokens, remarks)) {token : Token}
    (hmem : token ∈ tokens) (hkind : token.content.isOutput? ≠ none) :
    token.StandsIn source.toList := by
  rcases map_eq_ok_iff.mp h with ⟨⟨scanned, noted⟩, hrun, heq⟩
  cases heq
  rcases Scan.comesFrom_of_run hrun hmem hkind with
    hstart | ⟨piece, hpiece, hcontent, hoffset, hplace⟩
  · cases hstart
  rcases Piece.exists_cutting source.toList with ⟨parts, last, hcutting⟩
  rw [Piece.pieces, hcutting.pieces] at hpiece
  rcases List.mem_append.mp hpiece with hpart | hlast
  · rcases List.mem_map.mp hpart with ⟨part, hparts, rfl⟩
    rcases Option.ne_none_iff_exists'.mp hkind with ⟨isOutput, hisOutput⟩
    have hpartOutput := hcontent.symm.trans hisOutput
    -- The piece is delimited where the token says it stands.
    rcases hcutting.delimited part hparts isOutput hpartOutput with ⟨inside, rest, hsource⟩
    refine ⟨part.before, isOutput, inside, rest, hsource, hisOutput, ?_, ?_⟩
    · exact hoffset.trans (Nat.zero_add _)
    · exact hplace.trans (Place.start_after part.before)
  · -- A construct that is left open is neither.
    rcases List.mem_map.mp hlast with ⟨last, _, rfl⟩
    exact absurd hcontent hkind

end Liquid
