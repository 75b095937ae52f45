import Liquid.Proofs.Token.Segment

/-!
# Scanning what was Printed

A source that was printed from parts is cut into these parts again, and the
markers are obeyed as if the parts had been given. The cutting is followed from
one construct to the next, with the text between them, which may be empty. So is
the trimming: between two constructs no text is left that a marker further on
could still trim.

## Theorems

* `Segment.piecesFrom_construct`: A text and a construct are cut off the front.
* `Segment.run_printAll`: What is scanned behind a construct.
* `Segment.scan_printAll`: Scanning gives back what was printed.
-/

namespace Liquid

namespace Segment

/-- What is cut out of a source for the part. -/
def piece : Segment → Piece.Content
  | text cs => .text cs false
  | output markers value => .output markers value
  | tag markers name args => .tag markers name args

section Cutting

variable {before : List Char}

/-- A text that does not start with a delimiter is passed by one character. -/
theorem opening?_cons {c : Char} {cs : List Char}
    (houtput : ∀ d ∈ cs.head?, Text.Apart '\x7b' '\x7b' c d)
    (htag : ∀ d ∈ cs.head?, Text.Apart '\x7b' '%' c d) :
    Piece.opening? (c :: cs) =
      (Piece.opening? cs).map fun (before, isOutput, after) => (c :: before, isOutput, after) := by
  conv => lhs; unfold Piece.opening?
  -- The first two letters are no opener, so the opening is behind them.
  split
  · next heq =>
      cases heq
      exact absurd ⟨rfl, rfl⟩ (houtput _ rfl)
  · next heq =>
      cases heq
      exact absurd ⟨rfl, rfl⟩ (htag _ rfl)
  · next heq =>
      cases heq
      rfl
  · next heq => cases heq

/-- In a text whose neighbours never make an opener there is no opening. -/
theorem opening?_eq_none (houtput : before.IsChain (Text.Apart '\x7b' '\x7b'))
    (htag : before.IsChain (Text.Apart '\x7b' '%')) : Piece.opening? before = none := by
  induction before with
  | nil => rfl
  | cons c before ih =>
      rw [opening?_cons (fun _ hd => houtput.rel_head? hd) fun _ hd => htag.rel_head? hd,
        ih houtput.tail htag.tail]
      rfl

/-- The first opening is the one that is printed behind the text. -/
theorem opening?_append (isOutput : Bool) (after : List Char)
    (houtput : before.IsChain (Text.Apart '\x7b' '\x7b'))
    (htag : before.IsChain (Text.Apart '\x7b' '%')) (hlast : before.getLast? ≠ some '\x7b') :
    Piece.opening? (before ++ (Piece.opener isOutput ++ after)) =
      some (before, isOutput, after) := by
  induction before with
  | nil => cases isOutput <;> rfl
  | cons c before ih =>
      -- The seam to the opener is one more pair of neighbours, and it is no delimiter either.
      have hhead {e : Char} (hchain : (c :: before).IsChain (Text.Apart '\x7b' e)) :
          ∀ d ∈ (before ++ (Piece.opener isOutput ++ after)).head?, Text.Apart '\x7b' e c d := by
        intro d hd
        cases hrest : before ++ (Piece.opener isOutput ++ after) with
        | nil =>
            rw [hrest] at hd
            cases hd
        | cons f rest =>
            rw [hrest] at hd
            cases hd
            exact Text.apart_head hchain hlast hrest
      rw [List.cons_append, opening?_cons (hhead houtput) (hhead htag),
        ih houtput.tail htag.tail (Text.getLast?_ne_of_cons hlast)]
      rfl

/-- A body without a delimiter does not get one from the padding and the markers. -/
theorem inner_isChain {a b : Char} {body : List Char} (markers : Markers)
    (ha : a ≠ ' ' ∧ a ≠ '-') (hb : b ≠ ' ') (h : body.IsChain (Text.Apart a b)) :
    (inner markers body).IsChain (Text.Apart a b) := by
  -- A delimiter that reaches into the padding would start or end with one of its characters.
  have hspace (c : Char) : Text.Apart a b ' ' c := fun heq => ha.1 heq.1.symm
  have hhyphen (c : Char) : Text.Apart a b '-' c := fun heq => ha.2 heq.1.symm
  have hbody : (body ++ [' ']).IsChain (Text.Apart a b) := by
    refine h.append (List.isChain_singleton _) ?_
    rintro c _ d hd ⟨_, rfl⟩
    cases hd
    exact hb rfl
  have hpadded : (' ' :: (body ++ [' '])).IsChain (Text.Apart a b) :=
    hbody.cons fun c _ => hspace c
  have hright : (' ' :: (body ++ [' ']) ++ hyphen markers.right).IsChain (Text.Apart a b) := by
    unfold hyphen
    cases markers.right with
    | false => simpa using hpadded
    | true =>
        refine hpadded.append (List.isChain_singleton _) ?_
        intro c hc d _
        rw [← List.cons_append, List.getLast?_concat] at hc
        cases hc
        exact hspace d
  unfold inner
  cases markers.left with
  | false => exact hright
  | true => exact hright.cons fun c _ => hhyphen c

/-- The inside of a printed construct ends with a blank or with a hyphen. -/
theorem getLast?_inner_ne {a : Char} (markers : Markers) (body : List Char)
    (ha : a ≠ ' ' ∧ a ≠ '-') : (inner markers body).getLast? ≠ some a := by
  unfold inner hyphen
  rw [← List.append_assoc]
  -- With a marker on the right a hyphen stands last, and without one a blank.
  cases markers.right with
  | false =>
      rw [if_neg Bool.false_ne_true, List.append_nil, ← List.cons_append, ← List.append_assoc,
        List.getLast?_concat]
      exact fun h => ha.1 (Option.some.inj h).symm
  | true =>
      rw [if_pos rfl, List.getLast?_concat]
      exact fun h => ha.2 (Option.some.inj h).symm

end Cutting

/-- A body with a space on each side, as it stands between markers. -/
theorem getLast?_padded (body : List Char) : (' ' :: (body ++ [' '])).getLast? = some ' ' := by
  rw [← List.cons_append, List.getLast?_concat]

/-- The markers that are printed are split off again. -/
theorem splitMarkers_inner (markers : Markers) (body : List Char) :
    Piece.splitMarkers (inner markers body) = (markers, ' ' :: (body ++ [' '])) := by
  rcases markers with ⟨left, right⟩
  -- A hyphen in front is the left marker, and there is none but it, as a blank follows.
  have hleft (cs : List Char) : ((hyphen left ++ ' ' :: cs).head? == some '-') = left := by
    cases left <;> rfl
  have hdrop (cs : List Char) :
      (if left then (hyphen left ++ ' ' :: cs).drop 1 else hyphen left ++ ' ' :: cs) =
        ' ' :: cs := by
    cases left <;> rfl
  -- A hyphen at the end is the right marker, as a blank stands before it.
  have hright :
      ((' ' :: (body ++ [' ']) ++ hyphen right).getLast? == some '-') = right := by
    cases right with
    | false =>
        rw [hyphen, if_neg Bool.false_ne_true, List.append_nil, getLast?_padded]
        rfl
    | true =>
        rw [hyphen, if_pos rfl, List.getLast?_concat]
        rfl
  have hdropLast :
      (if right then (' ' :: (body ++ [' ']) ++ hyphen right).dropLast
        else ' ' :: (body ++ [' ']) ++ hyphen right) = ' ' :: (body ++ [' ']) := by
    cases right with
    | false =>
        rw [if_neg Bool.false_ne_true, hyphen, if_neg Bool.false_ne_true, List.append_nil]
    | true =>
        rw [if_pos rfl, hyphen, if_pos rfl, List.dropLast_concat]
  unfold Piece.splitMarkers inner
  simp only [List.cons_append] at hright hdropLast ⊢
  simp only [hleft, hdrop, hright, hdropLast]

/-- A name ends at the first blank. -/
theorem splitName_word {name : List Char} (hname : name ≠ [])
    (hblank : ∀ c ∈ name, Text.isBlank c = false) (behind : List Char) :
    Piece.splitName (' ' :: (name ++ ' ' :: behind)) = (name, Text.strip (' ' :: behind)) := by
  have hword : ∀ c ∈ name, (!Text.isBlank c) = true := by
    intro c hc
    rw [hblank c hc]
    rfl
  -- The blank in front is stripped, and the name starts with no other.
  have hstart : Text.stripLeft (' ' :: (name ++ ' ' :: behind)) = name ++ ' ' :: behind := by
    rw [Text.stripLeft_cons_blank (by decide)]
    cases name with
    | nil => exact absurd rfl hname
    | cons c name =>
        exact List.dropWhile_cons_of_neg (by simp [hblank c List.mem_cons_self])
  unfold Piece.splitName
  rw [hstart]
  simp only
  rw [List.takeWhile_append_of_pos hword, List.dropWhile_append_of_pos hword,
    List.takeWhile_cons_of_neg (by decide), List.dropWhile_cons_of_neg (by decide),
    List.append_nil]

/-- The name and the arguments that are printed are split again. -/
theorem splitName_joined {name args : List Char} (hname : name ≠ [])
    (hblank : ∀ c ∈ name, Text.isBlank c = false) :
    Piece.splitName (' ' :: (joined name args ++ [' '])) = (name, Text.strip args) := by
  -- What is behind the name starts with a blank, be it the space before the arguments or the last.
  obtain ⟨behind, hjoined, hbehind⟩ : ∃ behind,
      joined name args ++ [' '] = name ++ ' ' :: behind ∧
        Text.strip (' ' :: behind) = Text.strip args := by
    unfold joined
    by_cases hempty : args = []
    · subst hempty
      exact ⟨[], rfl, by decide⟩
    · refine ⟨args ++ [' '], ?_, Text.strip_pad args⟩
      simp [hempty]
  rw [hjoined, splitName_word hname hblank, hbehind]

/-- The inside of a construct is cut off at its closing delimiter. -/
theorem cut?_inner (isOutput : Bool) (markers : Markers) {body : List Char}
    (h : ¬Piece.closer isOutput <:+: body) (rest : List Char) :
    Text.cut? (Piece.closer isOutput) (inner markers body ++ (Piece.closer isOutput ++ rest)) =
      some (inner markers body, rest) := by
  cases isOutput with
  | false =>
      exact Text.cut?_pair_append rest
        (inner_isChain markers (by decide) (by decide) (Text.not_infix_iff_isChain.mp h))
        (getLast?_inner_ne markers body (by decide))
  | true =>
      exact Text.cut?_pair_append rest
        (inner_isChain markers (by decide) (by decide) (Text.not_infix_iff_isChain.mp h))
        (getLast?_inner_ne markers body (by decide))

/-- Text before a construct: proper, and it does not complete the delimiter. It may be empty. -/
structure Leads (before : List Char) : Prop where
  output : ¬Piece.opener true <:+: before
  tag : ¬Piece.opener false <:+: before
  last : before.getLast? ≠ some '\x7b'

section Pieces

variable {cs before after inside rest : List Char}

/-- A source with an output next is cut into the text in front, the output and the rest. -/
theorem piecesFrom_output (offset : Nat) (place : Place)
    (hopen : Piece.opening? cs = some (before, true, after))
    (hclose : Text.cut? (Piece.closer true) after = some (inside, rest)) :
    Piece.piecesFrom offset place cs =
      ⟨.text before false, offset, place⟩ ::
        ⟨.output (Piece.splitMarkers inside).1 (Text.strip (Piece.splitMarkers inside).2),
            offset + before.length, place.after before⟩ ::
          Piece.piecesFrom
            (offset + before.length + (Piece.opener true ++ inside ++ Piece.closer true).length)
            ((place.after before).after (Piece.opener true ++ inside ++ Piece.closer true))
            rest := by
  rw [Piece.piecesFrom]
  -- Both searches answer as the hypotheses say.
  split
  · next hnone =>
      rw [hopen] at hnone
      cases hnone
  · next hsome =>
      rw [hopen] at hsome
      cases hsome
      split
      · next hnone =>
          rw [hclose] at hnone
          cases hnone
      · next hsome =>
          rw [hclose] at hsome
          cases hsome
          rfl

/-- A source without an opening is one text. -/
theorem piecesFrom_text (offset : Nat) (place : Place) (hopen : Piece.opening? cs = none) :
    Piece.piecesFrom offset place cs = [⟨.text cs false, offset, place⟩] := by
  rw [Piece.piecesFrom]
  split
  · rfl
  · next hsome =>
      rw [hopen] at hsome
      cases hsome

/-- A tag that scanning does not act on itself. -/
theorem piecesFrom_tag (offset : Nat) (place : Place) {markers : Markers}
    {body name args : List Char} (hopen : Piece.opening? cs = some (before, false, after))
    (hclose : Text.cut? (Piece.closer false) after = some (inside, rest))
    (hmarkers : Piece.splitMarkers inside = (markers, body))
    (hname : Piece.splitName body = (name, args)) (hraw : name ≠ "raw".toList)
    (hcomment : name ≠ "comment".toList) (hhash : name.head? ≠ some '#') :
    Piece.piecesFrom offset place cs =
      ⟨.text before false, offset, place⟩ ::
        ⟨.tag markers name args, offset + before.length, place.after before⟩ ::
          Piece.piecesFrom
            (offset + before.length + (Piece.opener false ++ inside ++ Piece.closer false).length)
            ((place.after before).after (Piece.opener false ++ inside ++ Piece.closer false))
            rest := by
  rw [Piece.piecesFrom]
  split
  · next hnone =>
      rw [hopen] at hnone
      cases hnone
  · next hsome =>
      rw [hopen] at hsome
      cases hsome
      split
      · next hnone =>
          rw [hclose] at hnone
          cases hnone
      · next hsome =>
          rw [hclose] at hsome
          cases hsome
          -- The name is none of those that the lexer treats itself.
          simp only [hmarkers, hname, Bool.false_eq_true, if_false]
          rw [if_neg (by simpa using hraw), if_neg (by simpa using hcomment),
            if_neg (by simpa using hhash)]

end Pieces

/-- A text and a construct are cut off the front of a source. -/
theorem piecesFrom_construct {before : List Char} (hbefore : Leads before) {segment : Segment}
    (hsegment : segment.isText = false) (hproper : segment.Proper) (offset : Nat) (place : Place)
    (rest : List Char) :
    Piece.piecesFrom offset place (before ++ (segment.print ++ rest)) =
      ⟨.text before false, offset, place⟩ ::
        ⟨segment.piece, offset + before.length, place.after before⟩ ::
          Piece.piecesFrom (offset + before.length + segment.print.length)
            ((place.after before).after segment.print) rest := by
  have hopen (isOutput : Bool) (after : List Char) :=
    opening?_append isOutput after (Text.not_infix_iff_isChain.mp hbefore.output)
      (Text.not_infix_iff_isChain.mp hbefore.tag) hbefore.last
  -- A text is no construct; an output and a tag are found, and split as they were printed.
  cases segment with
  | text => cases hsegment
  | output markers value =>
      rcases hproper with ⟨hstrip, hclosed⟩
      change Piece.piecesFrom offset place (before ++ (enclosed true markers value ++ rest)) = _
      unfold enclosed
      rw [List.append_assoc, List.append_assoc,
        piecesFrom_output offset place (hopen true _) (cut?_inner true markers hclosed rest),
        splitMarkers_inner, Text.strip_pad, hstrip]
      rfl
  | tag markers name args =>
      rcases hproper with ⟨hname, hblank, hraw, hcomment, hhash, hstrip, hclosed⟩
      change Piece.piecesFrom offset place
        (before ++ (enclosed false markers (joined name args) ++ rest)) = _
      unfold enclosed
      rw [List.append_assoc, List.append_assoc,
        piecesFrom_tag offset place (hopen false _) (cut?_inner false markers hclosed rest)
          (splitMarkers_inner markers _) (splitName_joined hname hblank) hraw hcomment hhash,
        hstrip]
      rfl

section Trimming

open Scan (State)

/-- Tokens that no marker further on trims, because the last of them is no text. -/
def Settled (tokens : List Token) : Prop :=
  ∀ trim, State.trimLast trim tokens = tokens

/-- A text that has just been added is trimmed as if that had been known before. -/
theorem trimLast_pushText {tokens : List Token} (h : Settled tokens) (trimStart trimEnd : Bool)
    (cs : List Char) (offset : Nat) (place : Place) :
    State.trimLast trimEnd
        (State.pushText tokens (State.trimmed trimStart false cs) offset place) =
      State.pushText tokens (State.trimmed trimStart trimEnd cs) offset place := by
  -- The start is trimmed the same way in both, so only what is left of it counts.
  unfold State.trimmed
  generalize (if trimStart then Text.stripLeft cs else cs) = left
  unfold State.pushText
  cases left with
  | nil =>
      cases trimEnd with
      | false => exact h false
      | true => exact h true
  | cons c left =>
      cases trimEnd with
      | false => rfl
      | true => simp [State.trimLast, State.pushText]

theorem run_text (strict : Bool) (state : State) (cs : List Char) (offset : Nat) (place : Place)
    (rest : List Piece) :
    Scan.run strict state (⟨.text cs false, offset, place⟩ :: rest) =
      Scan.run strict
        ⟨State.pushText state.tokens (State.trimmed state.trimNext false cs) offset place, false⟩
        rest :=
  rfl

/-- A text and a construct are read: the markers around the text trim it, and the construct is
settled behind it. -/
theorem run_construct (strict : Bool) {state : State} (hstate : Settled state.tokens)
    {segment : Segment} {content : Token.Content} (hsegment : segment.isText = false)
    (hcontent : segment.content? false false = some content) (cs : List Char)
    (offset offset' : Nat) (place place' : Place) (rest : List Piece) :
    Scan.run strict state
        (⟨.text cs false, offset, place⟩ :: ⟨segment.piece, offset', place'⟩ :: rest) =
      Scan.run strict
        ⟨⟨content, offset', place'⟩ ::
          State.pushText state.tokens (State.trimmed state.trimNext segment.markers.left cs) offset
            place, segment.markers.right⟩ rest := by
  -- The marker on the left trims the text now instead of later.
  rw [run_text, ← trimLast_pushText hstate state.trimNext segment.markers.left]
  cases segment with
  | text => cases hsegment
  | output markers value =>
      cases hcontent
      rfl
  | tag markers name args =>
      cases hcontent
      rfl

end Trimming

/-- The last segment is printed last. -/
theorem printAll_concat (segments : List Segment) (last : Segment) :
    printAll (segments ++ [last]) = printAll segments ++ last.print := by
  simp [printAll]

/-- An output or a tag is kept whatever is trimmed around it. -/
theorem content?_of_construct {segment : Segment} (h : segment.isText = false) :
    ∃ content, (∀ trimStart trimEnd, segment.content? trimStart trimEnd = some content) ∧
      ∀ offset place tokens, Settled (⟨content, offset, place⟩ :: tokens) := by
  cases segment with
  | text => cases h
  | output markers value => exact ⟨_, fun _ _ => rfl, fun _ _ _ _ => rfl⟩
  | tag markers name args => exact ⟨_, fun _ _ => rfl, fun _ _ _ _ => rfl⟩

/-- The token of a text is added if anything is left of it. -/
theorem pushText_reverse (tokens : List Token) (trimStart trimEnd : Bool) (cs : List Char)
    (offset : Nat) (place : Place) :
    (Scan.State.pushText tokens (Scan.State.trimmed trimStart trimEnd cs) offset place).reverse =
      tokens.reverse ++ (((text cs).content? trimStart trimEnd).map
        fun content => ⟨content, offset, place⟩).toList := by
  unfold Scan.State.pushText content?
  by_cases hempty : (Scan.State.trimmed trimStart trimEnd cs).isEmpty <;> simp [hempty]

theorem leads_nil : Leads [] where
  output h := by simp [Piece.opener] at h
  tag h := by simp [Piece.opener] at h
  last h := by cases h

/-- A text at the end of a source is the last token, if anything of it is left. -/
theorem run_last (strict : Bool) (state : Scan.State) {cs : List Char}
    (hopen : Piece.opening? cs = none) (offset : Nat) (place : Place) :
    Scan.run strict state (Piece.piecesFrom offset place cs) =
      .ok (state.tokens.reverse ++ (((text cs).content? state.trimNext false).map
        fun content => ⟨content, offset, place⟩).toList, []) := by
  rw [piecesFrom_text offset place hopen, run_text, ← pushText_reverse]
  rfl

theorem content?_text_nil (trimStart trimEnd : Bool) :
    (text []).content? trimStart trimEnd = none := by
  cases trimStart <;> cases trimEnd <;> rfl

/-- One round of the scanning: the text before a construct, which may be missing, the construct,
and what is scanned behind it. -/
theorem run_round (strict : Bool) {before lead : List Segment} {cs : List Char}
    (hlead : lead = [text cs] ∨ lead = [] ∧ cs = []) (hleads : Leads cs) {segment : Segment}
    (hsegment : segment.isText = false) (hproper : segment.Proper) {rest : List Segment}
    {state : Scan.State} (hstate : Settled state.tokens)
    (htrim : state.trimNext = before.getLast?.any fun last => last.markers.right)
    (hrest : ∀ next : Scan.State, Settled next.tokens →
      next.trimNext = ((before ++ lead ++ [segment]).getLast?.any fun last => last.markers.right) →
      Scan.run strict next
          (Piece.piecesFrom (printAll (before ++ lead ++ [segment])).length
            (Place.start.after (printAll (before ++ lead ++ [segment]))) (printAll rest)) =
        .ok (next.tokens.reverse ++ tokensBehind (before ++ lead ++ [segment]) rest, [])) :
    Scan.run strict state
        (Piece.piecesFrom (printAll before).length (Place.start.after (printAll before))
          (printAll (lead ++ segment :: rest))) =
      .ok (state.tokens.reverse ++ tokensBehind before (lead ++ segment :: rest), []) := by
  rcases content?_of_construct hsegment with ⟨content, hcontent, hsettled⟩
  have hcs : printAll lead = cs := by
    rcases hlead with rfl | ⟨rfl, rfl⟩ <;> simp [printAll, print]
  have hprint : printAll (lead ++ segment :: rest) = cs ++ (segment.print ++ printAll rest) := by
    rw [← hcs]
    simp [printAll]
  have hposition : printAll (before ++ lead ++ [segment]) =
      printAll before ++ cs ++ segment.print := by
    rw [printAll_concat, ← hcs]
    simp [printAll]
  rw [hposition, List.length_append, List.length_append, Place.after_append,
    Place.after_append] at hrest
  -- The text and the construct are two pieces, and what is behind them is what is scanned next.
  rw [hprint, piecesFrom_construct hleads hsegment hproper,
    run_construct strict hstate hsegment (hcontent _ _)]
  refine (hrest _ (hsettled _ _ _) (by simp)).trans ?_
  rw [List.reverse_cons, pushText_reverse, htrim]
  rcases hlead with rfl | ⟨rfl, rfl⟩
  · simp [tokensBehind, hcontent, printAll_concat, Place.after_append, print]
  · simp [tokensBehind, hcontent, content?_text_nil, Place.after]

/-- What is scanned behind a construct, or at the start. -/
theorem run_printAll (strict : Bool) (segments before : List Segment) (h : Printable segments)
    (state : Scan.State) (hstate : Settled state.tokens)
    (htrim : state.trimNext = before.getLast?.any fun last => last.markers.right) :
    Scan.run strict state
        (Piece.piecesFrom (printAll before).length (Place.start.after (printAll before))
          (printAll segments)) =
      .ok (state.tokens.reverse ++ tokensBehind before segments, []) := by
  -- A text takes the construct behind it along, because scanning looks for constructs.
  match segments with
  | [] =>
      have hlast := run_last strict state (opening?_eq_none .nil .nil) (printAll before).length
        (Place.start.after (printAll before))
      rw [content?_text_nil] at hlast
      exact hlast
  | [text cs] =>
      rcases h.proper _ List.mem_cons_self with ⟨_, houtput, htag⟩
      have hprint : printAll [text cs] = cs := List.append_nil cs
      rw [hprint, run_last strict state (opening?_eq_none
        (Text.not_infix_iff_isChain.mp houtput) (Text.not_infix_iff_isChain.mp htag)), htrim]
      simp [tokensBehind]
  | text cs :: next :: rest =>
      rcases h.proper _ List.mem_cons_self with ⟨_, houtput, htag⟩
      rcases h.apart.rel_head? rfl with ⟨hnext, hlast⟩
      have hproper := fun segment hmem =>
        h.proper segment (List.mem_cons_of_mem _ (List.mem_cons_of_mem _ hmem))
      exact run_round strict (.inl rfl) ⟨houtput, htag, hlast⟩ hnext (h.proper _ (by simp)) hstate
        htrim (run_printAll strict rest _ ⟨hproper, h.apart.tail.tail⟩)
  | output markers value :: rest =>
      have hproper := fun segment hmem => h.proper segment (List.mem_cons_of_mem _ hmem)
      exact run_round strict (.inr ⟨rfl, rfl⟩) leads_nil rfl (h.proper _ List.mem_cons_self) hstate
        htrim (run_printAll strict rest _ ⟨hproper, h.apart.tail⟩)
  | tag markers name args :: rest =>
      have hproper := fun segment hmem => h.proper segment (List.mem_cons_of_mem _ hmem)
      exact run_round strict (.inr ⟨rfl, rfl⟩) leads_nil rfl (h.proper _ List.mem_cons_self) hstate
        htrim (run_printAll strict rest _ ⟨hproper, h.apart.tail⟩)

/-- Scanning gives back what was printed, in either mode and with nothing to remark on. -/
theorem scan_printAll (segments : List Segment) (h : Printable segments) (strict : Bool) :
    Token.scan strict (String.ofList (printAll segments)) =
      .ok (tokens segments, [.tokenized (tokens segments).length]) := by
  have hrun := run_printAll strict segments [] h .start (fun _ => rfl) rfl
  unfold Token.scan Piece.pieces
  rw [String.toList_ofList]
  change (Scan.run strict .start (Piece.piecesFrom (printAll []).length
    (Place.start.after (printAll [])) (printAll segments))).map _ = _
  rw [hrun]
  rfl

/-- A marker trims the text on its side, and the places are those of the print. -/
theorem scan_printAll_markers :
    let segments : List Segment :=
      [text " a ".toList, output ⟨true, false⟩ "x".toList, text " ".toList,
        tag ⟨false, true⟩ "if".toList "y".toList, text "\nb".toList]
    Printable segments ∧
      Token.scan true (String.ofList (printAll segments)) =
        .ok ([⟨.text " a", 0, ⟨1, 1⟩⟩, ⟨.output "x", 3, ⟨1, 4⟩⟩, ⟨.text " ", 11, ⟨1, 12⟩⟩,
          ⟨.tag "if" "y", 12, ⟨1, 13⟩⟩, ⟨.text "b", 23, ⟨1, 24⟩⟩], [.tokenized 5]) := by
  intro segments
  have hprintable : Printable segments := by decide
  exact ⟨hprintable, (scan_printAll segments hprintable true).trans (by decide)⟩

end Segment

end Liquid
