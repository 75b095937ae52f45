import Liquid.Proofs.Token.RoundTrip
import Mathlib.Data.List.TakeWhile

/-!
# The Front of a Source

What is cut off the front of a source does not depend on what is behind it. An
output or a tag ends where its delimiter is first found. For raw blocks and
comments more has to be said: their ends are looked for from left to right, and
a search that passes a position by could have been stopped there by more text.
It could not, for up to its name a tag holds no brace but its first, so that it
does not reach into the end that is found; and a tag of a comment that is closed
at all is closed there at the latest.

So each search is told by its shape first, without the text behind it, and all
of them are local in the end.

## Main definitions

* `Piece.front`: The start of a tag up to its name.
* `Piece.edgeName`: The names that open and close a comment.

## Theorems

* `Piece.endRaw?_eq_some_iff`, `Piece.commentEdge?_eq_some_iff`: The shapes of
  tags that end raw blocks, and that open or close comments.
* `Piece.cutRaw?_local`, `Piece.commentEnd?_local`: What is found does not depend
  on what is behind it.
* `Piece.opening?_of_leads`, `Piece.leads_of_opening?`: A delimiter is the first
  one if the text before it leads up to it.
-/

namespace Liquid

namespace Piece

open Segment (hyphen)

/-- The start of a tag up to its name: the delimiter, its marker if there is one, and blanks. -/
def front (left : Bool) (blanks : List Char) : List Char :=
  opener false ++ (hyphen left ++ blanks)

/-- The name that opens a comment, or that closes one. -/
def edgeName (isOpening : Bool) : List Char :=
  if isOpening then "comment".toList else "endcomment".toList

section Shape

variable {cs rest blanks : List Char} {left : Bool}

/-- The hyphen that is split off can be put back. -/
theorem hyphen_append_splitHyphen (cs : List Char) :
    hyphen (splitHyphen cs).1 ++ (splitHyphen cs).2 = cs := by
  unfold splitHyphen
  split <;> rfl

/-- A hyphen that was put in front is split off, if there is no second one. -/
theorem splitHyphen_hyphen_append (left : Bool) (h : cs.head? ≠ some '-') :
    splitHyphen (hyphen left ++ cs) = (left, cs) := by
  cases left with
  | true => rfl
  | false =>
      cases cs with
      | nil => rfl
      | cons c cs =>
          have hc : c ≠ '-' := fun hc => h (congrArg some hc)
          simp [hyphen, splitHyphen, hc]

/-- Stripping takes blanks off the front and nothing else. -/
theorem blanks_append_stripLeft (cs : List Char) :
    ∃ blanks, (∀ c ∈ blanks, Text.isBlank c = true) ∧ blanks ++ Text.stripLeft cs = cs :=
  ⟨cs.takeWhile Text.isBlank, fun _ => List.mem_takeWhile_imp, List.takeWhile_append_dropWhile⟩

/-- Blanks in front are stripped up to what is not blank. -/
theorem stripLeft_blanks_append (hblanks : ∀ c ∈ blanks, Text.isBlank c = true)
    (h : ∀ c ∈ cs.head?, Text.isBlank c = false) : Text.stripLeft (blanks ++ cs) = cs := by
  unfold Text.stripLeft
  rw [List.dropWhile_append_of_pos hblanks]
  cases cs with
  | nil => rfl
  | cons c cs => exact List.dropWhile_cons_of_neg (by simp [h c rfl])

/-- A blank is no marker. -/
theorem head?_blanks_append_ne (hblanks : ∀ c ∈ blanks, Text.isBlank c = true)
    (h : cs.head? ≠ some '-') : (blanks ++ cs).head? ≠ some '-' := by
  cases blanks with
  | nil => exact h
  | cons c blanks =>
      rintro heq
      cases heq
      have hblank := hblanks '-' List.mem_cons_self
      revert hblank
      decide

/-- Where a tag starts there is its front: the opening, a marker and blanks. -/
theorem eq_front_append_of_tagStart? (h : tagStart? cs = some (left, rest)) :
    ∃ blanks, (∀ c ∈ blanks, Text.isBlank c = true) ∧ cs = front left blanks ++ rest := by
  rcases Option.map_eq_some_iff.mp h with ⟨after, hafter, heq⟩
  have hhyphen := hyphen_append_splitHyphen after
  -- The split by its two parts, so that the equation can be taken apart.
  generalize splitHyphen after = split at hhyphen heq
  rcases split with ⟨left', behind⟩
  cases heq
  rcases blanks_append_stripLeft behind with ⟨blanks, hblanks, hbehind⟩
  refine ⟨blanks, hblanks, ?_⟩
  unfold front
  rw [List.append_assoc, List.append_assoc, hbehind, hhyphen]
  exact Text.dropStart?_eq_some_iff.mp hafter

/-- A tag starts with its front, up to the first letter of its name. -/
theorem tagStart?_front_append (hblanks : ∀ c ∈ blanks, Text.isBlank c = true) {c : Char}
    (hblank : Text.isBlank c = false) (hhyphen : c ≠ '-') :
    tagStart? (front left blanks ++ c :: rest) = some (left, c :: rest) := by
  -- The first letter of the name is no second hyphen.
  have hmarked : (blanks ++ c :: rest).head? ≠ some '-' :=
    head?_blanks_append_ne hblanks fun heq => hhyphen (Option.some.inj heq)
  have hstart : Text.dropStart? ['\x7b', '%'] (front left blanks ++ c :: rest) =
      some (hyphen left ++ (blanks ++ c :: rest)) := by
    rw [Text.dropStart?_eq_some_iff]
    unfold front
    rw [List.append_assoc, List.append_assoc]
    rfl
  have hstrip : Text.stripLeft (blanks ++ c :: rest) = c :: rest :=
    stripLeft_blanks_append hblanks (by simpa using hblank)
  unfold tagStart?
  rw [hstart]
  simp only [Option.map_some, splitHyphen_hyphen_append left hmarked, hstrip]

/-- The tag that ends a raw block: its name between blanks, and a marker or none at either end. -/
theorem endRaw?_eq_some_iff {markers : Markers} :
    endRaw? cs = some (markers, rest) ↔
      ∃ before after, (∀ c ∈ before, Text.isBlank c = true) ∧
        (∀ c ∈ after, Text.isBlank c = true) ∧
        cs = front markers.left before ++ ("endraw".toList ++
          (after ++ (hyphen markers.right ++ (closer false ++ rest)))) := by
  unfold endRaw?
  simp only [Option.bind_eq_bind, Option.bind_eq_some_iff, Option.some.injEq, Prod.mk.injEq]
  constructor
  · rintro ⟨⟨left, named⟩, htag, behind, hname, closing, hclose, hmarkers, rfl⟩
    rcases eq_front_append_of_tagStart? htag with ⟨before, hbefore, rfl⟩
    rcases blanks_append_stripLeft behind with ⟨after, hafter, hbehind⟩
    have hhyphen := hyphen_append_splitHyphen (Text.stripLeft behind)
    generalize splitHyphen (Text.stripLeft behind) = split at hhyphen hclose hmarkers
    rcases split with ⟨right, closed⟩
    subst hmarkers
    refine ⟨before, after, hbefore, hafter, ?_⟩
    have hnamed : named = "endraw".toList ++ behind := Text.dropStart?_eq_some_iff.mp hname
    have hclosed : closed = closer false ++ closing := Text.dropStart?_eq_some_iff.mp hclose
    rw [hnamed, ← hbehind, ← hhyphen, hclosed]
  · rintro ⟨before, after, hbefore, hafter, rfl⟩
    -- Neither the marker nor the delimiter behind the blanks is one of them.
    have hstrip : Text.stripLeft (after ++ (hyphen markers.right ++ (closer false ++ rest))) =
        hyphen markers.right ++ (closer false ++ rest) := by
      refine stripLeft_blanks_append hafter ?_
      cases markers.right <;> simp [hyphen, closer] <;> decide
    have hsplit := splitHyphen_hyphen_append markers.right
      (show (closer false ++ rest).head? ≠ some '-' by simp [closer])
    refine ⟨(markers.left, "endraw".toList ++ _),
      tagStart?_front_append hbefore (by decide) (by decide), _,
      Text.dropStart?_eq_some_iff.mpr rfl, rest, ?_, ?_, rfl⟩
    · simp only [hstrip, hsplit]
      exact Text.dropStart?_eq_some_iff.mpr rfl
    · simp only [hstrip, hsplit]

/-- A tag that opens or closes a comment: its name behind blanks, no longer word, and anything up to
the first delimiter. -/
theorem commentEdge?_eq_some_iff {isOpening right : Bool} :
    commentEdge? cs = some (isOpening, right, rest) ↔
      ∃ left blanks behind inside, (∀ c ∈ blanks, Text.isBlank c = true) ∧
        cs = front left blanks ++ (edgeName isOpening ++ behind) ∧
        behind.head?.any Text.isWordChar = false ∧
        Text.cut? (closer false) behind = some (inside, rest) ∧
        (inside.getLast? == some '-') = right := by
  unfold commentEdge?
  simp only [Option.bind_eq_bind, Option.bind_eq_some_iff, Option.or_eq_some_iff]
  constructor
  · rintro ⟨⟨left, named⟩, htag, ⟨opens, behind⟩, hname, hedge⟩
    rcases eq_front_append_of_tagStart? htag with ⟨blanks, hblanks, rfl⟩
    -- Either word stands in front of what is behind the name.
    have hnamed : named = edgeName opens ++ behind := by
      rcases hname with hopens | ⟨_, hcloses⟩
      · rcases Option.map_eq_some_iff.mp hopens with ⟨_, hstart, heq⟩
        cases heq
        exact Text.dropStart?_eq_some_iff.mp hstart
      · rcases Option.map_eq_some_iff.mp hcloses with ⟨_, hstart, heq⟩
        cases heq
        exact Text.dropStart?_eq_some_iff.mp hstart
    -- The word ends there, or it is a longer one and no edge.
    by_cases hword : behind.head?.any Text.isWordChar = true
    · simp [hword] at hedge
    · simp only [hword, Bool.false_eq_true, if_false, Option.bind_eq_some_iff] at hedge
      rcases hedge with ⟨⟨inside, rest'⟩, hclose, heq⟩
      cases heq
      rw [Bool.not_eq_true] at hword
      exact ⟨left, blanks, behind, inside, hblanks, by rw [hnamed], hword, hclose, rfl⟩
  -- In the other direction each step of the search finds its part.
  · rintro ⟨left, blanks, behind, inside, hblanks, rfl, hword, hclose, rfl⟩
    refine ⟨(left, edgeName isOpening ++ behind), ?_, (isOpening, behind), ?_, ?_⟩
    · cases isOpening
      · exact tagStart?_front_append hblanks (by decide) (by decide)
      · exact tagStart?_front_append hblanks (by decide) (by decide)
    · cases isOpening with
      | true =>
          exact .inl (Option.map_eq_some_iff.mpr
            ⟨behind, Text.dropStart?_eq_some_iff.mpr rfl, rfl⟩)
      | false =>
          exact .inr ⟨rfl, Option.map_eq_some_iff.mpr
            ⟨behind, Text.dropStart?_eq_some_iff.mpr rfl, rfl⟩⟩
    · simp only [hword, Bool.false_eq_true, if_false, Option.bind_eq_some_iff]
      exact ⟨(inside, rest), hclose, rfl⟩

end Shape

section Local

variable {cs rest blanks : List Char}

/-- A brace is no blank. -/
theorem brace_not_mem_blanks (h : ∀ c ∈ blanks, Text.isBlank c = true) : '\x7b' ∉ blanks := by
  intro hmem
  have hblank := h _ hmem
  revert hblank
  decide

theorem brace_not_mem_hyphen (marked : Bool) : '\x7b' ∉ hyphen marked := by
  cases marked <;> decide

/-- A text without a character that starts another one ends before that character in it. -/
theorem eq_append_of_notMem {a : Char} {tail skipped behind : List Char} (h : a ∉ tail)
    (heq : tail ++ rest = skipped ++ a :: behind) :
    ∃ between, skipped = tail ++ between ∧ rest = between ++ a :: behind := by
  rcases List.append_eq_append_iff.mp heq with ⟨between, hskipped, hrest⟩ | ⟨excess, htail, hexcess⟩
  · exact ⟨between, hskipped, hrest⟩
  · cases excess with
    | nil => exact ⟨[], by simpa using htail.symm, by simpa using hexcess.symm⟩
    | cons c excess =>
        cases hexcess
        exact absurd (by simp [htail]) h

/-- The end of a raw block is found whatever follows it, and no brace stands in it but the first. -/
theorem endRaw?_local {markers : Markers} (h : endRaw? cs = some (markers, rest)) :
    ∃ tail, '\x7b' ∉ tail ∧ cs = '\x7b' :: (tail ++ rest) ∧ closer false <:+ tail ∧
      ∀ rest', endRaw? ('\x7b' :: (tail ++ rest')) = some (markers, rest') := by
  rcases endRaw?_eq_some_iff.mp h with ⟨before, after, hbefore, hafter, rfl⟩
  refine ⟨'%' :: (hyphen markers.left ++ (before ++ ("endraw".toList ++
    (after ++ (hyphen markers.right ++ closer false))))), ?_, ?_, ?_, fun rest' => ?_⟩
  · simp [brace_not_mem_hyphen, brace_not_mem_blanks hbefore, brace_not_mem_blanks hafter, closer]
  · simp [front, opener]
  · exact ⟨'%' :: (hyphen markers.left ++ (before ++ ("endraw".toList ++
      (after ++ hyphen markers.right)))), by simp⟩
  · exact endRaw?_eq_some_iff.mpr ⟨before, after, hbefore, hafter, by simp [front, opener]⟩

/-- A raw block is cut at the same end whatever follows it. -/
theorem cutRaw?_local {inside : List Char} {markers : Markers}
    (h : cutRaw? cs = some (inside, markers, rest)) :
    ∃ tail, cs = inside ++ '\x7b' :: (tail ++ rest) ∧ closer false <:+ tail ∧
      ∀ rest', cutRaw? (inside ++ '\x7b' :: (tail ++ rest')) = some (inside, markers, rest') := by
  induction cs generalizing inside with
  | nil => cases h
  | cons c cs ih =>
      unfold cutRaw? at h
      cases hend : endRaw? (c :: cs) with
      | some result =>
          rcases result with ⟨markers', rest'⟩
          rw [hend] at h
          cases h
          rcases endRaw?_local hend with ⟨tail, _, hcs, hclosed, hlocal⟩
          refine ⟨tail, hcs, hclosed, fun rest' => ?_⟩
          rw [List.nil_append, cutRaw?, hlocal]
      | none =>
          rw [hend] at h
          rcases Option.map_eq_some_iff.mp h with ⟨⟨inside', markers', rest'⟩, hcut, heq⟩
          cases heq
          rcases ih hcut with ⟨tail, rfl, hclosed, hlocal⟩
          refine ⟨tail, rfl, hclosed, fun rest' => ?_⟩
          have hnone : endRaw? (c :: (inside' ++ '\x7b' :: (tail ++ rest'))) = none := by
            rw [Option.eq_none_iff_forall_ne_some]
            rintro ⟨markers', rest''⟩ hsome
            -- An end of a raw block that starts here lies before the one that was found.
            rcases endRaw?_local hsome with ⟨passed, hbrace, heq, _, hpassed⟩
            rcases List.cons.inj heq with ⟨rfl, hseam⟩
            rcases eq_append_of_notMem hbrace hseam.symm with ⟨between, rfl, _⟩
            rw [List.append_assoc, hpassed] at hend
            cases hend
          rw [List.cons_append, cutRaw?, hnone, hlocal]
          rfl

/-- An edge of a comment is found whatever follows it. -/
theorem commentEdge?_local {isOpening right : Bool}
    (h : commentEdge? cs = some (isOpening, right, rest)) :
    ∃ tail, cs = '\x7b' :: (tail ++ rest) ∧ closer false <:+ tail ∧
      ∀ rest', commentEdge? ('\x7b' :: (tail ++ rest')) = some (isOpening, right, rest') := by
  rcases commentEdge?_eq_some_iff.mp h with
    ⟨left, blanks, behind, inside, hblanks, rfl, hword, hclose, hright⟩
  have hbehind := Text.eq_append_of_cut? hclose
  refine ⟨'%' :: (hyphen left ++ (blanks ++ (edgeName isOpening ++ (inside ++ closer false)))),
    ?_, ?_, fun rest' => ?_⟩
  · simp [front, opener, hbehind]
  · exact ⟨'%' :: (hyphen left ++ (blanks ++ (edgeName isOpening ++ inside))), by simp⟩
  · refine commentEdge?_eq_some_iff.mpr ⟨left, blanks, inside ++ (closer false ++ rest'), inside,
      hblanks, by simp [front, opener], ?_, Text.cut?_local hclose rest', hright⟩
    -- The delimiter at the latest ends the name.
    rw [hbehind] at hword
    cases inside <;> exact hword

/-- Whether a tag of a comment stands at the front does not depend on what is behind a brace that
is further on, if a tag that starts at that brace is closed. -/
theorem commentEdge?_ne_none {c : Char} {skipped tail : List Char}
    (hclosed : closer false <:+ tail) (rest rest' : List Char)
    (h : commentEdge? (c :: (skipped ++ '\x7b' :: (tail ++ rest))) ≠ none) :
    commentEdge? (c :: (skipped ++ '\x7b' :: (tail ++ rest'))) ≠ none := by
  rcases Option.ne_none_iff_exists'.mp h with ⟨⟨isOpening, right, behind'⟩, hedge⟩
  rcases commentEdge?_eq_some_iff.mp hedge with
    ⟨left, blanks, behind, inside, hblanks, heq, hword, hclose, hright⟩
  rcases List.cons.inj heq with ⟨rfl, hseam⟩
  have hbrace : '\x7b' ∉ '%' :: (hyphen left ++ (blanks ++ edgeName isOpening)) := by
    have hname : '\x7b' ∉ edgeName isOpening := by
      cases isOpening <;> decide
    simp [brace_not_mem_hyphen, brace_not_mem_blanks hblanks, hname]
  have hpassed : '%' :: (hyphen left ++ (blanks ++ edgeName isOpening)) ++ behind =
      skipped ++ '\x7b' :: (tail ++ rest) := by
    simpa using hseam.symm
  rcases eq_append_of_notMem hbrace hpassed with ⟨between, rfl, rfl⟩
  -- The delimiter is there, so one is found, be it that one or one before it.
  have hfound : Text.cut? (closer false) (between ++ '\x7b' :: (tail ++ rest')) ≠ none := by
    rw [ne_eq, Text.cut?_eq_none_iff, not_not]
    rcases hclosed with ⟨first, rfl⟩
    exact ⟨between ++ '\x7b' :: first, rest', by simp⟩
  rcases Option.ne_none_iff_exists'.mp hfound with ⟨⟨inside', rest''⟩, hclose'⟩
  refine Option.ne_none_iff_exists'.mpr ⟨(isOpening, inside'.getLast? == some '-', rest''), ?_⟩
  refine commentEdge?_eq_some_iff.mpr ⟨left, blanks, _, inside', hblanks,
    by simp [front, opener], ?_, hclose', rfl⟩
  cases between <;> exact hword

/-- The next edge is the same whatever follows it. -/
theorem nextEdge?_local {isOpening right : Bool}
    (h : nextEdge? cs = some (isOpening, right, rest)) :
    ∃ skipped tail, cs = skipped ++ '\x7b' :: (tail ++ rest) ∧ closer false <:+ tail ∧
      ∀ rest', nextEdge? (skipped ++ '\x7b' :: (tail ++ rest')) =
        some (isOpening, right, rest') := by
  -- On the letters that are skipped: what is behind a later edge cannot make one of them an edge.
  induction cs with
  | nil => cases h
  | cons c cs ih =>
      rw [nextEdge?, Option.or_eq_some_iff] at h
      rcases h with hedge | ⟨hnone, hnext⟩
      · rcases commentEdge?_local hedge with ⟨tail, hcs, hclosed, hlocal⟩
        refine ⟨[], tail, hcs, hclosed, fun rest' => ?_⟩
        rw [List.nil_append, nextEdge?, hlocal, Option.some_or]
      · rcases ih hnext with ⟨skipped, tail, rfl, hclosed, hlocal⟩
        refine ⟨c :: skipped, tail, rfl, hclosed, fun rest' => ?_⟩
        have hnone' : commentEdge? (c :: (skipped ++ '\x7b' :: (tail ++ rest'))) = none := by
          by_contra hsome
          exact commentEdge?_ne_none hclosed rest' rest hsome hnone
        rw [List.cons_append, nextEdge?, hnone', Option.none_or, hlocal]

/-- An opening edge makes one more comment to be closed. -/
theorem commentEnd?_of_opening {right : Bool} (h : nextEdge? cs = some (true, right, rest))
    (nested : Nat) : commentEnd? nested cs = commentEnd? (nested + 1) rest := by
  rw [commentEnd?]
  split <;> simp_all

/-- A closing edge ends the comment that nothing is open in. -/
theorem commentEnd?_of_closing {right : Bool} (h : nextEdge? cs = some (false, right, rest)) :
    commentEnd? 0 cs = some (right, rest) := by
  rw [commentEnd?]
  split <;> simp_all

/-- A closing edge ends the innermost comment. -/
theorem commentEnd?_of_closing_nested {right : Bool}
    (h : nextEdge? cs = some (false, right, rest)) (nested : Nat) :
    commentEnd? (nested + 1) cs = commentEnd? nested rest := by
  rw [commentEnd?]
  split <;> simp_all

/-- The end of a comment is the same whatever follows it. -/
theorem commentEnd?_local {nested : Nat} {right : Bool}
    (h : commentEnd? nested cs = some (right, rest)) :
    ∃ used, cs = used ++ rest ∧ closer false <:+ used ∧
      ∀ rest', commentEnd? nested (used ++ rest') = some (right, rest') := by
  -- On the edges: what an opening adds a closing takes off again.
  fun_induction commentEnd? nested cs with
  | case1 => cases h
  | case2 nested cs _ behind hedge ih =>
      rcases nextEdge?_local hedge with ⟨skipped, tail, rfl, _, hnext⟩
      rcases ih h with ⟨used, rfl, hclosed, hlocal⟩
      refine ⟨skipped ++ '\x7b' :: (tail ++ used), by simp, ?_, fun rest' => ?_⟩
      · exact hclosed.trans ⟨skipped ++ '\x7b' :: tail, by simp⟩
      have hedge' := hnext (used ++ rest')
      rw [List.append_assoc, List.cons_append, List.append_assoc,
        commentEnd?_of_opening hedge' nested, hlocal]
  | case3 cs right' behind hedge =>
      cases h
      rcases nextEdge?_local hedge with ⟨skipped, tail, rfl, hclosed, hnext⟩
      refine ⟨skipped ++ '\x7b' :: tail, by simp, ?_, fun rest' => ?_⟩
      · exact hclosed.trans ⟨skipped ++ ['\x7b'], by simp⟩
      rw [List.append_assoc, List.cons_append, commentEnd?_of_closing (hnext rest')]
  | case4 cs _ behind hedge nested ih =>
      rcases nextEdge?_local hedge with ⟨skipped, tail, rfl, _, hnext⟩
      rcases ih h with ⟨used, rfl, hclosed, hlocal⟩
      refine ⟨skipped ++ '\x7b' :: (tail ++ used), by simp, ?_, fun rest' => ?_⟩
      · exact hclosed.trans ⟨skipped ++ '\x7b' :: tail, by simp⟩
      have hedge' := hnext (used ++ rest')
      rw [List.append_assoc, List.cons_append, List.append_assoc,
        commentEnd?_of_closing_nested hedge' nested, hlocal]

section Opening

variable {before after : List Char} {isOutput : Bool}

theorem not_prefix_cons_of_ne {a b c : Char} (h : ∀ rest, c = a → cs = b :: rest → False) :
    ¬[a, b] <+: c :: cs := by
  rintro ⟨rest, hrest⟩
  rcases List.cons.inj hrest with ⟨hc, hcs⟩
  exact h rest hc.symm hcs.symm

theorem opening?_cons_eq_none_iff {c : Char} :
    opening? (c :: cs) = none ↔
      (¬opener true <+: c :: cs ∧ ¬opener false <+: c :: cs) ∧ opening? cs = none := by
  conv => lhs; unfold opening?
  -- By the two openers, or by the first letter alone.
  split
  · next heq =>
      cases heq
      simp [opener]
  · next heq =>
      cases heq
      simp [opener]
  · next houtput htag heq =>
      cases heq
      rw [Option.map_eq_none_iff, iff_and_self]
      exact fun _ => ⟨not_prefix_cons_of_ne houtput, not_prefix_cons_of_ne htag⟩
  · next heq => cases heq

/-- A text without an opening is one that neither opener stands in. -/
theorem opening?_eq_none_iff :
    opening? cs = none ↔ ¬opener true <:+: cs ∧ ¬opener false <:+: cs := by
  induction cs with
  | nil => simp [opening?, opener]
  | cons c cs ih =>
      rw [opening?_cons_eq_none_iff, ih, List.infix_cons_iff, List.infix_cons_iff]
      tauto

/-- The first opening is the one behind a text that leads up to it. -/
theorem opening?_of_leads (h : Segment.Leads before) (isOutput : Bool) (after : List Char) :
    opening? (before ++ (opener isOutput ++ after)) = some (before, isOutput, after) :=
  Segment.opening?_append isOutput after (Text.not_infix_iff_isChain.mp h.output)
    (Text.not_infix_iff_isChain.mp h.tag) h.last

/-- The first delimiter stands behind a text that neither holds one nor starts one. -/
theorem leads_of_opening? (h : opening? cs = some (before, isOutput, after)) :
    Segment.Leads before ∧ cs = before ++ (opener isOutput ++ after) := by
  fun_induction opening? cs generalizing before with
  | case1 cs =>
      cases h
      exact ⟨Segment.leads_nil, rfl⟩
  | case2 cs =>
      cases h
      exact ⟨Segment.leads_nil, rfl⟩
  | case3 c cs houtput htag ih =>
      rcases Option.map_eq_some_iff.mp h with ⟨⟨before', isOutput', after'⟩, hopen, heq⟩
      cases heq
      rcases ih hopen with ⟨hleads, rfl⟩
      have hprefix : c :: before' <+: c :: (before' ++ (opener isOutput ++ after)) :=
        List.prefix_append _ _
      -- A delimiter at the front would have been found there.
      have hfront : ¬opener true <+: c :: (before' ++ (opener isOutput ++ after)) :=
        not_prefix_cons_of_ne houtput
      have hfront' : ¬opener false <+: c :: (before' ++ (opener isOutput ++ after)) :=
        not_prefix_cons_of_ne htag
      refine ⟨⟨?_, ?_, ?_⟩, rfl⟩
      · rw [List.infix_cons_iff, not_or]
        exact ⟨fun hstart => hfront (hstart.trans hprefix), hleads.output⟩
      · rw [List.infix_cons_iff, not_or]
        exact ⟨fun hstart => hfront' (hstart.trans hprefix), hleads.tag⟩
      · cases before' with
        | nil =>
            intro hlast
            rw [show c = '\x7b' from Option.some.inj hlast] at hfront
            exact hfront (by cases isOutput <;> simp [opener])
        | cons d before' =>
            rw [List.getLast?_cons_cons]
            exact hleads.last
  | case4 => cases h

end Opening

end Local

end Piece

end Liquid
