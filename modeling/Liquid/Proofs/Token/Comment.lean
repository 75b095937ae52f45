import Liquid.Proofs.Token.Modes

/-!
# Comments inside Comments

The end of a comment is looked for by the shapes of tags alone. What is passed
over on the way are texts without a delimiter, tags with other names, and
comments of their own, as deep as they go; each of these is passed as a whole, so
that the tag that is found is the one that belongs to the comment.

A tag is told there by less than its name. The search takes any tag for one of a
comment whose name starts with that of one and does not go on as a word, while
elsewhere a name ends at the first blank only. So `endcomment-x` is a name of its
own, and yet it ends a comment.

## Main definitions

* `Piece.tagName`: What a tag is called.
* `Piece.TakenForEdge`: The names that are taken for those of comments.
* `Piece.Commented`: What may stand in a comment.

## Theorems

* `Piece.takenForEdge_of_commentEdge?`: Only tags with such names are taken for
  tags of comments.
* `Piece.commentEnd?_append`: What stands in a comment is passed over.
* `Token.scan_comment`: A comment between two texts.
-/

namespace Liquid

namespace Piece

open Segment (enclosed hyphen)

/-- What a tag with the given inside is called. -/
def tagName (inside : List Char) : List Char :=
  (splitName (splitMarkers inside).2).1

/-- A tag that opens or closes a comment. -/
def commentTag (isOpening : Bool) (markers : Markers) : List Char :=
  enclosed false markers (edgeName isOpening)

/-- Whether a name starts with one that opens or closes a comment and does not go on as a word. -/
def TakenForEdge (name : List Char) : Prop :=
  ∃ isOpening behind, name = edgeName isOpening ++ behind ∧
    behind.head?.any Text.isWordChar = false

/-- A name is taken for an edge if it starts with one and no letter of a word follows. -/
theorem takenForEdge_iff {name : List Char} :
    TakenForEdge name ↔ ∃ isOpening, ∃ behind ∈ Text.dropStart? (edgeName isOpening) name,
      behind.head?.any Text.isWordChar = false := by
  simp only [TakenForEdge, Option.mem_def, Text.dropStart?_eq_some_iff]

instance : DecidablePred TakenForEdge :=
  fun _ => decidable_of_iff _ takenForEdge_iff.symm

/-- What may stand in a comment: texts, tags with a name that is allowed, and comments. Where two
texts meet they make up no delimiter. -/
inductive Commented (allowed : List Char → Prop) : List Char → Prop
  | nil : Commented allowed []
  | text {cs rest : List Char} :
      ¬opener false <:+: cs → (cs.getLast? = some '\x7b' → rest.head? ≠ some '%') →
      Commented allowed rest → Commented allowed (cs ++ rest)
  | tag {inside rest : List Char} :
      ¬opener false <:+: inside ++ closer false → ¬closer false <:+: inside →
      allowed (tagName inside) →
      Commented allowed rest → Commented allowed (whole false inside ++ rest)
  | comment {inner rest : List Char} (opening closing : Markers) :
      Commented allowed inner → Commented allowed rest →
      Commented allowed (commentTag true opening ++ (inner ++ (commentTag false closing ++ rest)))

section Name

variable {inside rest : List Char}

/-- An edge starts with the opening of a tag. -/
theorem commentEdge?_eq_none {cs : List Char} (h : ¬opener false <+: cs) :
    commentEdge? cs = none := by
  rw [Option.eq_none_iff_forall_ne_some]
  rintro ⟨isOpening, right, rest⟩ hedge
  rcases commentEdge?_eq_some_iff.mp hedge with ⟨left, blanks, behind, _, _, rfl, _⟩
  exact h ⟨hyphen left ++ blanks ++ (edgeName isOpening ++ behind), by simp [front]⟩

/-- A hyphen in front is a marker, and so is one at the end. -/
theorem splitMarkers_hyphen_append (left : Bool) {cs : List Char} (h : cs.head? ≠ some '-') :
    (splitMarkers (hyphen left ++ cs)).2 =
      if cs.getLast? == some '-' then cs.dropLast else cs := by
  unfold splitMarkers
  cases left with
  | true => rfl
  | false =>
      have hhead : (cs.head? == some '-') = false := by simpa using h
      simp [hyphen, hhead]

/-- A marker on the right is no part of a word before it. -/
theorem splitMarkers_word {left : Bool} {blanks word behind : List Char}
    (hblanks : ∀ c ∈ blanks, Text.isBlank c = true) (hne : word ≠ []) (hword : '-' ∉ word) :
    ∃ after, (splitMarkers (hyphen left ++ (blanks ++ (word ++ behind)))).2 =
        blanks ++ (word ++ after) ∧ (after = [] ∨ after.head? = behind.head?) := by
  have hhead : (word ++ behind).head? ≠ some '-' := by
    rw [List.head?_append_of_ne_nil _ hne]
    exact fun heq => hword (List.mem_of_head? heq)
  rw [splitMarkers_hyphen_append left (head?_blanks_append_ne hblanks hhead)]
  -- The marker at the end is taken off what is behind the word, and never off the word.
  cases behind with
  | nil =>
      have hlast : (blanks ++ (word ++ [])).getLast? ≠ some '-' := by
        rw [List.append_nil, List.getLast?_append_of_ne_nil _ hne]
        exact fun heq => hword (List.mem_of_getLast? heq)
      rw [if_neg (by simpa using hlast)]
      exact ⟨[], rfl, .inl rfl⟩
  | cons c behind =>
      split
      · refine ⟨(c :: behind).dropLast, by simp [List.dropLast_append_of_ne_nil], ?_⟩
        cases behind with
        | nil => exact .inl rfl
        | cons d behind => exact .inr rfl
      · exact ⟨c :: behind, rfl, .inr rfl⟩

/-- The name of a tag that starts with a word: the word, and what goes on behind it without a
blank. -/
theorem tagName_word {left : Bool} {blanks word behind : List Char}
    (hblanks : ∀ c ∈ blanks, Text.isBlank c = true) (hne : word ≠ [])
    (hword : ∀ c ∈ word, Text.isBlank c = false) (hhyphen : '-' ∉ word) :
    ∃ after, tagName (hyphen left ++ (blanks ++ (word ++ behind))) = word ++ after ∧
      (after = [] ∨ after.head? = behind.head?) := by
  rcases @splitMarkers_word left _ _ behind hblanks hne hhyphen with ⟨after, hafter, hhead⟩
  have hstart : ∀ c ∈ (word ++ after).head?, Text.isBlank c = false := by
    rw [List.head?_append_of_ne_nil _ hne]
    exact fun c hc => hword c (List.mem_of_head? hc)
  refine ⟨after.takeWhile fun c => !Text.isBlank c, ?_, ?_⟩
  -- The name is the word with all that follows it up to a blank.
  · unfold tagName splitName
    rw [hafter, stripLeft_blanks_append hblanks hstart]
    exact List.takeWhile_append_of_pos fun c hc => by simp [hword c hc]
  -- Nothing follows, or the first letter that did before.
  · rcases hhead with rfl | hhead
    · exact .inl rfl
    · cases after with
      | nil => exact .inl rfl
      | cons c after =>
          by_cases hc : Text.isBlank c = true
          · exact .inl (List.takeWhile_cons_of_neg (by simp [hc]))
          · right
            rw [List.takeWhile_cons_of_pos (by simpa using hc), ← hhead]
            rfl

/-- The names of the tags of comments are words, and there are no delimiters in them. -/
theorem edgeName_word (isOpening : Bool) :
    edgeName isOpening ≠ [] ∧
      ∀ c ∈ edgeName isOpening, Text.isBlank c = false ∧ c ≠ '-' ∧ c ≠ '%' := by
  have hall : (edgeName isOpening).all (fun c => !Text.isBlank c && c != '-' && c != '%') := by
    cases isOpening <;> rfl
  constructor
  · cases isOpening <;> decide
  · intro c hc
    simpa [and_assoc] using List.all_eq_true.mp hall c hc

/-- A tag that is taken for one that opens or closes a comment has a name like that. -/
theorem takenForEdge_of_commentEdge? (h : commentEdge? (whole false inside ++ rest) ≠ none) :
    TakenForEdge (tagName inside) := by
  rcases Option.ne_none_iff_exists'.mp h with ⟨⟨isOpening, right, rest'⟩, hedge⟩
  rcases commentEdge?_eq_some_iff.mp hedge with ⟨left, blanks, behind, _, hblanks, heq, hword, _⟩
  rcases edgeName_word isOpening with ⟨hne, hname⟩
  -- The name ends before the delimiter that closes the tag, for that is the first of its kind.
  have hfront : '%' ∉ hyphen left ++ (blanks ++ edgeName isOpening) := by
    simp only [List.mem_append, not_or]
    refine ⟨?_, ?_, ?_⟩
    · cases left <;> decide
    · intro hmem
      exact absurd (hblanks _ hmem) (by decide)
    · exact fun hmem => (hname _ hmem).2.2 rfl
  have hinside : hyphen left ++ (blanks ++ edgeName isOpening) ++ behind =
      inside ++ '%' :: ('\x7d' :: rest) := by
    simpa [whole, front, opener, closer] using heq.symm
  rcases eq_append_of_notMem hfront hinside with ⟨between, rfl, rfl⟩
  rcases @tagName_word left blanks _ between hblanks hne (fun c hc => (hname c hc).1)
    (fun hmem => (hname _ hmem).2.1 rfl) with ⟨after, hafter, hhead⟩
  refine ⟨isOpening, after, by simpa using hafter, ?_⟩
  rcases hhead with rfl | hhead
  · rfl
  · rw [hhead]
    cases between <;> exact hword

end Name

section Search

variable {allowed : List Char → Prop} {body rest : List Char}

/-- A text without a delimiter is passed over, unless it makes up one with what is behind it. -/
theorem nextEdge?_text {cs : List Char} (h : ¬opener false <:+: cs)
    (hseam : cs.getLast? = some '\x7b' → rest.head? ≠ some '%') :
    nextEdge? (cs ++ rest) = nextEdge? rest := by
  -- On the text: no edge starts at any of its letters, as no tag does.
  induction cs with
  | nil => rfl
  | cons c cs ih =>
      rw [List.infix_cons_iff, not_or] at h
      -- The opening of a tag could only stand across the end of the text.
      have hnone : ¬opener false <+: c :: (cs ++ rest) := by
        rintro ⟨behind, hbehind⟩
        rcases List.cons.inj hbehind with ⟨rfl, hnext⟩
        cases cs with
        | nil =>
            rw [List.nil_append] at hnext
            exact hseam rfl (by rw [← hnext]; rfl)
        | cons d cs =>
            rcases List.cons.inj hnext with ⟨rfl, _⟩
            exact h.1 ⟨cs, rfl⟩
      have hseam' : cs.getLast? = some '\x7b' → rest.head? ≠ some '%' := by
        cases cs with
        | nil => exact fun hlast => nomatch hlast
        | cons d cs => exact hseam
      rw [List.cons_append, nextEdge?, commentEdge?_eq_none hnone, Option.none_or, ih h.2 hseam']

/-- A tag with another name is passed over. -/
theorem nextEdge?_tag {inside : List Char} (hinside : ¬opener false <:+: inside ++ closer false)
    (hname : ¬TakenForEdge (tagName inside)) :
    nextEdge? (whole false inside ++ rest) = nextEdge? rest := by
  have hnone : commentEdge? (whole false inside ++ rest) = none := by
    by_contra hedge
    exact hname (takenForEdge_of_commentEdge? hedge)
  -- Behind its first brace the tag is a text without any opening.
  have hbehind : ¬opener false <:+: '%' :: (inside ++ closer false) := by
    rw [List.infix_cons_iff, not_or]
    refine ⟨?_, hinside⟩
    rintro ⟨_, heq⟩
    cases heq
  have hlast : ('%' :: (inside ++ closer false)).getLast? ≠ some '\x7b' := by
    rw [← List.cons_append, List.getLast?_append_of_ne_nil _ (by simp [closer])]
    decide
  have hwhole : whole false inside ++ rest =
      '\x7b' :: ('%' :: (inside ++ closer false) ++ rest) := by
    simp [whole, opener]
  rw [hwhole] at hnone ⊢
  rw [nextEdge?, hnone, Option.none_or, nextEdge?_text hbehind fun heq => absurd heq hlast]

/-- A tag of a comment is found where it stands. -/
theorem nextEdge?_commentTag (isOpening : Bool) (markers : Markers) (rest : List Char) :
    nextEdge? (commentTag isOpening markers ++ rest) = some (isOpening, markers.right, rest) := by
  let behind := ' ' :: hyphen markers.right
  have hclose : Text.cut? (closer false) (behind ++ (closer false ++ rest)) =
      some (behind, rest) := by
    refine Text.cut?_pair_of_ne (by decide) rest ?_
    cases hright : markers.right <;> simp [behind, hright, hyphen] <;> decide
  -- It starts an edge, which its closer ends.
  have hedge : commentEdge? (commentTag isOpening markers ++ rest) =
      some (isOpening, markers.right, rest) := by
    refine commentEdge?_eq_some_iff.mpr ⟨markers.left, [' '], behind ++ (closer false ++ rest),
      behind, List.forall_mem_singleton.mpr rfl, ?_, (by decide : Text.isWordChar ' ' = false),
      hclose, ?_⟩
    · simp [commentTag, enclosed, Segment.inner, front, behind]
    · cases hright : markers.right <;> simp [behind, hright, hyphen]
  have hcons : commentTag isOpening markers ++ rest =
      '\x7b' :: (commentTag isOpening markers ++ rest).tail := by
    simp [commentTag, enclosed, opener]
  rw [hcons] at hedge ⊢
  rw [nextEdge?, hedge, Option.some_or]

theorem commentEnd?_of_none {cs : List Char} (h : nextEdge? cs = none) (nested : Nat) :
    commentEnd? nested cs = none := by
  rw [commentEnd?]
  split <;> simp_all

/-- The end of a comment depends on the tags of comments that are found, and not on what is passed
over before the first of them. -/
theorem commentEnd?_congr {cs cs' : List Char} (h : nextEdge? cs = nextEdge? cs') (nested : Nat) :
    commentEnd? nested cs = commentEnd? nested cs' := by
  cases hedge : nextEdge? cs' with
  | none => rw [commentEnd?_of_none hedge, commentEnd?_of_none (h.trans hedge)]
  | some edge =>
      rcases edge with ⟨_ | _, right, behind⟩
      · cases nested with
        | zero => rw [commentEnd?_of_closing hedge, commentEnd?_of_closing (h.trans hedge)]
        | succ nested =>
            rw [commentEnd?_of_closing_nested hedge, commentEnd?_of_closing_nested (h.trans hedge)]
      · rw [commentEnd?_of_opening hedge, commentEnd?_of_opening (h.trans hedge)]

/-- What stands in a comment is passed over, however deep the comments in it go. -/
theorem commentEnd?_append (hallowed : ∀ name, allowed name → ¬TakenForEdge name)
    (h : Commented allowed body) (nested : Nat) (hrest : rest.head? ≠ some '%') :
    commentEnd? nested (body ++ rest) = commentEnd? nested rest := by
  induction h generalizing nested rest with
  | nil => rfl
  | @text cs body hcs hseam _ ih =>
      have hseam' : cs.getLast? = some '\x7b' → (body ++ rest).head? ≠ some '%' := by
        intro hlast
        cases body with
        | nil => exact hrest
        | cons c body => exact hseam hlast
      rw [List.append_assoc, commentEnd?_congr (nextEdge?_text hcs hseam'), ih nested hrest]
  | tag hinside _ hname _ ih =>
      rw [List.append_assoc, commentEnd?_congr (nextEdge?_tag hinside (hallowed _ hname)),
        ih nested hrest]
  | @comment inner body opening closing _ _ ihinner ih =>
      have hclosing : (commentTag false closing ++ (body ++ rest)).head? ≠ some '%' := by
        simp [commentTag, enclosed, opener]
      -- The comment counts as one more while it lasts.
      rw [List.append_assoc, commentEnd?_of_opening (nextEdge?_commentTag true opening _),
        List.append_assoc, List.append_assoc, ihinner (nested + 1) hclosing,
        commentEnd?_of_closing_nested (nextEdge?_commentTag false closing _), ih nested hrest]

end Search

end Piece

namespace Token

open Piece

/-- A comment between two texts. Of whatever may stand in a comment nothing is kept, and the two
texts are all that is left, each where it stood. Of the markers only the outer two count: that on
the left of the tag that opens the comment, and that on the right of the one that closes it. -/
theorem scan_comment {before body after : List Char} (opening closing : Markers)
    (hbefore : Segment.Leads before) (hbody : Commented (fun name => ¬TakenForEdge name) body)
    (hafter : ¬opener true <:+: after ∧ ¬opener false <:+: after) (strict : Bool) :
    let used := before ++ (commentTag true opening ++ (body ++ commentTag false closing))
    let tokens :=
      ofText (Scan.State.trimmed false opening.left before) 0 .start ++
        ofText (Scan.State.trimmed closing.right false after) used.length (Place.start.after used)
    Token.scan strict (String.ofList (used ++ after)) =
      .ok (tokens, [.tokenized tokens.length]) := by
  intro used tokens
  have hinside : ¬closer false <:+: edgeName true :=
    fun hfound => ((edgeName_word true).2 _ (hfound.subset List.mem_cons_self)).2.2 rfl
  have hencloses : Encloses false before (Segment.inner opening (edgeName true)) :=
    ⟨hbefore, Segment.cut?_inner false opening hinside⟩
  have hname : tagName (Segment.inner opening (edgeName true)) = "comment".toList := by
    unfold tagName
    rw [Segment.splitMarkers_inner]
    rfl
  have hclosed : closer false <:+ body ++ commentTag false closing :=
    (closer_suffix [] false _).trans (List.suffix_append _ _)
  -- The end of the comment is the one that is printed, whatever follows.
  have hblock (rest : List Char) :
      commentEnd? 0 (body ++ commentTag false closing ++ rest) = some (closing.right, rest) := by
    rw [List.append_assoc, commentEnd?_append (fun _ hname => hname) hbody 0
      (by simp [commentTag, Segment.enclosed, opener])]
    exact commentEnd?_of_closing (nextEdge?_commentTag false closing rest)
  -- The text in front and the whole comment are one cut.
  have hcut := cut_comment hencloses hname hclosed hblock
  have hscan := Scan.scan_cut_text hcut (opening?_eq_none_iff.mpr hafter) strict
  have hread := fun offset' place' => @Scan.read_text_silent .start (fun _ => rfl) before
    ⟨opening.left, closing.right⟩ 0 offset' .start place'
  simp only [Segment.splitMarkers_inner, List.foldl_cons, List.foldl_nil, hread] at hscan
  rw [Scan.reverse_pushText] at hscan
  exact hscan

/-- A comment with a tag, and with a comment in which a tag has a name that starts like that of a
comment but is a longer word. -/
theorem scan_comment_nested :
    let inner := " y ".toList ++ (whole false " commentary -".toList ++ [])
    let body := whole false " if x ".toList ++
      (commentTag true ⟨true, false⟩ ++ (inner ++ (commentTag false ⟨false, true⟩ ++ [])))
    let source := "a \x7b% comment %\x7d\x7b% if x %\x7d\x7b%- comment %\x7d y " ++
      "\x7b% commentary -%\x7d\x7b% endcomment -%\x7d\x7b% endcomment %\x7d b"
    Segment.Leads "a ".toList ∧ Commented (fun name => ¬TakenForEdge name) body ∧
      Token.scan true source =
        .ok ([⟨.text "a ", 0, ⟨1, 1⟩⟩, ⟨.text " b", 92, ⟨1, 93⟩⟩], [.tokenized 2]) := by
  intro inner body source
  have hlonger : Commented (fun name => ¬TakenForEdge name)
      (whole false " commentary -".toList ++ []) :=
    .tag (by decide +kernel) (by decide +kernel) (by decide +kernel) .nil
  have hinner : Commented (fun name => ¬TakenForEdge name) inner :=
    .text (by decide +kernel) (by decide +kernel) hlonger
  -- The comment inside has an end of its own.
  have hcomment := Commented.comment ⟨true, false⟩ ⟨false, true⟩ hinner .nil
  have hbody : Commented (fun name => ¬TakenForEdge name) body :=
    .tag (by decide +kernel) (by decide +kernel) (by decide +kernel) hcomment
  have hleads : Segment.Leads "a ".toList := ⟨by decide +kernel, by decide +kernel, by decide⟩
  have hafter : ¬opener true <:+: " b".toList ∧ ¬opener false <:+: " b".toList := by
    decide +kernel
  have hscan := scan_comment ⟨false, false⟩ ⟨false, false⟩ hleads hbody hafter true
  exact ⟨hleads, hbody, hscan.trans (by decide +kernel)⟩

/-- A tag in a comment that has another name than those of comments, and that ends it all the same,
so that the tag that should end it is left over. -/
theorem scan_comment_cut_short :
    let body := whole false " endcomment-x ".toList ++ []
    let source := "\x7b% comment %\x7d\x7b% endcomment-x %\x7d\x7b% endcomment %\x7d"
    Commented (fun name => ∀ isOpening, name ≠ edgeName isOpening) body ∧
      source.toList = commentTag true ⟨false, false⟩ ++
        (body ++ commentTag false ⟨false, false⟩) ∧
      ∀ strict, Token.scan strict source =
        .ok ([⟨.tag "endcomment" "", 31, ⟨1, 32⟩⟩], [.tokenized 1]) := by
  intro body source
  have hbody : Commented (fun name => ∀ isOpening, name ≠ edgeName isOpening) body :=
    .tag (by decide +kernel) (by decide +kernel) (by decide +kernel) .nil
  exact ⟨hbody, by decide +kernel, by decide +kernel⟩

end Token

end Liquid
