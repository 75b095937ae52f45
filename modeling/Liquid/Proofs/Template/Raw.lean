import Liquid.Proofs.Arrangement.Control
import Liquid.Proofs.Token.Comment

/-!
# Raw Blocks

What is in a raw block comes out as it is written. Nothing in it is read, so it
may hold delimiters, constructs that are left open and tags of any name but one:
the block ends at the first tag that ends a raw block. That is the one that was
written as its end, since such a tag holds no brace but its first and so none can
start in the block and reach beyond it.

Only the markers of the two tags act on the text in the block and on the two
texts around it, each marker on the text on its side. A source of this kind has
no tokens but texts, and so it compiles in every environment, and renders to the
same in every scope.

## Main definitions

* `Piece.EndsRaw`: The tags that end raw blocks.

## Theorems

* `Piece.cutRaw?_verbatim`: The end of a raw block is found where it is written.
* `Token.scan_raw`: The tokens of a raw block between two texts.
* `Template.output_texts`: Texts compile to themselves, and show as one text.
* `Template.output_raw`: What a raw block between two texts shows.
-/

namespace Liquid

namespace Piece

open Segment (enclosed hyphen)

/-- Whether a text is a tag that ends a raw block: the name between blanks or none, and a marker or
none at either end. -/
def EndsRaw (cs : List Char) : Prop :=
  ∃ (markers : Markers) (before after : List Char), (∀ c ∈ before, Text.isBlank c = true) ∧
    (∀ c ∈ after, Text.isBlank c = true) ∧
    cs = front markers.left before ++ ("endraw".toList ++
      (after ++ (hyphen markers.right ++ closer false)))

section Verbatim

variable {body : List Char}

/-- Such a tag is read as what it is, whatever is behind it. -/
theorem EndsRaw.endRaw? {cs : List Char} (h : EndsRaw cs) :
    ∃ markers, ∀ rest, Piece.endRaw? (cs ++ rest) = some (markers, rest) := by
  rcases h with ⟨markers, before, after, hbefore, hafter, rfl⟩
  refine ⟨markers, fun rest => endRaw?_eq_some_iff.mpr ⟨before, after, hbefore, hafter, ?_⟩⟩
  simp only [List.append_assoc]

/-- An end tag that is printed with any markers ends a raw block. -/
theorem endRaw?_of_tag (closing : Markers) (rest : List Char) :
    endRaw? (enclosed false closing "endraw".toList ++ rest) = some (closing, rest) := by
  have hblank : ∀ c ∈ [' '], Text.isBlank c = true := List.forall_mem_singleton.mpr rfl
  refine endRaw?_eq_some_iff.mpr ⟨[' '], [' '], hblank, hblank, ?_⟩
  simp [enclosed, Segment.inner, front]

/-- What is read as such a tag starts with one. -/
theorem endsRaw_of_endRaw? {cs rest : List Char} {markers : Markers}
    (h : endRaw? cs = some (markers, rest)) :
    ∃ tail, '\x7b' ∉ tail ∧ cs = '\x7b' :: (tail ++ rest) ∧ EndsRaw ('\x7b' :: tail) := by
  rcases endRaw?_local h with ⟨tail, hbrace, hcs, _, hlocal⟩
  have hends := hlocal []
  rcases endRaw?_eq_some_iff.mp hends with ⟨before, after, hbefore, hafter, heq⟩
  refine ⟨tail, hbrace, hcs, markers, before, after, hbefore, hafter, ?_⟩
  simpa using heq

/-- A raw block has no end in a text exactly if no such tag is part of the text. -/
theorem cutRaw?_eq_none_iff_endsRaw :
    cutRaw? body = none ↔ ∀ cs, EndsRaw cs → ¬cs <:+: body := by
  rw [cutRaw?_eq_none_iff]
  constructor
  -- An end tag inside of the body would be found where it starts.
  · rintro hnone cs hends ⟨first, last, hbody⟩
    rcases hends.endRaw? with ⟨markers, hend⟩
    have hbehind := hnone (cs ++ last) ⟨first, (List.append_assoc ..).symm.trans hbody⟩
    rw [hend] at hbehind
    cases hbehind
  -- What is found at some place is an end tag, which starts there.
  · intro hbody behind hbehind
    rw [Option.eq_none_iff_forall_ne_some]
    rintro ⟨markers, rest⟩ hend
    rcases endsRaw_of_endRaw? hend with ⟨tail, _, rfl, hends⟩
    exact hbody _ hends (List.IsInfix.trans ⟨[], rest, by simp⟩ hbehind.isInfix)

/-- The end of a raw block is found where it is written if there is none in the block. -/
theorem cutRaw?_verbatim (hbody : ∀ cs, EndsRaw cs → ¬cs <:+: body) (closing : Markers)
    (rest : List Char) :
    cutRaw? (body ++ (enclosed false closing "endraw".toList ++ rest)) =
      some (body, closing, rest) := by
  have htag : enclosed false closing "endraw".toList ++ rest =
      '\x7b' :: (enclosed false closing "endraw".toList ++ rest).tail := by
    simp [enclosed, opener]
  induction body with
  | nil =>
      have hend := endRaw?_of_tag closing rest
      rw [List.nil_append]
      rw [htag] at hend ⊢
      rw [cutRaw?, hend]
  | cons c body ih =>
      have hnone : endRaw? (c :: (body ++ (enclosed false closing "endraw".toList ++ rest))) =
          none := by
        rw [Option.eq_none_iff_forall_ne_some]
        rintro ⟨markers, behind⟩ hend
        rcases endsRaw_of_endRaw? hend with ⟨tail, hbrace, heq, hends⟩
        rcases List.cons.inj heq with ⟨rfl, hseam⟩
        rw [htag] at hseam
        -- It would end before the brace of the tag that is the end.
        rcases eq_append_of_notMem hbrace hseam.symm with ⟨between, rfl, _⟩
        exact hbody _ hends ⟨[], between, by simp⟩
      rw [List.cons_append, cutRaw?, hnone,
        ih fun cs hends hfound => hbody cs hends (hfound.trans (List.suffix_cons c body).isInfix)]
      rfl

end Verbatim

end Piece

namespace Token

open Piece
open Scan (State)
open Segment (enclosed)

/-- The pieces of a raw block and of the text before it: each text is trimmed as the tags next to it
ask, and what is behind the block as its end does. -/
theorem foldl_raw (opening closing : Markers) (before body : List Char)
    (offset offset' offset'' : Nat) (place place' place'' : Place) :
    [⟨.text before false, 0, .start⟩, ⟨.silent opening, offset, place⟩,
        ⟨.text body closing.left, offset', place'⟩,
        ⟨.silent ⟨false, closing.right⟩, offset'', place''⟩].foldl State.read .start =
      ⟨State.pushText
          (State.pushText [] (State.trimmed false opening.left before) 0 .start)
          (State.trimmed opening.right closing.left body) offset' place', closing.right⟩ := by
  have hread := @Scan.read_text_silent .start (fun _ => rfl) before opening 0 offset .start place
  simp only [List.foldl_cons, List.foldl_nil, hread]
  exact congrArg (State.mk · closing.right) (Scan.trimLast_false _)

/-- The tokens of a raw block between two texts, in either mode: the three texts as they are, save
that each of the four markers trims the text on its side. -/
theorem scan_raw {before body after : List Char} (opening closing : Markers)
    (hbefore : Segment.Leads before) (hbody : ∀ cs, EndsRaw cs → ¬cs <:+: body)
    (hafter : ¬opener true <:+: after ∧ ¬opener false <:+: after) (strict : Bool) :
    let raw := before ++ enclosed false opening "raw".toList
    let block := raw ++ (body ++ enclosed false closing "endraw".toList)
    let tokens :=
      ofText (State.trimmed false opening.left before) 0 .start ++
        ofText (State.trimmed opening.right closing.left body) raw.length
          (Place.start.after raw) ++
        ofText (State.trimmed closing.right false after) block.length
          (Place.start.after block)
    Token.scan strict (String.ofList (block ++ after)) =
      .ok (tokens, [.tokenized tokens.length]) := by
  intro raw block tokens
  have hinside : ¬closer false <:+: "raw".toList := by decide +kernel
  have hencloses : Encloses false before (Segment.inner opening "raw".toList) :=
    ⟨hbefore, Segment.cut?_inner false opening hinside⟩
  have hname : tagName (Segment.inner opening "raw".toList) = "raw".toList := by
    unfold tagName
    rw [Segment.splitMarkers_inner]
    rfl
  have hclosed : closer false <:+ body ++ enclosed false closing "endraw".toList :=
    (closer_suffix [] false _).trans (List.suffix_append _ _)
  -- The first end tag is the one that is printed, as the body has none of its own.
  have hcutRaw (rest : List Char) :
      cutRaw? (body ++ enclosed false closing "endraw".toList ++ rest) =
        some (body, closing, rest) := by
    rw [List.append_assoc, cutRaw?_verbatim hbody]
  -- The text in front, the opening, the body and the end are one cut.
  have hcut := cut_raw hencloses hname hclosed hcutRaw
  have hblock : before ++ (whole false (Segment.inner opening "raw".toList) ++
      (body ++ enclosed false closing "endraw".toList)) = block :=
    (List.append_assoc ..).symm
  have hscan := Scan.scan_cut_text hcut (opening?_eq_none_iff.mpr hafter) strict
  have hraw : 0 + before.length + (whole false (Segment.inner opening "raw".toList)).length =
      raw.length := by
    rw [Nat.zero_add, ← List.length_append]
    rfl
  simp only [Segment.splitMarkers_inner, foldl_raw, Scan.reverse_pushText, ← Place.after_append,
    hblock, hraw] at hscan
  exact hscan

/-- Whether tokens are texts that make up a text. -/
def Shows (tokens : List Token) (cs : List Char) : Prop :=
  ∃ texts : List String, tokens.map (·.content) = texts.map .text ∧
    String.join texts = String.ofList cs

/-- A text shows itself, the empty one without any token. -/
theorem shows_ofText (cs : List Char) (offset : Nat) (place : Place) :
    Shows (ofText cs offset place) cs := by
  cases cs with
  | nil => exact ⟨[], rfl, rfl⟩
  | cons c cs => exact ⟨[String.ofList (c :: cs)], rfl, by simp⟩

/-- Tokens of text show the texts one after the other. -/
theorem Shows.append {first second : List Token} {cs ds : List Char} (h : Shows first cs)
    (h' : Shows second ds) : Shows (first ++ second) (cs ++ ds) := by
  rcases h with ⟨texts, hfirst, hjoin⟩
  rcases h' with ⟨texts', hsecond, hjoin'⟩
  refine ⟨texts ++ texts', ?_, ?_⟩
  · rw [List.map_append, hfirst, hsecond, List.map_append]
  · rw [String.join_append, hjoin, hjoin', String.ofList_append]

end Token

section Texts

/-- Reading texts adds them as nodes, in any environment. -/
theorem Arrangement.foldlM_texts (tags : Table Tag) {tokens : List Token} {texts : List String}
    (h : tokens.map (·.content) = texts.map .text) (nodes : List Node) :
    tokens.foldlM (read tags) ⟨[], nodes⟩ = .ok ⟨[], (texts.map .text).reverse ++ nodes⟩ := by
  -- On the texts: each of them is pushed onto the nodes that are there.
  induction texts generalizing tokens nodes with
  | nil =>
      rw [List.map_nil, List.map_eq_nil_iff] at h
      subst h
      rfl
  | cons text texts ih =>
      cases tokens with
      | nil => cases h
      | cons token tokens =>
          rcases token with ⟨content, offset, place⟩
          rcases List.cons.inj h with ⟨htext, htexts⟩
          subst htext
          rw [List.foldlM_cons]
          refine (ih htexts (.text text :: nodes)).trans ?_
          simp

/-- Tokens of text are arranged to nodes of text, and never refused. -/
theorem Arrangement.ofTokens_texts (tags : Table Tag) {tokens : List Token} {texts : List String}
    (h : tokens.map (·.content) = texts.map .text) :
    ∃ remarks, Node.ofTokens tags tokens = .ok (texts.map .text, remarks) := by
  unfold Node.ofTokens start
  rw [foldlM_texts tags h []]
  exact ⟨[.arranged tokens.length (texts.map Node.text).length], by
    simp [finish, bind, Except.bind]⟩

/-- Rendering texts writes them one after the other, and does nothing else. -/
theorem renderAll_texts (env : Environment) (texts : List String) (scope : Scope) :
    renderAll env (texts.map .text) scope = ⟨texts, [], scope, .done ()⟩ := by
  induction texts with
  | nil => rfl
  | cons text texts ih =>
      change Render.bind (Render.emit text) (fun _ => renderAll env (texts.map .text)) scope = _
      unfold Render.bind
      simp only [Render.emit, ih]
      rfl

/-- A source of which only texts are left compiles in any environment, and shows them whatever the
data are. -/
theorem Template.output_texts {environment : Environment} {source : String} {tokens : List Token}
    {remarks : List Remark} {cs : List Char}
    (hscan : Token.scan environment.settings.strict source = .ok (tokens, remarks))
    (h : Token.Shows tokens cs) :
    ∃ template, (compile environment source).result = .ok template ∧
      ∀ data, (template.output data).result = .ok (String.ofList cs) := by
  rcases h with ⟨texts, htexts, hjoin⟩
  have hnodes := Arrangement.ofTokens_texts environment.tags htexts
  -- A template of texts alone renders to them, whatever the data is.
  refine ⟨⟨texts.map .text, environment⟩,
    compile_eq_ok_iff.mpr ⟨rfl, tokens, ⟨remarks, hscan⟩, hnodes⟩, fun data => ?_⟩
  unfold output Environment.output
  simp only [Option.getD_none, renderAll_texts, hjoin]

end Texts

namespace Template

open Piece
open Scan (State)
open Segment (enclosed)

/-- A raw block between two texts compiles in every environment and in both modes, and shows the
three texts whatever the data are. Nothing in the block is read, and only the four markers act: each
trims the text on its side. -/
theorem output_raw (environment : Environment) (opening closing : Markers)
    {before body after : List Char} (hbefore : Segment.Leads before)
    (hbody : ∀ cs, EndsRaw cs → ¬cs <:+: body)
    (hafter : ¬opener true <:+: after ∧ ¬opener false <:+: after) :
    let source := before ++ (enclosed false opening "raw".toList ++
      (body ++ (enclosed false closing "endraw".toList ++ after)))
    ∃ template, (compile environment (String.ofList source)).result = .ok template ∧
      ∀ data, (template.output data).result =
        .ok (String.ofList (State.trimmed false opening.left before ++
          (State.trimmed opening.right closing.left body ++
            State.trimmed closing.right false after))) := by
  intro source
  have hscan := Token.scan_raw opening closing hbefore hbody hafter environment.settings.strict
  simp only [List.append_assoc] at hscan
  -- The three texts are all there is to render.
  refine output_texts hscan ?_
  exact (Token.shows_ofText _ _ _).append ((Token.shows_ofText _ _ _).append
    (Token.shows_ofText _ _ _))

/-- A block with an output that is left open, a tag of a longer name and the start of its own end,
between texts that lose the blanks next to three of its markers. -/
theorem output_raw_open :
    let body := " \x7b\x7b x \x7b% endrawing %\x7d\x7b%- endraw ".toList
    let source := "a\n\x7b%- raw %\x7d \x7b\x7b x \x7b% endrawing %\x7d\x7b%- endraw " ++
      "\x7b%- endraw -%\x7d\nb"
    Segment.Leads "a\n".toList ∧ (∀ cs, EndsRaw cs → ¬cs <:+: body) ∧
      ∃ template, (compile Environment.standard source).result = .ok template ∧
        (template.output []).result =
          .ok "a \x7b\x7b x \x7b% endrawing %\x7d\x7b%- endrawb" := by
  intro body source
  have hleads : Segment.Leads "a\n".toList := ⟨by decide +kernel, by decide +kernel, by decide⟩
  have hbody : ∀ cs, EndsRaw cs → ¬cs <:+: body :=
    cutRaw?_eq_none_iff_endsRaw.mp (by decide +kernel)
  have hafter : ¬opener true <:+: "\nb".toList ∧ ¬opener false <:+: "\nb".toList := by
    decide +kernel
  rcases output_raw Environment.standard ⟨true, false⟩ ⟨true, true⟩ hleads hbody hafter with
    ⟨template, hcompile, houtput⟩
  exact ⟨hleads, hbody, template, hcompile, (houtput []).trans (by decide +kernel)⟩

end Template

end Liquid
