import Liquid.Proofs.Arrangement.Soundness
import Liquid.Proofs.Tag.Fault
import Liquid.Proofs.Token.Standing

/-!
# Tokens that are Refused

Why a list of tokens cannot be arranged: some token is refused at the point that
those before it lead to, or a block is still open behind the last one. The ways
to refuse a token are the counterpart of the ways to read one.

A tag whose arguments are refused is told together with what belongs to it: the
tokens before it, its sections, and its end. All of these have been read when
the tag is refused, and the fault is placed at the end, unless the tag itself
has placed it. A tag that stands alone is its own end.

Every fault of arranging is placed at an output or a tag that was read. Most are
placed at the token at hand. The others are about a block: they say where the
block was opened, and that was at a tag too, for an opening is among the tokens
that lead into its block. A text is never at fault.

## Main definitions

* `Arrangement.Refuses`: What is said of a token that is refused.
* `Arrangement.Tagged`: A tag among some tokens, as the block that it is.
* `Arrangement.OpenedAt`: The open blocks were opened at known places.
* `Arrangement.FaultsAt`: A result whose fault is at a known place.

## Theorems

* `Arrangement.read_eq_error_iff`: A token that cannot be read is refused.
* `Arrangement.ofTokens_eq_error_iff`: Why tokens cannot be arranged.
* `Arrangement.ofTokens_of_tagged`: Tokens with a tag that is refused.
* `Arrangement.openedAt_of_leads`: Where blocks were opened.
* `Arrangement.exists_place_of_refuses`: Where a token is refused.
* `Arrangement.faultsAt_ofTokens`: The places of all faults.
-/

namespace Liquid

namespace Arrangement

/-- What is said of a token that is refused at a point. -/
inductive Refuses (tags : Table Tag) : Arrangement → Token → SyntaxFault → Prop
  | emptyOutput {state : Arrangement} {offset : Nat} {place : Place} :
      Refuses tags state ⟨.output "", offset, place⟩ ⟨.emptyOutput, some place⟩
  | output {state : Arrangement} {source : String} {reason : Expr.Fault} {offset : Nat}
      {place : Place} :
      source ≠ "" → Expr.parse source = .error reason →
      Refuses tags state ⟨.output source, offset, place⟩ ⟨.expression reason source, some place⟩
  | nameless {state : Arrangement} {args : String} {offset : Nat} {place : Place} :
      Refuses tags state ⟨.tag "" args, offset, place⟩ ⟨.namelessTag, some place⟩
  | unknown {state : Arrangement} {name args : String} {offset : Nat} {place : Place} :
      name ≠ "" → tags.get? name = none →
      (∀ block ∈ state.blocks.head?,
        block.tag.endName ≠ some name ∧ name ∉ block.tag.branchNames) →
      Refuses tags state ⟨.tag name args, offset, place⟩
        ⟨unknown (tags.map Prod.snd) name, some place⟩
  | afterElse {block : OpenBlock} {blocks : List OpenBlock} {nodes : List Node}
      {name args : String} {offset : Nat} {place : Place} :
      block.name = "else" → name ∈ block.tag.branchNames →
      Refuses tags ⟨block :: blocks, nodes⟩ ⟨.tag name args, offset, place⟩
        ⟨.branchAfterElse name block.tag.name, some place⟩
  | alone {state : Arrangement} {tag : Tag} {name args : String} {offset : Nat} {place : Place}
      {wrong : SyntaxFault} :
      tags.get? name = some tag → tag.endName = none →
      tag.compile state.inLoop ⟨name, args, offset, place, [], []⟩ = .error wrong →
      Refuses tags state ⟨.tag name args, offset, place⟩ (wrong.placedAt place)
  | closes {block : OpenBlock} {blocks : List OpenBlock} {nodes : List Node}
      {name args : String} {offset : Nat} {place : Place} {wrong : SyntaxFault} :
      block.tag.endName = some name →
      block.tag.compile (blocks.any OpenBlock.isLoopBody) block.close = .error wrong →
      Refuses tags ⟨block :: blocks, nodes⟩ ⟨.tag name args, offset, place⟩ (wrong.placedAt place)

section Refusing

variable {tags : Table Tag}

/-- A tag of its own. -/
theorem refuses_of_openTag {state : Arrangement} {name args : String} {offset : Nat}
    {place : Place} {fault : SyntaxFault} (hown : IsOwn state.innermost name)
    (h : read tags state ⟨.tag name args, offset, place⟩ = .error fault) :
    Refuses tags state ⟨.tag name args, offset, place⟩ fault := by
  -- A name that no block around gives a meaning is either unknown or that of a tag.
  cases hget : tags.get? name with
  | none =>
      rw [read_own hown] at h
      unfold openTag at h
      rw [hget] at h
      cases h
      exact .unknown hown.1 hget fun block hblock =>
        hown.2 block.tag (Option.mem_map_of_mem OpenBlock.tag hblock)
  | some tag =>
      cases hend : tag.endName with
      | some close =>
          rw [read_open hown hget hend] at h
          cases h
      | none =>
          rw [read_alone hown hget hend] at h
          rcases mapError_eq_error_iff.mp (map_eq_error_iff.mp h) with ⟨wrong, hwrong, rfl⟩
          exact .alone hget hend hwrong

/-- A token that cannot be read is refused in one of the ways. -/
theorem refuses_of_read {state : Arrangement} {token : Token} {fault : SyntaxFault}
    (h : read tags state token = .error fault) : Refuses tags state token fault := by
  rcases token with ⟨content, offset, place⟩
  cases content with
  | text text => cases h
  | output source =>
      unfold read at h
      by_cases hempty : source = ""
      · subst hempty
        cases h
        exact .emptyOutput
      · have hnonempty : source.isEmpty = false := by simpa using hempty
        simp only [hnonempty, Bool.false_eq_true, if_false] at h
        rcases mapError_eq_error_iff.mp (map_eq_error_iff.mp h) with ⟨unplaced, hunplaced, rfl⟩
        rcases mapError_eq_error_iff.mp hunplaced with ⟨reason, hreason, rfl⟩
        exact .output hempty hreason
  | tag name args =>
      -- A name ends the innermost block, divides it, or is looked up.
      rcases tag_cases state name with
        rfl | hown | ⟨block, blocks, nodes, rfl, hends | hdivides⟩
      · cases h
        exact .nameless
      · exact refuses_of_openTag hown h
      · rw [read_end hends] at h
        rcases mapError_eq_error_iff.mp (map_eq_error_iff.mp h) with ⟨wrong, hwrong, rfl⟩
        exact .closes hends.2 hwrong
      · rw [read_branch hdivides] at h
        by_cases helse : block.name = "else"
        · rw [if_pos helse] at h
          cases h
          exact .afterElse helse hdivides.2.2
        · rw [if_neg helse] at h
          cases h

/-- Whatever a token is refused for, it is. -/
theorem read_of_refuses (hu : Unambiguous tags) {state : Arrangement} {token : Token}
    {fault : SyntaxFault} (hk : Known tags state.blocks) (h : Refuses tags state token fault) :
    read tags state token = .error fault := by
  cases h with
  | emptyOutput => rfl
  | @output _ source reason offset place hsource hreason =>
      have hnonempty : source.isEmpty = false := by simpa using hsource
      unfold read
      simp only [hnonempty, hreason, Bool.false_eq_true, if_false]
      rfl
  | nameless => rfl
  | @unknown _ name args offset place hname hget hother =>
      -- The innermost block gives the name no meaning, or the fault would be another one.
      have hown : IsOwn state.innermost name := by
        refine ⟨hname, fun tag htag => ?_⟩
        rcases Option.map_eq_some_iff.mp htag with ⟨block, hblock, rfl⟩
        exact hother block hblock
      rw [read_own hown]
      unfold openTag
      rw [hget]
  | @afterElse block _ _ _ _ _ _ helse hbranch =>
      rcases hk block List.mem_cons_self with ⟨key, hkey⟩
      rw [read_branch (divides_of_get? hu hkey hbranch), if_pos helse]
  | alone hget hend hwrong =>
      rw [read_alone (isOwn_of_get? hu (known_innermost hk) hget) hget hend, hwrong]
      rfl
  | @closes block _ _ _ _ _ _ _ hend hwrong =>
      rcases hk block List.mem_cons_self with ⟨key, hkey⟩
      rw [read_end (ends_of_get? hu hkey hend), hwrong]
      rfl

/-- A token cannot be read if it is refused, and for no other reason. -/
theorem read_eq_error_iff (hu : Unambiguous tags) {state : Arrangement} {token : Token}
    {fault : SyntaxFault} (hk : Known tags state.blocks) :
    read tags state token = .error fault ↔ Refuses tags state token fault :=
  ⟨refuses_of_read, read_of_refuses hu hk⟩

/-- Tokens cannot be arranged if one of them is refused where those before it lead, or if they lead
into a block. -/
theorem ofTokens_eq_error_iff (hu : Unambiguous tags) {tokens : List Token} {fault : SyntaxFault} :
    Node.ofTokens tags tokens = .error fault ↔
      (∃ before token after state, tokens = before ++ token :: after ∧ Leads tags before state ∧
        Refuses tags state token fault) ∨
      ∃ block blocks nodes, Leads tags tokens ⟨block :: blocks, nodes⟩ ∧
        fault = ⟨.neverClosed block.tag.name (block.tag.endName.getD ""), some block.place⟩ := by
  unfold Node.ofTokens
  constructor
  · intro h
    -- Either a token is refused, or all are read and a block is left open.
    rcases bind_eq_error_iff.mp h with h | ⟨state, hstate, h⟩
    · rcases foldlM_eq_error_iff.mp h with ⟨before, token, after, state, rfl, hstate, hread⟩
      have hbefore := (foldlM_eq_ok_iff hu).mp hstate
      have hrefused := (read_eq_error_iff hu (known_of_leads hbefore)).mp hread
      exact .inl ⟨before, token, after, state, rfl, hbefore, hrefused⟩
    · rcases bind_eq_error_iff.mp h with hfinish | ⟨nodes, _, h⟩
      · rcases state with ⟨_ | ⟨block, blocks⟩, nodes⟩
        · cases hfinish
        · cases hfinish
          exact .inr ⟨block, blocks, nodes, (foldlM_eq_ok_iff hu).mp hstate, rfl⟩
      · cases h
  · rintro (⟨before, token, after, state, rfl, hbefore, hrefused⟩ |
      ⟨block, blocks, nodes, htokens, rfl⟩)
    · have hstate := (foldlM_eq_ok_iff hu).mpr hbefore
      have hread := (read_eq_error_iff hu (known_of_leads hbefore)).mpr hrefused
      exact bind_eq_error_iff.mpr (.inl (foldlM_eq_error_iff.mpr
        ⟨before, token, after, state, rfl, hstate, hread⟩))
    · rw [(foldlM_eq_ok_iff hu).mpr htokens]
      rfl

/-- Whether a tag stands among some tokens as the block that is given, between the token that opens
it and the one that ends it. A tag that stands alone is both of them. -/
inductive Tagged (tags : Table Tag) : List Token → Tag → Bool → Block → Token → Token → Prop
  | alone {before after : List Token} {state : Arrangement} {tag : Tag} {name args : String}
      {offset : Nat} {place : Place} :
      Leads tags before state → tags.get? name = some tag → tag.endName = none →
      Tagged tags (before ++ ⟨.tag name args, offset, place⟩ :: after) tag state.inLoop
        ⟨name, args, offset, place, [], []⟩ ⟨.tag name args, offset, place⟩
        ⟨.tag name args, offset, place⟩
  | block {before inner after : List Token} {state : Arrangement} {tag : Tag}
      {name args close closeArgs : String} {offset closeOffset : Nat} {place closePlace : Place}
      {sections : List Section} :
      Leads tags before state → tags.get? name = some tag → tag.endName = some close →
      Parts tags state.inLoop tag tag.name args offset place inner sections →
      Tagged tags
        (before ++ ⟨.tag name args, offset, place⟩ ::
          (inner ++ ⟨.tag close closeArgs, closeOffset, closePlace⟩ :: after))
        tag state.inLoop ⟨tag.name, args, offset, place, sections, inner⟩
        ⟨.tag name args, offset, place⟩ ⟨.tag close closeArgs, closeOffset, closePlace⟩

/-- Tokens with a tag that is refused cannot be arranged. The fault is placed at the token that ends
the tag, unless it has a place. -/
theorem ofTokens_of_tagged (hu : Unambiguous tags) {tokens : List Token} {tag : Tag}
    {inLoop : Bool} {block : Block} {opening closing : Token} {wrong : SyntaxFault}
    (h : Tagged tags tokens tag inLoop block opening closing)
    (hwrong : tag.compile inLoop block = .error wrong) :
    Node.ofTokens tags tokens = .error (wrong.placedAt closing.place) := by
  rw [ofTokens_eq_error_iff hu]
  left
  cases h with
  | @alone before after state _ name args offset place hbefore hget hend =>
      exact ⟨before, _, after, state, rfl, hbefore, .alone hget hend hwrong⟩
  | @block before inner after state _ name args close closeArgs offset closeOffset place closePlace
      sections hbefore hget hend hparts =>
      -- All that is inside of the block is read, and then its tag compiles just that block.
      rcases exists_leads_inside hbefore hget hend hparts with
        ⟨last, rfl, hclose, hinside⟩
      rw [← hclose] at hwrong
      refine ⟨_, ⟨.tag close closeArgs, closeOffset, closePlace⟩, after, _, by simp, hinside,
        .closes hend ?_⟩
      rw [any_isLoopBody_noted]
      exact hwrong

/-- What is said of a name that is not known is about where it stands. -/
theorem isOrder_unknown (all : List Tag) (name : String) : (unknown all name).isOrder = true := by
  unfold unknown
  dsimp only
  -- The name may be that of a branch or of an end of some other tag.
  generalize hbelongs : all.findSome? _ = belongs
  cases belongs with
  | none => rfl
  | some cause =>
      rcases List.exists_of_findSome?_eq_some hbelongs with ⟨tag, _, htag⟩
      split at htag
      · cases htag
        rfl
      · split at htag
        · cases htag
          rfl
        · cases htag

/-- A fault that is about arguments is that of an output, or a tag is refused for it. -/
theorem tagged_of_ofTokens (hu : Unambiguous tags) {tokens : List Token} {fault : SyntaxFault}
    (h : Node.ofTokens tags tokens = .error fault) (horder : fault.cause.isOrder = false) :
    (∃ token ∈ tokens, ∃ source reason, token.content = .output source ∧
      Expr.parse source = .error reason ∧ fault = ⟨.expression reason source, some token.place⟩) ∨
    ∃ tag inLoop block opening closing wrong, Tagged tags tokens tag inLoop block opening closing ∧
      tag.compile inLoop block = .error wrong ∧ fault = wrong.placedAt closing.place := by
  rcases (ofTokens_eq_error_iff hu).mp h with
    ⟨before, token, after, state, rfl, hbefore, hrefused⟩ | ⟨block, blocks, nodes, _, rfl⟩
  -- Of the refusals, those for the order of the tokens are left out by the hypothesis.
  · cases hrefused with
    | emptyOutput => cases horder
    | nameless => cases horder
    | unknown _ _ _ =>
        rw [isOrder_unknown] at horder
        cases horder
    | afterElse _ _ => cases horder
    | output _ hreason =>
        exact .inl ⟨_, List.mem_append_right _ List.mem_cons_self, _, _, rfl, hreason, rfl⟩
    | alone hget hend hwrong =>
        exact .inr ⟨_, _, _, _, _, _, .alone hbefore hget hend, hwrong, rfl⟩
    | @closes block blocks nodes name args offset place wrong hend hwrong =>
        right
        cases hbefore with
        | @inside outer state _ key close houter hget hclose hparts =>
            rw [any_isLoopBody_noted] at hwrong
            refine ⟨_, _, _, ⟨.tag key block.args, block.offset, block.place⟩,
              ⟨.tag name args, offset, place⟩, wrong, ?_, hwrong, rfl⟩
            rw [List.append_assoc, List.cons_append]
            exact .block houter hget hend hparts
  · cases horder

section Tagged

variable {tokens : List Token} {tag : Tag} {inLoop : Bool} {block : Block} {opening closing : Token}

/-- What opens a block is a tag of the source, and the block is placed there. -/
theorem Tagged.opening_mem (h : Tagged tags tokens tag inLoop block opening closing) :
    opening ∈ tokens ∧ opening.content.isOutput? = some false ∧ opening.place = block.place := by
  cases h with
  | alone _ _ _ => exact ⟨List.mem_append_right _ List.mem_cons_self, rfl, rfl⟩
  | block _ _ _ _ => exact ⟨List.mem_append_right _ List.mem_cons_self, rfl, rfl⟩

/-- What closes a block is a tag of the source. -/
theorem Tagged.closing_mem (h : Tagged tags tokens tag inLoop block opening closing) :
    closing ∈ tokens ∧ closing.content.isOutput? = some false := by
  cases h with
  | alone _ _ _ => exact ⟨List.mem_append_right _ List.mem_cons_self, rfl⟩
  | block _ _ _ _ => exact ⟨by simp, rfl⟩

/-- A tag that stands alone ends where it starts. -/
theorem Tagged.eq_of_endName (h : Tagged tags tokens tag inLoop block opening closing)
    (hend : tag.endName = none) : closing = opening := by
  cases h with
  | alone _ _ _ => rfl
  | block _ _ hclose _ =>
      rw [hend] at hclose
      cases hclose

/-- The tag of a block is one of the table. -/
theorem Tagged.get? (h : Tagged tags tokens tag inLoop block opening closing) :
    ∃ name, tags.get? name = some tag := by
  cases h with
  | alone _ hget _ => exact ⟨_, hget⟩
  | block _ hget _ _ => exact ⟨_, hget⟩

end Tagged

end Refusing

/-- Whether the open blocks are those of tags of the language, and were opened at such places. -/
def OpenedAt (places : Place → Prop) (state : Arrangement) : Prop :=
  ∀ block ∈ state.blocks, block.tag ∈ Tag.standard ∧ places block.place

/-- Whether a fault, if there is one, is placed at such a place. -/
def FaultsAt (places : Place → Prop) {α : Type} (result : Except SyntaxFault α) : Prop :=
  ∀ fault, result = .error fault → ∃ place, fault.place = some place ∧ places place

/-- The tags of the language, as arranging looks them up. -/
abbrev standardTags : Table Tag := Environment.standard.tags

section Places

variable {places : Place → Prop}

/-- What is placed at a token, where a block was opened at a known place as well. -/
theorem exists_place_placedAt {block : Block} {place : Place} {wrong : SyntaxFault}
    (h : wrong.place = none ∨ wrong.place = some block.place) (hblock : places block.place)
    (hplace : places place) :
    ∃ known, (wrong.placedAt place).place = some known ∧ places known := by
  rcases h with hnone | hsome
  · exact ⟨place, by simp [SyntaxFault.placedAt, hnone], hplace⟩
  · exact ⟨block.place, by simp [SyntaxFault.placedAt, hsome], hblock⟩

/-- The blocks that are open at a point were opened at tags before it. -/
theorem openedAt_of_leads {tokens : List Token} {state : Arrangement}
    (h : Leads standardTags tokens state)
    (htokens : ∀ token ∈ tokens, token.content.isOutput? ≠ none → places token.place) :
    OpenedAt places state := by
  induction h with
  | outside _ => exact fun block hblock => nomatch hblock
  | inside _ hget _ _ ih =>
      intro block hblock
      rcases List.mem_cons.mp hblock with rfl | hblock
      · have hopening := htokens _ (List.mem_append_right _ List.mem_cons_self) nofun
        exact ⟨(standard_get? hget).1, hopening⟩
      · rcases List.mem_map.mp hblock with ⟨outer, houter, rfl⟩
        exact ih (fun token hmem => htokens token (List.mem_append_left _ hmem)) outer houter

/-- A token that is refused is an output or a tag, and the fault is placed there or where a block
was opened. -/
theorem exists_place_of_refuses {state : Arrangement} {token : Token} {fault : SyntaxFault}
    (h : Refuses standardTags state token fault) (hopened : OpenedAt places state)
    (htoken : token.content.isOutput? ≠ none → places token.place) :
    ∃ place, fault.place = some place ∧ places place := by
  -- A block is placed where it was opened, and all else is placed at the token itself.
  cases h with
  | emptyOutput => exact ⟨_, rfl, htoken nofun⟩
  | output _ _ => exact ⟨_, rfl, htoken nofun⟩
  | nameless => exact ⟨_, rfl, htoken nofun⟩
  | unknown _ _ _ => exact ⟨_, rfl, htoken nofun⟩
  | afterElse _ _ => exact ⟨_, rfl, htoken nofun⟩
  | alone hget _ hwrong =>
      have hplaces := Tag.standard_places _ (standard_get? hget).1 _ _ hwrong
      exact exists_place_placedAt hplaces (htoken nofun) (htoken nofun)
  | closes _ hwrong =>
      rcases hopened _ List.mem_cons_self with ⟨hmem, hblock⟩
      exact exists_place_placedAt (Tag.standard_places _ hmem _ _ hwrong) hblock (htoken nofun)

/-- The fault of a list of tokens is placed at one that is an output or a tag. -/
theorem faultsAt_ofTokens {tokens : List Token}
    (htokens : ∀ token ∈ tokens, token.content.isOutput? ≠ none → places token.place) :
    FaultsAt places (Node.ofTokens standardTags tokens) := by
  intro fault h
  rcases (ofTokens_eq_error_iff standard_unambiguous).mp h with
    ⟨before, token, after, state, rfl, hbefore, hrefused⟩ | ⟨block, blocks, nodes, hopen, rfl⟩
  · refine exists_place_of_refuses hrefused (openedAt_of_leads hbefore fun other hother => ?_)
      (htokens token (List.mem_append_right _ List.mem_cons_self))
    exact htokens other (List.mem_append_left _ hother)
  · -- A block that is never closed is at fault where it was opened.
    exact ⟨_, rfl, (openedAt_of_leads hopen htokens block List.mem_cons_self).2⟩

end Places

end Arrangement

end Liquid
