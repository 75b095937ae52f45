import Liquid.Proofs.Arrangement.Completeness
import Mathlib.Data.List.Induction

/-!
# Arranged Tokens are Derived

The tokens that stand before a point are described by the blocks that are open
there: those before the outermost block, then its opening and its sections so
far, and so on to the innermost block. The grammar has all of these as whole
levels and whole sections, for what stands at a point has not begun to be read.

So the induction is on the tokens that have been read, and a token goes behind
what led to it: a node behind the rest of a section, a branch tag behind a
section, an opening behind a whole level. With the end of a block, all that led
into it becomes one node of the block around it. Behind the last token no block
is open, and what led there is a level.

This holds for any table of tags. For one in which no tag is called like an end
or a branch, the plain grammar says the same.

## Main definitions

* `Arrangement.Stands`: Tokens that lead to an arrangement.
* `Arrangement.Leads`: The same in the plain grammar.

## Theorems

* `Arrangement.divided_append`: Sections whose last one goes on.
* `Arrangement.stands_of_whole`, `Arrangement.stands_of_reads`: A token behind
  what leads to it.
* `Arrangement.foldlM_eq_ok_iff_stands`, `Arrangement.foldlM_eq_ok_iff`: An
  arrangement is reached by the tokens that lead to it.
* `Arrangement.level_of_ofTokens`, `Arrangement.body_of_ofTokens`: Tokens that
  become nodes are derived.
* `Arrangement.ofTokens_eq_ok_iff`: The tokens that become nodes are those that
  are derived.
-/

namespace Liquid

namespace Arrangement

/-- Tokens that lead to an arrangement. In an open block they are those before it, its opening, and
those of its sections, which all open blocks around it have noted too. -/
inductive Stands (tags : Table Tag) : List Token → Arrangement → Prop
  | outside {tokens : List Token} {nodes : List Node} :
      Level tags none false tokens nodes → Stands tags tokens ⟨[], nodes.reverse⟩
  | inside {before : List Token} {state : Arrangement} {block : OpenBlock} {name close : String} :
      Stands tags before state → IsOwn state.innermost name →
      tags.get? name = some block.tag → block.tag.endName = some close →
      Divided tags state.inLoop block.tag block.tag.name block.args block.offset block.place
        block.tokens.reverse block.sections.reverse →
      Stands tags
        (before ++ ⟨.tag name block.args, block.offset, block.place⟩ :: block.tokens.reverse)
        ⟨block :: state.blocks.map (OpenBlock.noted
          (⟨.tag name block.args, block.offset, block.place⟩ :: block.tokens.reverse)),
          state.nodes⟩

/-- Tokens that lead to an arrangement, in the plain grammar. -/
inductive Leads (tags : Table Tag) : List Token → Arrangement → Prop
  | outside {tokens : List Token} {nodes : List Node} :
      Body tags false tokens nodes → Leads tags tokens ⟨[], nodes.reverse⟩
  | inside {before : List Token} {state : Arrangement} {block : OpenBlock} {name close : String} :
      Leads tags before state → tags.get? name = some block.tag → block.tag.endName = some close →
      Parts tags state.inLoop block.tag block.tag.name block.args block.offset block.place
        block.tokens.reverse block.sections.reverse →
      Leads tags
        (before ++ ⟨.tag name block.args, block.offset, block.place⟩ :: block.tokens.reverse)
        ⟨block :: state.blocks.map (OpenBlock.noted
          (⟨.tag name block.args, block.offset, block.place⟩ :: block.tokens.reverse)),
          state.nodes⟩

section Leading

variable {tags : Table Tag}

/-- A level goes before the first section. -/
theorem divided_of_level {inLoop : Bool} {tag : Tag} {name args : String} {offset : Nat}
    {place : Place} {used tokens : List Token} {nodes : List Node} {first : Section}
    {more : List Section}
    (hlevel : Level tags (some tag) (tag.isLoop && name == tag.name || inLoop) used nodes)
    (h : Divided tags inLoop tag name args offset place tokens (first :: more)) :
    Divided tags inLoop tag name args offset place (used ++ tokens)
      ({ first with body := nodes ++ first.body } :: more) := by
  cases h with
  | last hrest => exact .last (level_append hlevel hrest)
  | branch hrest hname hnext hparts =>
      rw [← List.append_assoc]
      exact .branch (level_append hlevel hrest) hname hnext hparts

theorem divided_ne_nil {inLoop : Bool} {tag : Tag} {name args : String} {offset : Nat}
    {place : Place} {tokens : List Token} {sections : List Section}
    (h : Divided tags inLoop tag name args offset place tokens sections) : sections ≠ [] := by
  cases h <;> exact List.cons_ne_nil _ _

/-- Sections whose last one goes on as the first of others. -/
theorem divided_append {inLoop : Bool} {tag : Tag} {name args : String} {offset : Nat}
    {place : Place} {tokens used : List Token} {sections closed more : List Section}
    {last first : Section}
    (h : Divided tags inLoop tag name args offset place tokens sections)
    (hsections : sections = closed ++ [last])
    (hmore : Divided tags inLoop tag last.name last.args last.offset last.place used
      (first :: more)) :
    Divided tags inLoop tag name args offset place (tokens ++ used)
      (closed ++ { first with body := last.body ++ first.body } :: more) := by
  -- Only the last section can go on, so the sections before it are passed over.
  match h with
  | .last hlevel =>
      cases closed with
      | nil =>
          cases hsections
          exact divided_of_level hlevel hmore
      | cons part closed => simp at hsections
  | .branch hlevel hname hnext parts =>
      cases closed with
      | nil => exact absurd (List.cons.inj hsections).2 (divided_ne_nil parts)
      | cons part closed =>
          rcases List.cons.inj hsections with ⟨hpart, hrest⟩
          rw [List.append_assoc, List.cons_append, List.cons_append, ← hpart]
          exact .branch hlevel hname hnext (divided_append parts hrest hmore)

/-- The open section stands behind the closed ones. -/
theorem sections_reverse (block : OpenBlock) :
    block.sections.reverse = block.closed.reverse ++
      [⟨block.name, block.sectionArgs, block.sectionOffset, block.sectionPlace,
        block.body.reverse⟩] := by
  simp [OpenBlock.sections]

/-- A block is in a loop if it is the body of one, or if it was opened in one. -/
theorem inLoop_inside (block : OpenBlock) (state : Arrangement) (tokens : List Token) :
    inLoop ⟨block :: state.blocks.map (OpenBlock.noted tokens), state.nodes⟩ =
      (block.isLoopBody || state.inLoop) := by
  simp only [inLoop, List.any_cons, any_isLoopBody_noted]

/-- A block whose tokens and sections are those of a derivation. -/
theorem stands_inside (block : OpenBlock) {before inner : List Token} {state : Arrangement}
    {name close args : String} {offset : Nat} {place : Place} {sections : List Section}
    (h : Stands tags before state) (hown : IsOwn state.innermost name)
    (hget : tags.get? name = some block.tag) (hend : block.tag.endName = some close)
    (hparts : Divided tags state.inLoop block.tag block.tag.name args offset place inner sections)
    (hclose : block.close = ⟨block.tag.name, args, offset, place, sections, inner⟩) :
    Stands tags (before ++ ⟨.tag name args, offset, place⟩ :: inner)
      ⟨block :: state.blocks.map (OpenBlock.noted (⟨.tag name args, offset, place⟩ :: inner)),
        state.nodes⟩ := by
  cases hclose
  exact .inside h hown hget hend hparts

/-- A node goes behind what leads to it. -/
theorem stands_of_whole {before used : List Token} {state : Arrangement} {node : Node}
    (h : Stands tags before state) (hwhole : Whole tags state.innermost state.inLoop used node) :
    Stands tags (before ++ used) (state.grown used [node]) := by
  cases h with
  | @outside _ nodes hlevel =>
      have hstate : grown ⟨[], nodes.reverse⟩ used [node] = ⟨[], (nodes ++ [node]).reverse⟩ := by
        simp [grown]
      rw [hstate]
      exact .outside (level_append hlevel (level_of_whole hwhole))
  | @inside outer state block name close houter hown hget hend hparts =>
      -- The node is one more of the current section.
      rw [inLoop_inside] at hwhole
      have hrest : Divided tags state.inLoop block.tag block.name block.sectionArgs
          block.sectionOffset block.sectionPlace used
          [⟨block.name, block.sectionArgs, block.sectionOffset, block.sectionPlace, [node]⟩] :=
        .last (level_of_whole hwhole)
      have hall := divided_append hparts (sections_reverse block) hrest
      have hinside := stands_inside ((block.noted used).filled [node]) houter hown hget hend
        hall (by simp [OpenBlock.close, OpenBlock.sections, OpenBlock.noted, OpenBlock.filled])
      simpa [grown, OpenBlock.noted_noted] using hinside

/-- A token that is read goes behind what leads to it. -/
theorem stands_of_reads {before : List Token} {state next : Arrangement} {token : Token}
    (h : Stands tags before state) (hread : Reads tags state token next) :
    Stands tags (before ++ [token]) next := by
  cases hread with
  | whole hwhole => exact stands_of_whole h hwhole
  | opens hown hget hend => exact stands_inside _ h hown hget hend (.last .nil) rfl
  | @divides block blocks nodes name args offset place helse hdivides =>
      cases h with
      | @inside outer state _ key close houter hown hget hend hparts =>
          -- The section that ends here gets no more nodes, and the new one follows it.
          have hrest : Divided tags state.inLoop block.tag block.name block.sectionArgs
              block.sectionOffset block.sectionPlace [⟨.tag name args, offset, place⟩] _ :=
            .branch .nil helse hdivides (.last .nil)
          have hall := divided_append hparts (sections_reverse block) hrest
          have hinside := stands_inside
            ((block.noted [⟨.tag name args, offset, place⟩]).branch name args offset place)
            houter hown hget hend hall
            (by simp [OpenBlock.close, OpenBlock.sections, OpenBlock.noted, OpenBlock.branch])
          simpa [OpenBlock.noted_noted] using hinside
  | @closes block blocks nodes name args offset place node hends hnode =>
      cases h with
      | @inside outer state _ key close houter hown hget hclose hparts =>
          -- The block with its end is all of a node of the block around it.
          rw [any_isLoopBody_noted] at hnode
          have hwhole : Whole tags state.innermost state.inLoop
              (⟨.tag key block.args, block.offset, block.place⟩ ::
                (block.tokens.reverse ++ [⟨.tag name args, offset, place⟩])) node :=
            .block hown hget hends hparts hnode
          have hgrown := stands_of_whole houter hwhole
          rw [← push_eq_grown] at hgrown
          simpa [OpenBlock.noted_noted] using hgrown

/-- Reading tokens leads where they do. -/
theorem stands_of_foldlM {tokens : List Token} {state : Arrangement}
    (h : tokens.foldlM (read tags) start = .ok state) : Stands tags tokens state := by
  -- From the back, for the token that is read last stands behind all that led to it.
  induction tokens using List.reverseRecOn generalizing state with
  | nil =>
      cases h
      exact .outside .nil
  | append_singleton tokens token ih =>
      rw [List.foldlM_append] at h
      rcases bind_eq_ok_iff.mp h with ⟨between, hbetween, h⟩
      rw [List.foldlM_cons] at h
      rcases bind_eq_ok_iff.mp h with ⟨next, hread, h⟩
      cases h
      exact stands_of_reads (ih hbetween) (reads_of_read hread)

/-- A block is all that it is compiled from, and its tag. -/
theorem eq_of_close_eq {block other : OpenBlock} (htag : block.tag = other.tag)
    (hclose : block.close = other.close) : block = other := by
  rcases block with ⟨tag, args, offset, place, closed, name, sectionArgs, sectionOffset,
    sectionPlace, body, tokens⟩
  rcases other with ⟨tag', args', offset', place', closed', name', sectionArgs', sectionOffset',
    sectionPlace', body', tokens'⟩
  simp only [OpenBlock.close, OpenBlock.sections, Block.mk.injEq, List.reverse_inj,
    List.cons.injEq, Section.mk.injEq] at hclose
  simp_all

/-- What leads to an arrangement is read, and leads there. -/
theorem foldlM_of_stands {tokens : List Token} {state : Arrangement}
    (h : Stands tags tokens state) : tokens.foldlM (read tags) start = .ok state := by
  induction h with
  | @outside tokens nodes hlevel =>
      rw [foldlM_level hlevel start rfl rfl]
      simp [grown, start]
  | @inside before state block name close hbefore hown hget hend hparts ih =>
      have hopen : Reads tags state ⟨.tag name block.args, block.offset, block.place⟩ _ :=
        .opens hown hget hend
      rcases foldlM_divided hparts block.args block.offset block.place [] [] state.nodes
        (any_isLoopBody_noted _ _) with ⟨last, hinner, htag, hclose⟩
      -- The tag and what it would be handed determine an open block.
      have hlast : last = block := eq_of_close_eq htag hclose
      rw [foldlM_append_of_ok ih, foldlM_cons_of_ok (read_of_reads hopen)]
      refine hinner.trans ?_
      rw [hlast, List.map_map, OpenBlock.noted_noted]
      rfl

/-- An arrangement is reached by the tokens that lead to it. -/
theorem foldlM_eq_ok_iff_stands {tokens : List Token} {state : Arrangement} :
    tokens.foldlM (read tags) start = .ok state ↔ Stands tags tokens state :=
  ⟨stands_of_foldlM, foldlM_of_stands⟩

/-- What is accepted is one level, outside of all blocks. -/
theorem level_of_ofTokens {tokens : List Token} {nodes : List Node} {remarks : List Remark}
    (h : Node.ofTokens tags tokens = .ok (nodes, remarks)) :
    Level tags none false tokens nodes := by
  unfold Node.ofTokens at h
  rcases bind_eq_ok_iff.mp h with ⟨last, hfold, h⟩
  rcases bind_eq_ok_iff.mp h with ⟨result, hlast, h⟩
  cases h
  cases stands_of_foldlM hfold with
  | outside hlevel =>
      rw [← Except.ok.inj hlast, List.reverse_reverse]
      exact hlevel
  | inside _ _ _ _ _ => cases hlast

/-- A block whose tokens and sections are those of a derivation in the plain grammar. -/
theorem leads_inside (block : OpenBlock) {before inner : List Token} {state : Arrangement}
    {name close args : String} {offset : Nat} {place : Place} {sections : List Section}
    (h : Leads tags before state) (hget : tags.get? name = some block.tag)
    (hend : block.tag.endName = some close)
    (hparts : Parts tags state.inLoop block.tag block.tag.name args offset place inner sections)
    (hclose : block.close = ⟨block.tag.name, args, offset, place, sections, inner⟩) :
    Leads tags (before ++ ⟨.tag name args, offset, place⟩ :: inner)
      ⟨block :: state.blocks.map (OpenBlock.noted (⟨.tag name args, offset, place⟩ :: inner)),
        state.nodes⟩ := by
  cases hclose
  exact .inside h hget hend hparts

/-- Sections that have been read are those of some block. -/
theorem exists_leads_inside {before inner : List Token} {state : Arrangement} {tag : Tag}
    {name close args : String} {offset : Nat} {place : Place} {sections : List Section}
    (h : Leads tags before state) (hget : tags.get? name = some tag)
    (hend : tag.endName = some close)
    (hparts : Parts tags state.inLoop tag tag.name args offset place inner sections) :
    ∃ block : OpenBlock, block.tag = tag ∧
      block.close = ⟨tag.name, args, offset, place, sections, inner⟩ ∧
      Leads tags (before ++ ⟨.tag name args, offset, place⟩ :: inner)
        ⟨block :: state.blocks.map (OpenBlock.noted (⟨.tag name args, offset, place⟩ :: inner)),
          state.nodes⟩ := by
  -- A block has a section at least, and the last one is open.
  rcases List.eq_nil_or_concat sections with rfl | ⟨closed, last, rfl⟩
  · rcases parts_shape hparts with ⟨_, _, hsections, _⟩
    cases hsections
  · let block : OpenBlock := ⟨tag, args, offset, place, closed.reverse, last.name, last.args,
      last.offset, last.place, last.body.reverse, inner.reverse⟩
    have hclose : block.close = ⟨tag.name, args, offset, place, closed.concat last, inner⟩ := by
      simp [block, OpenBlock.close, OpenBlock.sections]
    exact ⟨block, rfl, hclose, leads_inside block h hget hend hparts hclose⟩

/-- What is read in a state is what the grammar says of it. -/
theorem leads_of_stands {tokens : List Token} {state : Arrangement}
    (h : Stands tags tokens state) : Leads tags tokens state := by
  induction h with
  | outside hlevel => exact .outside (body_of_level hlevel)
  | inside _ _ hget hend hparts ih => exact .inside ih hget hend (parts_of_divided hparts)

/-- Blocks are only opened by tags of the table. -/
theorem known_of_leads {tokens : List Token} {state : Arrangement} (h : Leads tags tokens state) :
    Known tags state.blocks := by
  induction h with
  | outside _ => exact fun _ hblock => nomatch hblock
  | inside _ hget _ _ ih => exact known_cons hget (known_noted ih _)

theorem stands_of_leads (hu : Unambiguous tags) {tokens : List Token} {state : Arrangement}
    (h : Leads tags tokens state) : Stands tags tokens state := by
  induction h with
  | outside hbody => exact .outside (level_of_body hu (by rintro _ ⟨⟩) hbody)
  | inside hbefore hget hend hparts ih =>
      exact .inside ih (isOwn_of_get? hu (known_innermost (known_of_leads hbefore)) hget) hget hend
        (divided_of_parts hu hget hparts)

/-- The tokens that lead to a state are those that the grammar gives for it. -/
theorem foldlM_eq_ok_iff (hu : Unambiguous tags) {tokens : List Token} {state : Arrangement} :
    tokens.foldlM (read tags) start = .ok state ↔ Leads tags tokens state :=
  foldlM_eq_ok_iff_stands.trans ⟨leads_of_stands, stands_of_leads hu⟩

/-- What is accepted is a body of the grammar. -/
theorem body_of_ofTokens {tokens : List Token} {nodes : List Node} {remarks : List Remark}
    (h : Node.ofTokens tags tokens = .ok (nodes, remarks)) : Body tags false tokens nodes :=
  body_of_level (level_of_ofTokens h)

/-- The tokens that become nodes are those of the grammar, with its nodes. -/
theorem ofTokens_eq_ok_iff (hu : Unambiguous tags) {tokens : List Token} {nodes : List Node} :
    (∃ remarks, Node.ofTokens tags tokens = .ok (nodes, remarks)) ↔
      Body tags false tokens nodes := by
  constructor
  · rintro ⟨remarks, h⟩
    exact body_of_ofTokens h
  · intro h
    exact ⟨_, ofTokens_of_body hu h⟩

end Leading

end Arrangement

end Liquid
