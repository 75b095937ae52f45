import Liquid.Proofs.Arrangement.Grammar
import Liquid.Proofs.Except

/-!
# One Token

What a token can do to the open blocks: add a node at the current point, open a
block, start the next section of the innermost one, or close it. Each of the
four also notes the token in all blocks that stay open.

What a token does is told in the terms of the grammar of levels, and for any
table of tags. A token that adds a node without closing a block is all of it.

## Main definitions

* `Arrangement.grown`: The arrangement with tokens read and nodes added.
* `Arrangement.innermost`: The tag of the innermost block.
* `Arrangement.Known`: All open blocks are those of tags in the table.
* `Arrangement.Reads`: What a token does to an arrangement.

## Theorems

* `Arrangement.tag_cases`: The parts of a tag in a block.
* `Arrangement.read_alone`, `Arrangement.read_open`, `Arrangement.read_end`,
  `Arrangement.read_branch`: What a tag does, by its part.
* `Arrangement.reads_of_read`, `Arrangement.read_of_reads`: A token that is read
  does one of the four, and whatever it can do is done.
-/

namespace Liquid

/-- The block with more tokens in it. -/
def OpenBlock.noted (tokens : List Token) (block : OpenBlock) : OpenBlock :=
  { block with tokens := tokens.reverse ++ block.tokens }

/-- The block with more nodes in its current section. -/
def OpenBlock.filled (nodes : List Node) (block : OpenBlock) : OpenBlock :=
  { block with body := nodes.reverse ++ block.body }

theorem OpenBlock.noted_noted (first second : List Token) :
    noted second ∘ noted first = noted (first ++ second) := by
  funext block
  simp only [Function.comp, noted, List.reverse_append, List.append_assoc]

namespace Arrangement

/-- The arrangement with tokens read and the nodes from them added at the current point. -/
def grown (state : Arrangement) (tokens : List Token) (nodes : List Node) : Arrangement :=
  match state.blocks with
  | [] => ⟨[], nodes.reverse ++ state.nodes⟩
  | block :: blocks =>
      ⟨(block.noted tokens).filled nodes :: blocks.map (OpenBlock.noted tokens), state.nodes⟩

/-- The tag of the innermost block, if a block is open. -/
def innermost (state : Arrangement) : Option Tag :=
  state.blocks.head?.map OpenBlock.tag

/-- Whether all blocks are those of tags in the table. -/
def Known (tags : Table Tag) (blocks : List OpenBlock) : Prop :=
  ∀ block ∈ blocks, ∃ name, tags.get? name = some block.tag

theorem grown_nil (state : Arrangement) : state.grown [] [] = state := by
  rcases state with ⟨_ | ⟨block, blocks⟩, nodes⟩
  · rfl
  · have hid : OpenBlock.noted [] = id := rfl
    simp only [grown, hid, List.map_id]
    rfl

/-- What is gained piece by piece is gained at once. -/
theorem grown_grown (state : Arrangement) (first second : List Token) (before after : List Node) :
    (state.grown first before).grown second after =
      state.grown (first ++ second) (before ++ after) := by
  rcases state with ⟨_ | ⟨block, blocks⟩, nodes⟩
  · simp only [grown, List.reverse_append, List.append_assoc]
  · simp only [grown, List.map_map, OpenBlock.noted_noted, OpenBlock.noted, OpenBlock.filled,
      List.reverse_append, List.append_assoc]

/-- Adding a node to blocks in which tokens have been noted. -/
theorem push_eq_grown (state : Arrangement) (tokens : List Token) (node : Node) :
    push ⟨state.blocks.map (OpenBlock.noted tokens), state.nodes⟩ node =
      state.grown tokens [node] := by
  rcases state with ⟨_ | ⟨block, blocks⟩, nodes⟩ <;> rfl

theorem note_push (state : Arrangement) (token : Token) (node : Node) :
    (state.note token).push node = state.grown [token] [node] :=
  push_eq_grown state [token] node

/-- Tokens that are noted do not change which block is the body of a loop. -/
theorem any_isLoopBody_noted (blocks : List OpenBlock) (tokens : List Token) :
    (blocks.map (OpenBlock.noted tokens)).any OpenBlock.isLoopBody =
      blocks.any OpenBlock.isLoopBody := by
  rw [List.any_map]
  rfl

theorem inLoop_note (state : Arrangement) (token : Token) :
    (state.note token).inLoop = state.inLoop :=
  any_isLoopBody_noted state.blocks [token]

/-- Growing opens no loop and closes none. -/
theorem inLoop_grown (state : Arrangement) (tokens : List Token) (nodes : List Node) :
    (state.grown tokens nodes).inLoop = state.inLoop := by
  rcases state with ⟨_ | ⟨block, blocks⟩, before⟩
  · rfl
  · simp only [grown, inLoop, List.any_cons, any_isLoopBody_noted]
    rfl

/-- Growing leaves the innermost block the one it is. -/
theorem innermost_grown (state : Arrangement) (tokens : List Token) (nodes : List Node) :
    (state.grown tokens nodes).innermost = state.innermost := by
  rcases state with ⟨_ | ⟨block, blocks⟩, before⟩ <;> rfl

/-- The tokens that a block holds have no part in whether its tag is known. -/
theorem known_noted {tags : Table Tag} {blocks : List OpenBlock} (h : Known tags blocks)
    (tokens : List Token) : Known tags (blocks.map (OpenBlock.noted tokens)) := by
  intro block hblock
  rcases List.mem_map.mp hblock with ⟨old, hold, rfl⟩
  exact h old hold

/-- The tag of the innermost block is one of the table. -/
theorem known_innermost {tags : Table Tag} {state : Arrangement} (h : Known tags state.blocks) :
    ∀ tag ∈ state.innermost, ∃ name, tags.get? name = some tag := by
  rcases state with ⟨_ | ⟨block, blocks⟩, nodes⟩
  · exact fun _ htag => nomatch htag
  · rintro _ ⟨⟩
    exact h block List.mem_cons_self

theorem known_cons {tags : Table Tag} {name : String} {block : OpenBlock}
    {blocks : List OpenBlock} (hget : tags.get? name = some block.tag) (h : Known tags blocks) :
    Known tags (block :: blocks) := by
  rintro _ (_ | ⟨_, hmem⟩)
  · exact ⟨name, hget⟩
  · exact h _ hmem

/-- What a token does to an arrangement. -/
inductive Reads (tags : Table Tag) : Arrangement → Token → Arrangement → Prop
  | whole {state : Arrangement} {token : Token} {node : Node} :
      Whole tags state.innermost state.inLoop [token] node →
      Reads tags state token (state.grown [token] [node])
  | opens {state : Arrangement} {tag : Tag} {name close args : String} {offset : Nat}
      {place : Place} :
      IsOwn state.innermost name → tags.get? name = some tag → tag.endName = some close →
      Reads tags state ⟨.tag name args, offset, place⟩
        ⟨OpenBlock.start tag args offset place ::
          state.blocks.map (OpenBlock.noted [⟨.tag name args, offset, place⟩]), state.nodes⟩
  | divides {block : OpenBlock} {blocks : List OpenBlock} {nodes : List Node}
      {name args : String} {offset : Nat} {place : Place} :
      block.name ≠ "else" → Divides block.tag name →
      Reads tags ⟨block :: blocks, nodes⟩ ⟨.tag name args, offset, place⟩
        ⟨(block.noted [⟨.tag name args, offset, place⟩]).branch name args offset place ::
          blocks.map (OpenBlock.noted [⟨.tag name args, offset, place⟩]), nodes⟩
  | closes {block : OpenBlock} {blocks : List OpenBlock} {nodes : List Node}
      {name args : String} {offset : Nat} {place : Place} {node : Node} :
      Ends block.tag name →
      block.tag.compile (blocks.any OpenBlock.isLoopBody) block.close = .ok node →
      Reads tags ⟨block :: blocks, nodes⟩ ⟨.tag name args, offset, place⟩
        (push ⟨blocks.map (OpenBlock.noted [⟨.tag name args, offset, place⟩]), nodes⟩ node)

section Reading

variable {tags : Table Tag}

theorem read_tag (state : Arrangement) (name args : String) (offset : Nat) (place : Place) :
    read tags state ⟨.tag name args, offset, place⟩ =
      readTag tags (state.note ⟨.tag name args, offset, place⟩) name args offset place :=
  rfl

/-- A tag without a name has no place in a template. Any other is one of its own, or else it ends or
divides the block that it stands in. -/
theorem tag_cases (state : Arrangement) (name : String) :
    name = "" ∨ IsOwn state.innermost name ∨
      ∃ block blocks nodes, state = ⟨block :: blocks, nodes⟩ ∧
        (Ends block.tag name ∨ Divides block.tag name) := by
  by_cases hname : name = ""
  · exact .inl hname
  right
  rcases state with ⟨_ | ⟨block, blocks⟩, nodes⟩
  · exact .inl ⟨hname, fun _ htag => nomatch htag⟩
  -- The name that ends a block is taken for that even if it is a branch as well.
  by_cases hend : block.tag.endName = some name
  · exact .inr ⟨block, blocks, nodes, rfl, .inl ⟨hname, hend⟩⟩
  by_cases hbranch : name ∈ block.tag.branchNames
  · exact .inr ⟨block, blocks, nodes, rfl, .inr ⟨hname, hend, hbranch⟩⟩
  · refine .inl ⟨hname, ?_⟩
    rintro _ ⟨⟩
    exact ⟨hend, hbranch⟩

/-- A tag of its own neither ends nor divides the innermost block. -/
theorem read_own {state : Arrangement} {name args : String} {offset : Nat} {place : Place}
    (hown : IsOwn state.innermost name) :
    read tags state ⟨.tag name args, offset, place⟩ =
      openTag tags (state.note ⟨.tag name args, offset, place⟩) name args offset place := by
  have hname : name.isEmpty = false := by simpa using hown.1
  rw [read_tag]
  unfold readTag
  rw [hname]
  rcases state with ⟨_ | ⟨block, blocks⟩, nodes⟩
  · rfl
  · rcases hown.2 block.tag rfl with ⟨hend, hbranch⟩
    simp [note, hend, hbranch]

/-- A tag that stands alone is compiled. -/
theorem read_alone {state : Arrangement} {name args : String} {tag : Tag} {offset : Nat}
    {place : Place} (hown : IsOwn state.innermost name) (hget : tags.get? name = some tag)
    (hend : tag.endName = none) :
    read tags state ⟨.tag name args, offset, place⟩ =
      (placedAt place (tag.compile state.inLoop ⟨name, args, offset, place, [], []⟩)).map
        (state.note ⟨.tag name args, offset, place⟩).push := by
  rw [read_own hown, ← inLoop_note state ⟨.tag name args, offset, place⟩]
  unfold openTag
  simp only [hget, hend, Option.isSome_none, Bool.false_eq_true, if_false]

/-- A tag with an end opens a block. -/
theorem read_open {state : Arrangement} {name args close : String} {tag : Tag} {offset : Nat}
    {place : Place} (hown : IsOwn state.innermost name) (hget : tags.get? name = some tag)
    (hend : tag.endName = some close) :
    read tags state ⟨.tag name args, offset, place⟩ =
      .ok ⟨OpenBlock.start tag args offset place ::
        state.blocks.map (OpenBlock.noted [⟨.tag name args, offset, place⟩]), state.nodes⟩ := by
  rw [read_own hown]
  unfold openTag
  simp only [hget, hend, Option.isSome_some, if_true]
  rfl

/-- A tag that ends the innermost block has that compiled. -/
theorem read_end {block : OpenBlock} {blocks : List OpenBlock} {nodes : List Node}
    {name args : String} {offset : Nat} {place : Place} (hends : Ends block.tag name) :
    read tags ⟨block :: blocks, nodes⟩ ⟨.tag name args, offset, place⟩ =
      (placedAt place (block.tag.compile (blocks.any OpenBlock.isLoopBody) block.close)).map
        (push ⟨blocks.map (OpenBlock.noted [⟨.tag name args, offset, place⟩]), nodes⟩) := by
  have hname : name.isEmpty = false := by simpa using hends.1
  rw [read_tag, ← any_isLoopBody_noted blocks [⟨.tag name args, offset, place⟩]]
  unfold readTag
  rw [hname, if_neg Bool.false_ne_true]
  simp only [note, List.map_cons]
  rw [if_pos (by simpa using hends.2)]
  rfl

/-- A branch tag of the innermost block divides that, unless nothing comes behind its section. -/
theorem read_branch {block : OpenBlock} {blocks : List OpenBlock} {nodes : List Node}
    {name args : String} {offset : Nat} {place : Place} (hdivides : Divides block.tag name) :
    read tags ⟨block :: blocks, nodes⟩ ⟨.tag name args, offset, place⟩ =
      if block.name = "else" then .error ⟨.branchAfterElse name block.tag.name, some place⟩
      else .ok ⟨(block.noted [⟨.tag name args, offset, place⟩]).branch name args offset place ::
        blocks.map (OpenBlock.noted [⟨.tag name args, offset, place⟩]), nodes⟩ := by
  rcases hdivides with ⟨hnonempty, hend, hbranch⟩
  have hname : name.isEmpty = false := by simpa using hnonempty
  rw [read_tag]
  unfold readTag
  rw [hname, if_neg Bool.false_ne_true]
  -- The name divides the block and does not end it, so only the test for an else is left.
  simp only [note, List.map_cons]
  rw [if_neg (by simpa using hend), if_pos (by simpa using hbranch)]
  simp only [beq_iff_eq]
  rfl

theorem parse_empty : Expr.parse "" = .error .empty := by
  cbv

/-- A token that is read adds a node, opens a block, divides one or closes one. -/
theorem reads_of_read {state next : Arrangement} {token : Token}
    (h : read tags state token = .ok next) : Reads tags state token next := by
  rcases token with ⟨content, offset, place⟩
  cases content with
  | text text =>
      rw [← Except.ok.inj h]
      rw [note_push]
      exact .whole .text
  | output source =>
      unfold read at h
      by_cases hempty : source.isEmpty
      · simp only [hempty, if_true] at h
        cases h
      · simp only [hempty, Bool.false_eq_true, if_false] at h
        rcases map_eq_ok_iff.mp h with ⟨expr, hexpr, rfl⟩
        rw [placedAt, readSource, mapError_eq_ok_iff, mapError_eq_ok_iff] at hexpr
        rw [note_push]
        exact .whole (.output hexpr)
  | tag name args =>
      -- The meaning of a tag depends on the innermost block first, and then on the table.
      rcases tag_cases state name with
        rfl | hown | ⟨block, blocks, nodes, rfl, hends | hdivides⟩
      · cases h
      · cases hget : tags.get? name with
        | none =>
            rw [read_own hown] at h
            unfold openTag at h
            rw [hget] at h
            cases h
        | some tag =>
            cases hend : tag.endName with
            | some close =>
                rw [read_open hown hget hend] at h
                rw [← Except.ok.inj h]
                exact .opens hown hget hend
            | none =>
                rw [read_alone hown hget hend] at h
                rcases map_eq_ok_iff.mp h with ⟨node, hnode, rfl⟩
                rw [placedAt, mapError_eq_ok_iff] at hnode
                rw [note_push]
                exact .whole (.alone hown hget hend hnode)
      · rw [read_end hends] at h
        rcases map_eq_ok_iff.mp h with ⟨node, hnode, rfl⟩
        rw [placedAt, mapError_eq_ok_iff] at hnode
        exact .closes hends hnode
      · rw [read_branch hdivides] at h
        by_cases helse : block.name = "else"
        · rw [if_pos helse] at h
          cases h
        · rw [if_neg helse] at h
          rw [← Except.ok.inj h]
          exact .divides helse hdivides

/-- What becomes a node of one token adds it. -/
theorem read_of_whole {state : Arrangement} {token : Token} {node : Node}
    (h : Whole tags state.innermost state.inLoop [token] node) :
    read tags state token = .ok (state.grown [token] [node]) := by
  rw [← note_push]
  -- The indices are variables, so that the rules can be told apart by how many tokens they use.
  generalize haround : state.innermost = around at h
  generalize hinLoop : state.inLoop = inLoop at h
  generalize htokens : [token] = tokens at h
  cases h with
  | text =>
      cases htokens
      rfl
  | @output _ _ source expr offset place hexpr =>
      cases htokens
      -- An empty output is refused before it is parsed, and would not parse.
      have hnonempty : source.isEmpty = false := by
        by_cases hempty : source = ""
        · rw [hempty, parse_empty] at hexpr
          cases hexpr
        · simpa using hempty
      unfold read
      simp only [hnonempty, hexpr, Bool.false_eq_true, if_false]
      rfl
  | alone hown hget hend hnode =>
      cases htokens
      rw [read_alone (haround ▸ hown) hget hend, hinLoop, hnode]
      rfl
  | block => simp at htokens

/-- Whatever a token can do, it does. -/
theorem read_of_reads {state next : Arrangement} {token : Token}
    (h : Reads tags state token next) : read tags state token = .ok next := by
  cases h with
  | whole hwhole => exact read_of_whole hwhole
  | opens hown hget hend => exact read_open hown hget hend
  | divides helse hdivides => rw [read_branch hdivides, if_neg helse]
  | closes hends hnode =>
      rw [read_end hends, hnode]
      rfl

end Reading

end Arrangement

end Liquid
