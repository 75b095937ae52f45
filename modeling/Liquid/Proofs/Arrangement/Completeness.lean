import Liquid.Proofs.Arrangement.Step

/-!
# Derived Tokens are Arranged

Reading the tokens of a derivation adds its nodes at the current point and
notes the tokens in all open blocks. Nothing else changes, so the readings of
consecutive bodies compose.

The three theorems follow the grammar of levels, for any table of tags. The one
on sections is about a block that a section has just been started in. The end of
the block is not among the tokens of its sections, and so the block is still open
behind them.

## Theorems

* `Arrangement.foldlM_level`, `Arrangement.foldlM_whole`,
  `Arrangement.foldlM_divided`: Reading what is derived.
* `Arrangement.ofTokens_of_level`, `Arrangement.ofTokens_of_body`: The nodes of a
  derived list of tokens.
-/

namespace Liquid

namespace Arrangement

section Reading

variable {tags : Table Tag}

/-- The tokens behind are read in the state that those before them lead to. -/
theorem foldlM_append_of_ok {first second : List Token} {state next : Arrangement}
    (h : first.foldlM (read tags) state = .ok next) :
    (first ++ second).foldlM (read tags) state = second.foldlM (read tags) next := by
  rw [List.foldlM_append, h]
  rfl

theorem foldlM_cons_of_ok {token : Token} {tokens : List Token} {state next : Arrangement}
    (h : read tags state token = .ok next) :
    (token :: tokens).foldlM (read tags) state = tokens.foldlM (read tags) next := by
  rw [List.foldlM_cons, h]
  rfl

theorem foldlM_single_of_ok {token : Token} {state next : Arrangement}
    (h : read tags state token = .ok next) : [token].foldlM (read tags) state = .ok next :=
  foldlM_cons_of_ok h

mutual

/-- Any state in which a level may stand reads all of its tokens, and gains its nodes. -/
theorem foldlM_level {around : Option Tag} {inLoop : Bool} {tokens : List Token}
    {nodes : List Node} (h : Level tags around inLoop tokens nodes) (state : Arrangement)
    (haround : state.innermost = around) (hloop : state.inLoop = inLoop) :
    tokens.foldlM (read tags) state = .ok (state.grown tokens nodes) := by
  match h with
  | .nil =>
      rw [grown_nil]
      rfl
  | .cons whole rest =>
      rw [foldlM_append_of_ok (foldlM_whole whole state haround hloop),
        foldlM_level rest _ ((innermost_grown ..).trans haround) ((inLoop_grown ..).trans hloop),
        grown_grown]
      rfl

/-- A node that is written in one stretch is what a state gains by its tokens. -/
theorem foldlM_whole {around : Option Tag} {inLoop : Bool} {tokens : List Token} {node : Node}
    (h : Whole tags around inLoop tokens node) (state : Arrangement)
    (haround : state.innermost = around) (hloop : state.inLoop = inLoop) :
    tokens.foldlM (read tags) state = .ok (state.grown tokens [node]) := by
  match h with
  | .text => exact foldlM_single_of_ok (read_of_reads (.whole .text))
  | .output hexpr => exact foldlM_single_of_ok (read_of_reads (.whole (.output hexpr)))
  | .alone hown hget hend hnode =>
      exact foldlM_single_of_ok
        (read_of_reads (.whole (.alone (haround ▸ hown) hget hend (hloop ▸ hnode))))
  | @Whole.block _ _ _ tag name close args closeArgs offset closeOffset place closePlace inner
      sections _ hown hget hends parts hnode =>
      let opening : Token := ⟨.tag name args, offset, place⟩
      have hloop' := (any_isLoopBody_noted state.blocks [opening]).trans hloop
      rcases foldlM_divided parts args offset place [] [] state.nodes hloop' with
        ⟨last, hinner, htag, hclose⟩
      -- The blocks around this one when its end is read.
      let outer := (state.blocks.map (OpenBlock.noted [opening])).map (OpenBlock.noted inner)
      have hloop'' : outer.any OpenBlock.isLoopBody = inLoop :=
        (any_isLoopBody_noted _ inner).trans hloop'
      have hnode' : last.tag.compile (outer.any OpenBlock.isLoopBody) last.close = .ok node := by
        rw [hloop'', htag, hclose]
        exact hnode
      have hopen : Reads tags state opening _ := .opens (haround ▸ hown) hget hends.2
      have hclosing : Reads tags ⟨last :: outer, state.nodes⟩
          ⟨.tag close closeArgs, closeOffset, closePlace⟩ _ := .closes (htag ▸ hends) hnode'
      refine (foldlM_cons_of_ok (read_of_reads hopen)).trans
        ((foldlM_append_of_ok hinner).trans
          ((foldlM_cons_of_ok (read_of_reads hclosing)).trans ?_))
      rw [List.map_map, List.map_map, OpenBlock.noted_noted, OpenBlock.noted_noted,
        push_eq_grown]
      rfl

/-- The sections of a block that one of them has just been started in, with those before it. -/
theorem foldlM_divided {inLoop : Bool} {tag : Tag} {name args : String} {offset : Nat}
    {place : Place} {inner : List Token} {sections : List Section}
    (h : Divided tags inLoop tag name args offset place inner sections) (openArgs : String)
    (openOffset : Nat) (openPlace : Place) (closed : List Section) (tokens : List Token)
    (nodes : List Node)
    {blocks : List OpenBlock} (hloop : blocks.any OpenBlock.isLoopBody = inLoop) :
    ∃ last : OpenBlock,
      inner.foldlM (read tags)
          ⟨⟨tag, openArgs, openOffset, openPlace, closed, name, args, offset, place, [], tokens⟩ ::
            blocks, nodes⟩ =
        .ok ⟨last :: blocks.map (OpenBlock.noted inner), nodes⟩ ∧
      last.tag = tag ∧
      last.close = ⟨tag.name, openArgs, openOffset, openPlace, closed.reverse ++ sections,
        tokens.reverse ++ inner⟩ := by
  match h with
  | .last level =>
      refine ⟨_, foldlM_level level _ rfl ?_, rfl, ?_⟩
      · rw [← hloop]
        rfl
      · simp [OpenBlock.close, OpenBlock.sections, OpenBlock.filled, OpenBlock.noted]
  | @Divided.branch _ _ _ _ _ next nextArgs _ nextOffset _ nextPlace used rest body sections hlevel
      hname hnext parts =>
      -- The block behind this section, and once its divider is read as well.
      let filled : OpenBlock :=
        OpenBlock.filled body (.noted used
          ⟨tag, openArgs, openOffset, openPlace, closed, name, args, offset, place, [], tokens⟩)
      let outer := blocks.map (OpenBlock.noted used)
      let divided := filled.noted [⟨.tag next nextArgs, nextOffset, nextPlace⟩]
      have hused := foldlM_level hlevel
        ⟨⟨tag, openArgs, openOffset, openPlace, closed, name, args, offset, place, [], tokens⟩ ::
          blocks, nodes⟩
        rfl (hloop ▸ rfl)
      have hdivider : Reads tags ⟨filled :: outer, nodes⟩
          ⟨.tag next nextArgs, nextOffset, nextPlace⟩ _ := .divides hname hnext
      rcases foldlM_divided parts openArgs openOffset openPlace divided.sections divided.tokens
        nodes ((any_isLoopBody_noted _ _).trans ((any_isLoopBody_noted _ _).trans hloop))
        with ⟨last, hrest, htag, hclose⟩
      refine ⟨last, (foldlM_append_of_ok hused).trans
        ((foldlM_cons_of_ok (read_of_reads hdivider)).trans (hrest.trans ?_)), htag, ?_⟩
      · rw [List.map_map, List.map_map, OpenBlock.noted_noted, OpenBlock.noted_noted]
        rfl
      · rw [hclose]
        simp [divided, filled, OpenBlock.sections, OpenBlock.noted, OpenBlock.filled]

end

/-- Tokens of the grammar become the nodes of it. -/
theorem ofTokens_of_level {tokens : List Token} {nodes : List Node}
    (h : Level tags none false tokens nodes) :
    Node.ofTokens tags tokens = .ok (nodes, [.arranged tokens.length nodes.length]) := by
  have hread := foldlM_level h .start rfl rfl
  have hgrown : start.grown tokens nodes = ⟨[], nodes.reverse⟩ := by
    simp [grown, start]
  unfold Node.ofTokens
  rw [hread, hgrown]
  change Except.ok (nodes.reverse.reverse, [Remark.arranged tokens.length _]) = _
  rw [List.reverse_reverse]

/-- Every body that the grammar allows is accepted, with its nodes. -/
theorem ofTokens_of_body (hu : Unambiguous tags) {tokens : List Token} {nodes : List Node}
    (h : Body tags false tokens nodes) :
    Node.ofTokens tags tokens = .ok (nodes, [.arranged tokens.length nodes.length]) :=
  ofTokens_of_level (level_of_body hu (by rintro _ ⟨⟩) h)

end Reading

end Arrangement

end Liquid
