import Liquid.Proofs.Arrangement.Soundness
import Liquid.Proofs.Registry

/-!
# What a Tag Gets to Compile

A block is handed to its tag when the token that ends it is read. It has then
been collected while other blocks were opened, divided and ended inside of it,
and all of them have noted the same tokens. What the tag gets is told by the
grammar of levels, and so by the source alone: the tokens are those between the
opening and the end, and the sections are theirs. What the blocks inside are
compiled into stands in the sections, and their tokens stand among those of the
block as they came.

The tags may be any that a host gives, with any ends and branches.

## Main definitions

* `Arrangement.Handing`: A block as its tag gets it.
* `Arrangement.handed?`: What a token hands to a tag.

## Theorems

* `Arrangement.exists_node_of_handed?`: What is handed to a tag becomes a node.
* `Arrangement.handed_sees_source`: A tag gets the block that stands in the
  source.
-/

namespace Liquid

namespace Arrangement

/-- A block as its tag gets it, and whether it stands in the body of a loop. -/
structure Handing where
  tag : Tag
  inLoop : Bool
  block : Block

/-- What a token hands to a tag, if it ends the innermost block. -/
def handed? (state : Arrangement) (token : Token) : Option Handing :=
  match token.content, state.blocks with
  | .tag name _, block :: outer =>
    if name ≠ "" ∧ block.tag.endName = some name then
      some ⟨block.tag, outer.any OpenBlock.isLoopBody, block.close⟩
    else none
  | _, _ => none

section Handing

variable {tags : Table Tag}

/-- A block is handed to its tag by the token that ends it, and by no other. -/
theorem handed?_eq_some_iff {state : Arrangement} {token : Token} {handing : Handing} :
    state.handed? token = some handing ↔
      ∃ block outer nodes name args, state = ⟨block :: outer, nodes⟩ ∧
        token.content = .tag name args ∧ Ends block.tag name ∧
        handing = ⟨block.tag, outer.any OpenBlock.isLoopBody, block.close⟩ := by
  rcases token with ⟨content, offset, place⟩
  rcases state with ⟨_ | ⟨block, outer⟩, nodes⟩ <;> cases content <;>
    simp [handed?, Ends, eq_comm]

/-- A token that can be read hands a block that its tag accepts. -/
theorem exists_node_of_handed? {state next : Arrangement} {token : Token} {handing : Handing}
    (hread : read tags state token = .ok next) (h : state.handed? token = some handing) :
    ∃ node, handing.tag.compile handing.inLoop handing.block = .ok node ∧
      next = push ⟨state.blocks.tail.map (OpenBlock.noted [token]), state.nodes⟩ node := by
  rcases token with ⟨content, offset, place⟩
  rcases handed?_eq_some_iff.mp h with ⟨block, outer, nodes, name, args, rfl, hcontent, hends, rfl⟩
  cases hcontent
  rw [read_end hends] at hread
  rcases map_eq_ok_iff.mp hread with ⟨node, hnode, rfl⟩
  rw [placedAt, mapError_eq_ok_iff] at hnode
  exact ⟨node, hnode, rfl⟩

/-- The tokens that are arranged are read one after the other. -/
theorem read_of_ofTokens {before after : List Token} {token : Token} {state : Arrangement}
    {result : List Node × List Remark}
    (h : Node.ofTokens tags (before ++ token :: after) = .ok result)
    (hbefore : before.foldlM (read tags) start = .ok state) :
    ∃ next, read tags state token = .ok next := by
  unfold Node.ofTokens at h
  rcases bind_eq_ok_iff.mp h with ⟨last, hfold, _⟩
  rw [foldlM_append_of_ok hbefore, List.foldlM_cons] at hfold
  rcases bind_eq_ok_iff.mp hfold with ⟨next, hread, _⟩
  exact ⟨next, hread⟩

/-- Each block that is handed to a tag, in tokens that become nodes with any tags of a host, is the
one that stands in the source. Its tokens are those between its opening and the token that ends it.
Its sections are those that the branch tags right inside of it divide these into, each with the
name, the arguments, the offset and the place of what starts it and the nodes that its tokens
become. -/
theorem handed_sees_source (settings : Settings) (extras : Extras) {before after : List Token}
    {closing : Token} {result : List Node × List Remark} {state : Arrangement} {handing : Handing}
    (h : Node.ofTokens (Environment.create settings extras).1.tags (before ++ closing :: after) =
      .ok result)
    (hbefore : before.foldlM (read (Environment.create settings extras).1.tags) start = .ok state)
    (hhanded : state.handed? closing = some handing) :
    (∃ node, handing.tag.compile handing.inLoop handing.block = .ok node ∧
      read (Environment.create settings extras).1.tags state closing =
        .ok (push ⟨state.blocks.tail.map (OpenBlock.noted [closing]), state.nodes⟩ node)) ∧
      (∃ name args, closing.content = .tag name args ∧ Ends handing.tag name) ∧
      ∃ leading opening outer,
        before = leading ++ opening :: handing.block.tokens ∧
        opening = ⟨.tag handing.block.name handing.block.args, handing.block.offset,
          handing.block.place⟩ ∧
        leading.foldlM (read (Environment.create settings extras).1.tags) start = .ok outer ∧
        handing.inLoop = outer.inLoop ∧
        IsOwn outer.innermost handing.block.name ∧
        (Environment.create settings extras).1.tags.get? handing.block.name = some handing.tag ∧
        Divided (Environment.create settings extras).1.tags outer.inLoop handing.tag
          handing.block.name handing.block.args handing.block.offset handing.block.place
          handing.block.tokens handing.block.sections := by
  rcases read_of_ofTokens h hbefore with ⟨next, hread⟩
  rcases exists_node_of_handed? hread hhanded with ⟨node, hnode, rfl⟩
  rcases handed?_eq_some_iff.mp hhanded with
    ⟨block, outer, nodes, name, args, rfl, hcontent, hends, rfl⟩
  refine ⟨⟨node, hnode, hread⟩, ⟨name, args, hcontent, hends⟩, ?_⟩
  cases stands_of_foldlM hbefore with
  | @inside leading outer _ key close hleading hown hget hend hparts =>
      -- A tag is in the table under its own name.
      have hkey : block.tag.name = key := Environment.name_of_get?_registry hget
      subst hkey
      exact ⟨leading, ⟨.tag block.tag.name block.args, block.offset, block.place⟩, outer, rfl, rfl,
        foldlM_of_stands hleading, any_isLoopBody_noted _ _, hown, hget, hparts⟩

/-- A box in a box: the outer one has the tokens of the inner one, and its second section starts at
the branch tag that stands behind the inner one. -/
theorem handed_sees_source_nested :
    let box : Tag :=
      { name := "box", endName := some "endbox", branchNames := ["part"]
        compile := fun _ block => .ok (.text block.args) }
    let extras : Extras := { tags := [box] }
    let tags := (Environment.create {} extras).1.tags
    let opening : Token := ⟨.tag "box" "a", 0, ⟨1, 1⟩⟩
    let inner : List Token :=
      [⟨.tag "box" "b", 7, ⟨1, 8⟩⟩, ⟨.text "x", 14, ⟨1, 15⟩⟩, ⟨.tag "endbox" "", 15, ⟨1, 16⟩⟩]
    let divider : Token := ⟨.tag "part" "c", 25, ⟨1, 26⟩⟩
    let closing : Token := ⟨.tag "endbox" "", 33, ⟨1, 34⟩⟩
    let sections : List Section :=
      [⟨"box", "a", 0, ⟨1, 1⟩, [.text "b"]⟩, ⟨"part", "c", 25, ⟨1, 26⟩, []⟩]
    Node.ofTokens tags (opening :: inner ++ [divider] ++ closing :: []) =
        .ok ([.text "a"], [.arranged 6 1]) ∧
      ∃ state, (opening :: inner ++ [divider]).foldlM (read tags) start = .ok state ∧
        state.handed? closing =
          some ⟨box, false, ⟨"box", "a", 0, ⟨1, 1⟩, sections, inner ++ [divider]⟩⟩ ∧
        Divided tags false box "box" "a" 0 ⟨1, 1⟩ (inner ++ [divider]) sections := by
  intro box extras tags opening inner divider closing sections
  -- What the outer block holds when it is about to be closed. The inner one is closed already.
  let state : Arrangement :=
    ⟨[⟨box, "a", 0, ⟨1, 1⟩, [⟨"box", "a", 0, ⟨1, 1⟩, [.text "b"]⟩], "part", "c", 25, ⟨1, 26⟩, [],
      (inner ++ [divider]).reverse⟩], []⟩
  have hall : Node.ofTokens tags (opening :: inner ++ [divider] ++ closing :: []) =
      .ok ([.text "a"], [.arranged 6 1]) := rfl
  have hread : (opening :: inner ++ [divider]).foldlM (read tags) start = .ok state := rfl
  have hhanded : state.handed? closing =
      some ⟨box, false, ⟨"box", "a", 0, ⟨1, 1⟩, sections, inner ++ [divider]⟩⟩ := rfl
  rcases handed_sees_source {} extras hall hread hhanded with
    ⟨_, _, _, _, outer, _, _, _, hloop, _, _, hdivided⟩
  have houter : outer.inLoop = false := hloop.symm
  rw [houter] at hdivided
  exact ⟨hall, state, hread, hhanded, hdivided⟩

end Handing

end Arrangement

end Liquid
