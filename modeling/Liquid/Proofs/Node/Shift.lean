import Liquid.Block
import Liquid.Proofs.Token.Append

/-!
# Moving a Tree

A tree behind a text: the places in it are moved, at whatever depth they are,
and nothing else is changed. The sections and the blocks that nodes are compiled
from are moved in the same way.

## Main definitions

* `Node.shifted`, `Section.shifted`, `Block.shifted`: Trees, and what they come
  from, once a text stands before.

## Theorems

* `Node.shiftedAll_eq_map`, `Node.shiftedOption_eq_map`,
  `Node.shiftedBranches_eq_map`, `Node.shiftedWhens_eq_map`: Bodies are moved
  node by node.
-/

namespace Liquid

namespace Node

mutual

/-- The node, once a text stands before its source. -/
def shifted (used : List Char) : Node → Node
  | .text shown => .text shown
  | .output expr place => .output expr (place.shifted used)
  | .echo expr place => .echo expr (place.shifted used)
  | .conditional branches otherwise place =>
    .conditional (shiftedBranches used branches) (shiftedOption used otherwise)
      (place.shifted used)
  | .choice subject whens otherwise place =>
    .choice subject (shiftedWhens used whens) (shiftedOption used otherwise) (place.shifted used)
  | .loop name selection body otherwise place =>
    .loop name selection (shiftedAll used body) (shiftedOption used otherwise) (place.shifted used)
  | .tablerow name selection columns body place =>
    .tablerow name selection columns (shiftedAll used body) (place.shifted used)
  | .breakLoop => .breakLoop
  | .continueLoop => .continueLoop
  | .cycle values group place => .cycle values group (place.shifted used)
  | .capture name body => .capture name (shiftedAll used body)
  | .assign name expr place => .assign name expr (place.shifted used)
  | .increment name => .increment name
  | .decrement name => .decrement name
  | .custom tag payload children place =>
    .custom tag payload (shiftedAll used children) (place.shifted used)

/-- The nodes of a body. -/
def shiftedAll (used : List Char) : List Node → List Node
  | [] => []
  | node :: nodes => node.shifted used :: shiftedAll used nodes

/-- The nodes of a body that may be missing. -/
def shiftedOption (used : List Char) : Option (List Node) → Option (List Node)
  | none => none
  | some body => some (shiftedAll used body)

/-- The bodies of a conditional. -/
def shiftedBranches (used : List Char) : List (Branch Node) → List (Branch Node)
  | [] => []
  | ⟨condition, negated, body⟩ :: branches =>
    ⟨condition, negated, shiftedAll used body⟩ :: shiftedBranches used branches

/-- The bodies of a choice. -/
def shiftedWhens (used : List Char) : List (When Node) → List (When Node)
  | [] => []
  | ⟨values, body⟩ :: whens => ⟨values, shiftedAll used body⟩ :: shiftedWhens used whens

end

variable (used : List Char)

/-- The recursion over a list of nodes moves each of them. -/
@[simp] theorem shiftedAll_eq_map (nodes : List Node) :
    shiftedAll used nodes = nodes.map (shifted used) := by
  induction nodes with
  | nil => rfl
  | cons node nodes ih => exact congrArg _ ih

/-- The recursion over an optional body moves it if it is there. -/
@[simp] theorem shiftedOption_eq_map (body : Option (List Node)) :
    shiftedOption used body = body.map (List.map (shifted used)) := by
  cases body with
  | none => rfl
  | some body => exact congrArg some (shiftedAll_eq_map used body)

end Node

/-- The branch, once a text stands before its source. -/
def Branch.shifted (used : List Char) (branch : Branch Node) : Branch Node :=
  { branch with body := branch.body.map (Node.shifted used) }

/-- The part of a choice, once a text stands before its source. -/
def When.shifted (used : List Char) (part : When Node) : When Node :=
  { part with body := part.body.map (Node.shifted used) }

@[simp] theorem Node.shiftedBranches_eq_map (used : List Char) (branches : List (Branch Node)) :
    shiftedBranches used branches = branches.map (Branch.shifted used) := by
  induction branches with
  | nil => rfl
  | cons branch branches ih => simp [shiftedBranches, Branch.shifted, ih]

@[simp] theorem Node.shiftedWhens_eq_map (used : List Char) (whens : List (When Node)) :
    shiftedWhens used whens = whens.map (When.shifted used) := by
  induction whens with
  | nil => rfl
  | cons part whens ih => simp [shiftedWhens, When.shifted, ih]

/-- The section, once a text stands before its source. -/
def Section.shifted (used : List Char) (part : Section) : Section :=
  ⟨part.name, part.args, used.length + part.offset, part.place.shifted used,
    part.body.map (Node.shifted used)⟩

/-- The block, once a text stands before its source. -/
def Block.shifted (used : List Char) (block : Block) : Block :=
  ⟨block.name, block.args, used.length + block.offset, block.place.shifted used,
    block.sections.map (Section.shifted used), block.tokens.map (Token.shifted used)⟩

theorem Block.body_shifted (used : List Char) (block : Block) :
    (block.shifted used).body = block.body.map (Node.shifted used) := by
  rcases block with ⟨name, args, offset, place, sections, tokens⟩
  cases sections with
  | nil => rfl
  | cons first rest => rfl

end Liquid
