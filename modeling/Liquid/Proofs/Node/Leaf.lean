import Liquid.Node
import Liquid.Expr.Parse

/-!
# The Leaves of a Tree

Where the texts and outputs of a compiled template are. All that a node holds
of other nodes are bodies, each a list; they are numbered like the sections of
the block that the node came from. A leaf is found by going from the outermost
nodes down, and the way there tells the branch that it is in.

A `case` keeps nothing of its first section, so its bodies are numbered from
one.

## Main definitions

* `Node.bodies`, `Node.firstPart`: The bodies of a node and the number of the
  first.
* `Leaf`: A text or an output and where it is.
* `Node.leaves`, `Node.leavesOf`: The leaves of a node and of a body.
-/

namespace Liquid

/-- What a leaf shows. An output is told by what its source is read as, which may be a fault as
long as it has not been compiled. -/
inductive Leaf.Content
  | text (text : String)
  | output (result : Except Expr.Fault Expr) (place : Place)

/-- A text or an output and where it is: for each block around it, the outermost first, the
position of the block among its siblings and the number of its section; then its own position. -/
structure Leaf where
  trail : List (Nat × Nat)
  position : Nat
  content : Leaf.Content

namespace Node

/-- What the node itself shows, if it is a text or an output. -/
def content? : Node → Option Leaf.Content
  | .text shown => some (.text shown)
  | .output expr place => some (.output (.ok expr) place)
  | _ => none

/-- The bodies that a node holds, in the order of the sections that they were. -/
def bodies : Node → List (List Node)
  | .conditional branches otherwise _ => branches.map Branch.body ++ otherwise.toList
  | .choice _ whens otherwise _ => whens.map When.body ++ otherwise.toList
  | .loop _ _ body otherwise _ => body :: otherwise.toList
  | .tablerow _ _ _ body _ => [body]
  | .capture _ body => [body]
  | .custom _ _ children _ => [children]
  | _ => []

/-- The number of the section that the first body was. -/
def firstPart : Node → Nat
  | .choice .. => 1
  | _ => 0

theorem sizeOf_list_pos {α : Type} [SizeOf α] (list : List α) : 0 < sizeOf list := by
  cases list with
  | nil => exact Nat.zero_lt_one
  | cons head rest =>
      rw [List.cons.sizeOf_spec]
      omega

/-- A body that is optional adds no more than its own size. -/
theorem sizeOf_append_toList {α : Type} [SizeOf α] (first : List α) (otherwise : Option α) :
    sizeOf (first ++ otherwise.toList) ≤ sizeOf first + sizeOf otherwise := by
  induction first with
  | nil =>
      cases otherwise with
      | none => exact Nat.le_add_right _ _
      | some last =>
          simp only [Option.toList_some, List.nil_append, List.cons.sizeOf_spec,
            List.nil.sizeOf_spec, Option.some.sizeOf_spec]
          omega
  | cons head rest ih =>
      simp only [List.cons_append, List.cons.sizeOf_spec]
      omega

theorem sizeOf_map_body_le (branches : List (Branch Node)) :
    sizeOf (branches.map Branch.body) ≤ sizeOf branches := by
  induction branches with
  | nil => exact Nat.le_refl _
  | cons branch branches ih =>
      rcases branch with ⟨condition, negated, body⟩
      simp only [List.map_cons, List.cons.sizeOf_spec, Branch.mk.sizeOf_spec]
      omega

theorem sizeOf_map_when_body_le (whens : List (When Node)) :
    sizeOf (whens.map When.body) ≤ sizeOf whens := by
  induction whens with
  | nil => exact Nat.le_refl _
  | cons part whens ih =>
      rcases part with ⟨values, body⟩
      simp only [List.map_cons, List.cons.sizeOf_spec, When.mk.sizeOf_spec]
      omega

/-- The bodies are smaller than the node, but for the list around a single one. -/
theorem sizeOf_bodies_le (node : Node) : sizeOf node.bodies ≤ sizeOf node + 1 := by
  -- The kinds of nodes with bodies, each by the size of what it holds. All others have none.
  cases node with
  | conditional branches otherwise place =>
      have hbranches := sizeOf_map_body_le branches
      have hotherwise := sizeOf_append_toList (branches.map Branch.body) otherwise
      simp only [bodies, conditional.sizeOf_spec]
      omega
  | choice subject whens otherwise place =>
      have hwhens := sizeOf_map_when_body_le whens
      have hotherwise := sizeOf_append_toList (whens.map When.body) otherwise
      simp only [bodies, choice.sizeOf_spec]
      omega
  | loop name selection body otherwise place =>
      have hotherwise := sizeOf_append_toList [body] otherwise
      simp only [bodies, loop.sizeOf_spec, List.cons_append, List.nil_append, List.cons.sizeOf_spec,
        List.nil.sizeOf_spec] at hotherwise ⊢
      omega
  | tablerow name selection columns body place =>
      simp only [bodies, tablerow.sizeOf_spec, List.cons.sizeOf_spec, List.nil.sizeOf_spec]
      omega
  | capture name body =>
      simp only [bodies, capture.sizeOf_spec, List.cons.sizeOf_spec, List.nil.sizeOf_spec]
      omega
  | custom tag payload children place =>
      simp only [bodies, custom.sizeOf_spec, List.cons.sizeOf_spec, List.nil.sizeOf_spec]
      omega
  | _ =>
      rw [bodies, List.nil.sizeOf_spec]
      · omega
      all_goals simp

mutual

/-- The leaves of a node that is found by the trail, at the position. -/
def leaves (trail : List (Nat × Nat)) (position : Nat) (node : Node) : List Leaf :=
  (node.content?.map (Leaf.mk trail position)).toList ++
    leavesOfBodies trail position node.firstPart node.bodies
termination_by (sizeOf node + 1, 1)
decreasing_by
  -- A node with a single body is as large as the list of its bodies, and comes before it.
  rcases Nat.lt_or_eq_of_le (sizeOf_bodies_le node) with hlt | heq
  · exact Prod.Lex.left _ _ hlt
  · rw [heq]
    exact Prod.Lex.right _ Nat.zero_lt_one

/-- The leaves of consecutive bodies of one node, the first of which has the number. -/
def leavesOfBodies (trail : List (Nat × Nat)) (position : Nat) :
    Nat → List (List Node) → List Leaf
  | _, [] => []
  | part, body :: bodies =>
    leavesOf (trail ++ [(position, part)]) 0 body ++
      leavesOfBodies trail position (part + 1) bodies
termination_by _ bodies => (sizeOf bodies, 0)

/-- The leaves of consecutive nodes of one body, the first of which has the position. -/
def leavesOf (trail : List (Nat × Nat)) : Nat → List Node → List Leaf
  | _, [] => []
  | position, node :: nodes => leaves trail position node ++ leavesOf trail (position + 1) nodes
termination_by _ nodes => (sizeOf nodes, 0)
decreasing_by
  · have hpos := sizeOf_list_pos nodes
    refine Prod.Lex.left _ _ ?_
    rw [List.cons.sizeOf_spec]
    omega
  · refine Prod.Lex.left _ _ ?_
    rw [List.cons.sizeOf_spec]
    omega

end

/-- A node without bodies is a leaf itself, or has none. -/
theorem leaves_of_bodies_eq_nil {node : Node} (h : node.bodies = []) (trail : List (Nat × Nat))
    (position : Nat) :
    node.leaves trail position = (node.content?.map (Leaf.mk trail position)).toList := by
  rw [leaves, h, leavesOfBodies, List.append_nil]

end Node

end Liquid
