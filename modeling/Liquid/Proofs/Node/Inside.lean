import Liquid.Proofs.Expr.Roots
import Liquid.Proofs.Node.Leaf

/-!
# The Nodes of a Tree

What can be said of a tree without rendering it. A node is told by three
things: the bodies that it holds, the expressions that it evaluates itself, and
the global that it writes, if it writes one. What a whole tree reads and writes
is then what its nodes do, at whatever depth they are.

A tree has nodes with several lists of nodes each, so an induction on it is one
on the node and its bodies: what holds of a node if it holds of all nodes in its
bodies holds of every node.

Leaving and skipping are nodes of their own, and what they act on is decided by
where they stand: on the loop in the main body of which they are, be it at
whatever depth. The other body of a loop is not part of it in this sense, and
neither is any body of a node that is no loop. Where a node stands is told by the
nodes around it, each with the number of its body that leads on to the node.

## Main definitions

* `Node.all`, `Node.allOf`: The nodes of a tree.
* `Node.exprs`: The expressions that a node evaluates itself.
* `Node.target?`: The global that a node writes.
* `Node.BuiltIn`: Trees without nodes of the host.
* `Node.rootsOf`, `Node.targetsOf`: What a tree reads and writes.
* `Node.Stands`: Where a node stands in a tree.
* `Node.isMainBody`: The bodies that leaving and skipping act on.
* `Node.Enclosed`: Trees in which all control stands in the main body of a loop.

## Theorems

* `Node.byBodies`: Induction on a tree.
* `Node.exists_stands_of_mem_allOf`: Every node of a tree stands somewhere.
* `Node.Enclosed.child`: The bodies that are no main body of a loop.
-/

namespace Liquid

namespace Selection

/-- The expressions of a selection. -/
def exprs (selection : Selection) : List Expr :=
  selection.collection :: (selection.offset.toList ++ selection.limit.toList)

end Selection

namespace Node

/-- The expressions that the node evaluates itself. -/
def exprs : Node → List Expr
  | .output expr _ => [expr]
  | .echo expr _ => [expr]
  | .conditional branches _ _ => branches.map Branch.condition
  | .choice subject whens _ _ => subject :: whens.flatMap When.values
  | .loop _ selection _ _ _ => selection.exprs
  | .tablerow _ selection columns _ _ => selection.exprs ++ columns.toList
  | .cycle values group _ => values ++ group.toList
  | .assign _ expr _ => [expr]
  | .custom _ payload _ _ => payload.exprs
  | _ => []

/-- The global that the node writes itself. -/
def target? : Node → Option String
  | .capture name _ => some name
  | .assign name _ _ => some name
  | .increment name => some name
  | .decrement name => some name
  | _ => none

/-- Whether the node is that of a tag of the host. -/
def isCustom : Node → Bool
  | .custom .. => true
  | _ => false

/-- A node is greater than those of its bodies, so recursion through them ends. -/
theorem sizeOf_lt_of_mem_bodies {node child : Node} {body : List Node} (hbody : body ∈ node.bodies)
    (hchild : child ∈ body) : sizeOf child < sizeOf node := by
  have hnode := sizeOf_bodies_le node
  have hbodies := List.sizeOf_lt_of_mem hbody
  have hlt := List.sizeOf_lt_of_mem hchild
  omega

/-- What holds of a node if it holds of all nodes in its bodies holds of every node. -/
theorem byBodies {motive : Node → Prop}
    (step : ∀ node, (∀ body ∈ node.bodies, ∀ child ∈ body, motive child) → motive node)
    (node : Node) : motive node :=
  step node fun _ hbody _ hchild =>
    have := sizeOf_lt_of_mem_bodies hbody hchild
    byBodies step _
termination_by sizeOf node

/-- The node and all nodes inside it. -/
def all (node : Node) : List Node :=
  node :: node.bodies.attach.flatMap fun body => body.1.attach.flatMap fun child => child.1.all
termination_by sizeOf node
decreasing_by exact sizeOf_lt_of_mem_bodies body.2 child.2

/-- The nodes of a tree. -/
def allOf (nodes : List Node) : List Node :=
  nodes.flatMap all

/-- A node, and then all that its bodies hold. -/
theorem all_eq (node : Node) : node.all = node :: node.bodies.flatMap allOf := by
  rw [all]
  unfold allOf
  simp

theorem mem_all_self (node : Node) : node ∈ node.all := by
  rw [all_eq]
  exact List.mem_cons_self

theorem mem_allOf_of_mem {node inner : Node} {nodes : List Node} (hmem : node ∈ nodes)
    (hinner : inner ∈ node.all) : inner ∈ allOf nodes :=
  List.mem_flatMap.mpr ⟨node, hmem, hinner⟩

/-- What a body holds at any depth is inside of the node. -/
theorem mem_all_of_mem_body {node inner : Node} {body : List Node} (hbody : body ∈ node.bodies)
    (hinner : inner ∈ allOf body) : inner ∈ node.all := by
  rw [all_eq]
  exact List.mem_cons_of_mem _ (List.mem_flatMap.mpr ⟨body, hbody, hinner⟩)

/-- Whether a tree has no nodes of the host. -/
def BuiltIn (nodes : List Node) : Prop :=
  ∀ node ∈ allOf nodes, node.isCustom = false

/-- The names at the roots of all paths in a tree. -/
def rootsOf (nodes : List Node) : List String :=
  (allOf nodes).flatMap fun node => node.exprs.flatMap Expr.roots

/-- The globals that a tree writes. -/
def targetsOf (nodes : List Node) : List String :=
  (allOf nodes).filterMap target?

/-- Whether the node leaves or skips. -/
def isControl : Node → Bool
  | .breakLoop => true
  | .continueLoop => true
  | _ => false

/-- Where a node stands in a tree: the nodes around it, the outermost first, each with the number
of the body that leads on. -/
inductive Stands (node : Node) : List (Node × Nat) → List Node → Prop
  | here {nodes : List Node} : node ∈ nodes → Stands node [] nodes
  | inside {around : List (Node × Nat)} {outer : Node} {part : Nat} {body nodes : List Node} :
      outer ∈ nodes → outer.bodies[part]? = some body → Stands node around body →
      Stands node ((outer, part) :: around) nodes

/-- Whether the body with the number is the main one of a loop. -/
def isMainBody : Node × Nat → Bool
  | (.loop .., 0) => true
  | (.tablerow .., 0) => true
  | _ => false

/-- Whether all nodes of a tree that leave or skip stand in the main body of a loop. -/
def Enclosed (nodes : List Node) : Prop :=
  ∀ node around, Stands node around nodes → node.isControl → ∃ outer ∈ around, isMainBody outer

/-- What stands in a list stands there with more nodes beside it. -/
theorem Stands.mono {node : Node} {around : List (Node × Nat)} {nodes more : List Node}
    (h : Stands node around nodes) (hmem : ∀ outer ∈ nodes, outer ∈ more) :
    Stands node around more := by
  cases h with
  | here hnode => exact .here (hmem _ hnode)
  | inside houter hbody hinner => exact .inside (hmem _ houter) hbody hinner

/-- What is inside of a node has the nodes on the way to it around it. -/
theorem exists_stands_of_mem_all {node inner : Node} (h : inner ∈ node.all) :
    ∃ around, Stands inner around [node] := by
  induction node using byBodies with
  | step node ih =>
      rw [all_eq, List.mem_cons] at h
      rcases h with rfl | h
      · exact ⟨[], .here List.mem_cons_self⟩
      · rcases List.mem_flatMap.mp h with ⟨body, hbody, h⟩
        rcases List.mem_flatMap.mp h with ⟨child, hchild, h⟩
        rcases ih body hbody child hchild h with ⟨around, hstands⟩
        rcases List.mem_iff_getElem?.mp hbody with ⟨part, hpart⟩
        refine ⟨(node, part) :: around, .inside List.mem_cons_self hpart (hstands.mono ?_)⟩
        simpa using hchild

theorem exists_stands_of_mem_allOf {inner : Node} {nodes : List Node} (h : inner ∈ allOf nodes) :
    ∃ around, Stands inner around nodes := by
  rcases List.mem_flatMap.mp h with ⟨node, hnode, hinner⟩
  rcases exists_stands_of_mem_all hinner with ⟨around, hstands⟩
  exact ⟨around, hstands.mono (by simpa using hnode)⟩

theorem Enclosed.of_mem {nodes : List Node} (h : Enclosed nodes) {node : Node}
    (hnode : node ∈ nodes) : Enclosed [node] :=
  fun inner around hstands => h inner around (hstands.mono (by simpa using hnode))

/-- A body that is no main body of a loop has nothing in it that acts on the node. -/
theorem Enclosed.child {node child : Node} {body : List Node} {part : Nat} (h : Enclosed [node])
    (hbody : node.bodies[part]? = some body) (hmain : isMainBody (node, part) = false)
    (hchild : child ∈ body) : Enclosed [child] := by
  intro inner around hstands hcontrol
  have hinside : Stands inner ((node, part) :: around) [node] :=
    .inside List.mem_cons_self hbody (hstands.mono (by simpa using hchild))
  rcases h inner _ hinside hcontrol with ⟨outer, houter, houterMain⟩
  rcases List.mem_cons.mp houter with rfl | houter
  · rw [hmain] at houterMain
    cases houterMain
  · exact ⟨outer, houter, houterMain⟩

end Node

end Liquid
