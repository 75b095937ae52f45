import Liquid.Node.Render
import Liquid.Proofs.Node.Inside

/-!
# From Nodes to Trees

Much of what can be said of rendering is said of a step by itself: that it keeps
something in the scope, say, or that it does not leave a loop. Such a property
is carried from the parts of a tree to all of it by the same few ways of putting
steps together, whatever it says.

So these are gone through once, for any property that steps have which do
nothing or show a text, and that going on from a result keeps. What is left to
be shown of a property is how it takes the steps that evaluate, write the scope
or stand around a body.

## Main definitions

* `Render.Compositional`: Properties that putting steps together keeps.

## Theorems

* `Compositional.renderAll`, `Compositional.each`: From nodes to a body, and
  from an item to all.
* `Compositional.conditional`, `Compositional.choice`, `Compositional.loop`,
  `Compositional.tablerow`, `Compositional.cycle`, `Compositional.capture`,
  `Compositional.assign`: From the parts of a node to the node.
-/

namespace Liquid

namespace Render

/-- Whether steps with the property give steps with it when they are put together. -/
structure Compositional (kept : ∀ ⦃α : Type⦄, Render α → Prop) : Prop where
  done : ∀ {α : Type} (a : α), kept (done a)
  emit : ∀ chunk, kept (emit chunk)
  bind : ∀ {α β : Type} {x : Render α} {f : α → Render β}, kept x → (∀ a, kept (f a)) →
    kept (x >>= f)

namespace Compositional

variable {kept : ∀ ⦃α : Type⦄, Render α → Prop} {env : Environment} {place : Place}

theorem display (h : Compositional kept) {expr : Expr} (hvalue : kept (value env place expr)) :
    kept (display env place expr) :=
  h.bind hvalue fun value => h.emit value.display

/-- Comparisons are made one after the other. -/
theorem isAnyOf (h : Compositional kept) (subject : Value) (exprs : List Expr)
    (hvalue : ∀ expr ∈ exprs, kept (value env place expr)) :
    kept (isAnyOf env place subject exprs) := by
  induction exprs with
  | nil => exact h.done false
  | cons expr exprs ih =>
      refine h.bind (hvalue expr List.mem_cons_self) fun value => ?_
      cases subject.equals value with
      | true => exact h.done true
      | false => exact ih fun other hmem => hvalue other (List.mem_cons_of_mem _ hmem)

theorem cycleKey (h : Compositional kept) (values : List Expr) (group : Option Expr)
    (hvalue : ∀ expr ∈ group, kept (value env place expr)) :
    kept (cycleKey env place values group) := by
  cases group with
  | none => exact h.done _
  | some expr => exact h.bind (hvalue expr rfl) fun value => h.done value.display

/-- The items are visited one after the other. -/
theorem each (h : Compositional kept) {visit : Nat → Value → Render Bool}
    (hvisit : ∀ index item, kept (visit index item)) (index : Nat) (items : List Value) :
    kept (each visit index items) := by
  induction items generalizing index with
  | nil => exact h.done ()
  | cons item items ih =>
      refine h.bind (hvisit index item) fun left => ?_
      cases left with
      | true => exact h.done ()
      | false => exact ih (index + 1)

/-- One cell of a table, given how the property takes the variables of the table and the body. -/
theorem cell (h : Compositional kept) {name : String} {columns : Nat} {position : Position}
    {item : Value} {body : Render Unit}
    (hset : ∀ key value, kept (update (·.setLocal key value))) (hbody : kept (iteration body)) :
    kept (cell name columns position item body) := by
  -- The row is opened and closed around a cell, or not; either way the same follows.
  have hif {α : Type} (condition : Bool) (chunk : String) {next : Unit → Render α}
      (hnext : ∀ u, kept (next u)) :
      kept (if condition then Render.emit chunk >>= next else next ()) := by
    cases condition with
    | true => exact h.bind (h.emit chunk) hnext
    | false => exact hnext ()
  unfold Render.cell
  exact hif _ _ fun _ => h.bind (h.emit _) fun _ => h.bind (hset name item) fun _ =>
    h.bind (hset "tablerowloop" _) fun _ => h.bind hbody fun left => h.bind (h.emit _) fun _ =>
    hif _ _ fun _ => h.done left

/-- Nodes are rendered one after the other. -/
theorem renderAll (h : Compositional kept) (nodes : List Node)
    (hnode : ∀ node ∈ nodes, kept (node.render env)) : kept (renderAll env nodes) := by
  induction nodes with
  | nil => exact h.done ()
  | cons node nodes ih =>
      refine h.bind (hnode node List.mem_cons_self) fun _ => ?_
      exact ih fun other hmem => hnode other (List.mem_cons_of_mem _ hmem)

theorem renderOption (h : Compositional kept) (body : Option (List Node))
    (hnode : ∀ nodes ∈ body, ∀ node ∈ nodes, kept (node.render env)) :
    kept (renderOption env body) := by
  cases body with
  | none => exact h.done ()
  | some nodes => exact h.renderAll nodes (hnode nodes rfl)

/-- Conditions are evaluated up to the first that holds, and then its body is rendered. -/
theorem renderBranches (h : Compositional kept) {otherwise : Render Unit}
    (hotherwise : kept otherwise) (branches : List (Branch Node))
    (hvalue : ∀ branch ∈ branches, kept (value env place branch.condition))
    (hnode : ∀ branch ∈ branches, ∀ node ∈ branch.body, kept (node.render env)) :
    kept (renderBranches env place otherwise branches) := by
  -- On the branches: the first one that holds is rendered, and the others are not looked at.
  induction branches with
  | nil => exact hotherwise
  | cons branch branches ih =>
      refine h.bind (hvalue branch List.mem_cons_self) fun value => ?_
      cases value.isTruthy != branch.negated with
      | true => exact h.renderAll branch.body (hnode branch List.mem_cons_self)
      | false =>
          exact ih (fun other hmem => hvalue other (List.mem_cons_of_mem _ hmem))
            fun other hmem => hnode other (List.mem_cons_of_mem _ hmem)

/-- Values are compared up to the first that is equal, and then the body is rendered. -/
theorem renderWhens (h : Compositional kept) {otherwise : Render Unit} (hotherwise : kept otherwise)
    (subject : Value) (whens : List (When Node))
    (hvalue : ∀ part ∈ whens, ∀ expr ∈ part.values, kept (value env place expr))
    (hnode : ∀ part ∈ whens, ∀ node ∈ part.body, kept (node.render env)) :
    kept (renderWhens env place subject otherwise whens) := by
  -- On the parts: the first one with a value that matches is rendered.
  induction whens with
  | nil => exact hotherwise
  | cons part whens ih =>
      refine h.bind (h.isAnyOf subject part.values (hvalue part List.mem_cons_self)) fun found => ?_
      cases found with
      | true => exact h.renderAll part.body (hnode part List.mem_cons_self)
      | false =>
          exact ih (fun other hmem => hvalue other (List.mem_cons_of_mem _ hmem))
            fun other hmem => hnode other (List.mem_cons_of_mem _ hmem)

section Nodes

variable {branches : List (Branch Node)} {whens : List (When Node)} {otherwise : Option (List Node)}
  {name : String} {selection : Selection} {body : List Node}

/-- A conditional is its branches, and the else behind them. -/
theorem conditional (h : Compositional kept)
    (hvalue : ∀ expr ∈ (Node.conditional branches otherwise place).exprs,
      kept (value env place expr))
    (hchild : ∀ body ∈ (Node.conditional branches otherwise place).bodies, ∀ child ∈ body,
      kept (child.render env)) :
    kept ((Node.conditional branches otherwise place).render env) :=
  h.renderBranches
    (h.renderOption otherwise fun _ hbody =>
      hchild _ (List.mem_append_right _ (Option.mem_toList.mpr hbody)))
    branches (fun _ hmem => hvalue _ (List.mem_map_of_mem hmem))
    fun _ hmem => hchild _ (List.mem_append_left _ (List.mem_map_of_mem hmem))

/-- A choice is its subject, its whens, and the else behind them. -/
theorem choice (h : Compositional kept) {subject : Expr}
    (hvalue : ∀ expr ∈ (Node.choice subject whens otherwise place).exprs,
      kept (value env place expr))
    (hchild : ∀ body ∈ (Node.choice subject whens otherwise place).bodies, ∀ child ∈ body,
      kept (child.render env)) :
    kept ((Node.choice subject whens otherwise place).render env) :=
  h.bind (hvalue subject List.mem_cons_self) fun subject =>
    h.renderWhens
      (h.renderOption otherwise fun _ hbody =>
        hchild _ (List.mem_append_right _ (Option.mem_toList.mpr hbody)))
      subject whens
      (fun _ hmem _ hexpr =>
        hvalue _ (List.mem_cons_of_mem _ (List.mem_flatMap.mpr ⟨_, hmem, hexpr⟩)))
      fun _ hmem => hchild _ (List.mem_append_left _ (List.mem_map_of_mem hmem))

/-- A loop is its items, and then the visits or the else. -/
theorem loop (h : Compositional kept)
    (hitems : kept (evaluated fun scope => selection.items env scope place))
    (hotherwise : ∀ nodes ∈ otherwise, ∀ child ∈ nodes, kept (child.render env))
    (hloop : ∀ items, kept (Render.loop name items (Liquid.renderAll env body))) :
    kept ((Node.loop name selection body otherwise place).render env) := by
  refine h.bind hitems fun items => ?_
  cases items.isEmpty with
  | true => exact h.renderOption otherwise hotherwise
  | false => exact hloop items

theorem tablerow (h : Compositional kept) {columns : Option Expr}
    (hitems : kept (evaluated fun scope => selection.items env scope place))
    (hcolumns : kept (evaluated fun scope => Selection.evalOption env scope place columns))
    (htable : ∀ count items, kept (table name count items (Liquid.renderAll env body))) :
    kept ((Node.tablerow name selection columns body place).render env) := by
  refine h.bind hitems fun items => ?_
  cases items.isEmpty with
  | true => exact h.done ()
  | false => exact h.bind hcolumns fun columns => htable _ items

/-- A cycle is its key, the turn that is taken, and the value that is shown. -/
theorem cycle (h : Compositional kept) {values : List Expr} {group : Option Expr}
    (hgroup : ∀ expr ∈ group, kept (value env place expr))
    (hvalue : ∀ index : Nat, kept (value env place (values[index]?.getD (.literal .nil))))
    (hcycle : ∀ key, kept (changed (·.cycle key values.length))) :
    kept ((Node.cycle values group place).render env) :=
  h.bind (h.cycleKey values group hgroup) fun key => h.bind (hcycle key) fun index =>
    h.display (hvalue index.toNat)

theorem capture (h : Compositional kept) (hbody : kept (captured (Liquid.renderAll env body)))
    (hassign : ∀ value, kept (update (·.assign name value))) :
    kept ((Node.capture name body).render env) :=
  h.bind hbody fun _ => hassign _

theorem assign (h : Compositional kept) {expr : Expr} (hvalue : kept (value env place expr))
    (hassign : ∀ value, kept (update (·.assign name value))) :
    kept ((Node.assign name expr place).render env) :=
  h.bind hvalue hassign

end Nodes

end Compositional

end Render

end Liquid
