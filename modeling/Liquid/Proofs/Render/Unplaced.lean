import Liquid.Node.Render
import Liquid.Proofs.Node.Inside
import Liquid.Proofs.Node.Shift

/-!
# Rendering without Places

A place in a tree has one use: it is told by an error of the node that has it.
So whatever is done with a node may be compared with what is done with another
one that stands elsewhere, once the places of errors are taken away on both
sides. What a fault is about stays, and so do the chunks and the scope.

Taking places away goes through whatever steps are put together by. A property
of steps that is an equation between steps without places can therefore be
carried from the parts of a tree to the tree by rewriting. That a text in front
of a source changes nothing but places is the first use of this.

## Main definitions

* `EvalFault.unplaced`, `Outcome.unplaced`, `Render.unplaced`: Faults, and what
  may have them, without places.

## Theorems

* `Expr.eval_unplaced`: The place of an expression is told by its faults only.
* `Render.unplaced_bind`, `Render.unplaced_value`: Steps without places.
* `Render.unplaced_shifted`: A tree that is moved renders as it did.
-/

namespace Liquid

/-- The fault without its place. -/
def EvalFault.unplaced : EvalFault → EvalFault
  | .render fault => .render { fault with place := none }
  | .crash cause => .crash cause

namespace Noted

variable {ε δ γ α β : Type}

/-- A change of faults goes through steps. -/
theorem mapFault_bind (f : ε → δ) (x : Noted ε α) (next : α → Noted ε β) :
    (x >>= next).mapFault f = x.mapFault f >>= fun a => (next a).mapFault f := by
  change (Noted.bind x next).mapFault f = Noted.bind (x.mapFault f) fun a => (next a).mapFault f
  unfold Noted.bind mapFault
  cases x.result <;> rfl

theorem mapFault_mapFault (f : ε → δ) (g : δ → γ) (x : Noted ε α) :
    (x.mapFault f).mapFault g = x.mapFault (g ∘ f) := by
  unfold mapFault
  cases x.result <;> rfl

end Noted

section Eval

variable {env : Environment} {scope : Scope} {place : Option Place}

/-- A filter that fails tells its name, whatever the place is. -/
theorem unplaced_placed (name : String) :
    EvalFault.unplaced ∘ FilterFailure.placed name place = FilterFailure.placed name none := by
  funext failure
  cases failure <;> rfl

mutual

/-- The place of an expression is in its faults, and nowhere else. -/
theorem Expr.eval_unplaced (expr : Expr) :
    (expr.eval env scope place).mapFault EvalFault.unplaced = expr.eval env scope none := by
  -- The place is handed on to each part, and only faults have it.
  match expr with
  | .literal value => rfl
  | .path root steps =>
      simp only [Expr.eval, Noted.mapFault_bind, keysOf_unplaced steps, Noted.mapFault_mapFault]
      rfl
  | .range start stop =>
      simp only [Expr.eval, Noted.mapFault_bind, Expr.eval_unplaced start,
        Expr.eval_unplaced stop]
      rfl
  | .filtered base chain =>
      simp only [Expr.eval, Noted.mapFault_bind, Expr.eval_unplaced base,
        applyChain_unplaced _ chain]
  | .binary op lhs rhs =>
      simp only [Expr.eval]
      cases env.operators.get? op with
      | none => rfl
      | some operator =>
          simp only [Noted.mapFault_bind, Expr.eval_unplaced lhs, Expr.eval_unplaced rhs]
          rfl

theorem Accessor.eval_unplaced (step : Accessor) :
    (step.eval env scope place).mapFault EvalFault.unplaced = step.eval env scope none := by
  match step with
  | .field name => rfl
  | .index index => rfl
  | .key key =>
      simp only [Accessor.eval, Noted.mapFault_bind, Expr.eval_unplaced key]
      rfl

/-- The arguments of a filter have the place of the call. -/
theorem FilterCall.eval_unplaced (value : Value) (call : FilterCall) :
    (call.eval env scope place value).mapFault EvalFault.unplaced =
      call.eval env scope none value := by
  match call with
  | .call name args options =>
      simp only [FilterCall.eval]
      cases env.filters.get? name with
      | none => rfl
      | some filter =>
          simp only [Noted.mapFault_bind, valuesOf_unplaced args, optionsOf_unplaced options,
            Noted.mapFault_mapFault, unplaced_placed]

theorem keysOf_unplaced (steps : List Accessor) :
    (keysOf env scope place steps).mapFault EvalFault.unplaced = keysOf env scope none steps := by
  match steps with
  | [] => rfl
  | step :: steps =>
      simp only [keysOf, Noted.mapFault_bind, Accessor.eval_unplaced step, keysOf_unplaced steps]
      rfl

theorem applyChain_unplaced (value : Value) (calls : List FilterCall) :
    (applyChain env scope place value calls).mapFault EvalFault.unplaced =
      applyChain env scope none value calls := by
  match calls with
  | [] => rfl
  | call :: calls =>
      simp only [applyChain, Noted.mapFault_bind, FilterCall.eval_unplaced value call,
        applyChain_unplaced _ calls]

theorem valuesOf_unplaced (args : List Expr) :
    (valuesOf env scope place args).mapFault EvalFault.unplaced = valuesOf env scope none args := by
  match args with
  | [] => rfl
  | arg :: args =>
      simp only [valuesOf, Noted.mapFault_bind, Expr.eval_unplaced arg, valuesOf_unplaced args]
      rfl

theorem optionsOf_unplaced (options : List (String × Expr)) :
    (optionsOf env scope place options).mapFault EvalFault.unplaced =
      optionsOf env scope none options := by
  match options with
  | [] => rfl
  | (name, option) :: options =>
      simp only [optionsOf, Noted.mapFault_bind, Expr.eval_unplaced option,
        optionsOf_unplaced options]
      rfl

end

/-- An expression has its value wherever it stands. -/
theorem Expr.eval_eq_ok_iff {expr : Expr} {value : Value} :
    (expr.eval env scope place).result = .ok value ↔
      (expr.eval env scope none).result = .ok value := by
  rw [← @Expr.eval_unplaced env scope place expr]
  exact mapError_eq_ok_iff.symm

end Eval

/-- The way a step ends, without the place of a fault. -/
def Exit.unplaced {α : Type} : Exit α → Exit α
  | .failed fault => .failed fault.unplaced
  | exit => exit

/-- What a step did, without the place of a fault. -/
def Outcome.unplaced {α : Type} (outcome : Outcome α) : Outcome α :=
  { outcome with exit := outcome.exit.unplaced }

namespace Render

variable {α β : Type} {x y : Render α} {body body' : Render Unit}

/-- The step without the places of its faults. -/
def unplaced (x : Render α) : Render α :=
  fun scope => (x scope).unplaced

/-- Going on from a result, without places. -/
theorem unplaced_bind (x : Render α) (f : α → Render β) :
    (x >>= f).unplaced = x.unplaced >>= fun a => (f a).unplaced := by
  change (bind x f).unplaced = bind x.unplaced fun a => (f a).unplaced
  funext scope
  simp only [unplaced, bind, Outcome.unplaced]
  cases hexit : (x scope).exit <;> rfl

theorem unplaced_evaluated (eval : Scope → Noted EvalFault α) :
    (evaluated eval).unplaced =
      evaluated fun scope => (eval scope).mapFault EvalFault.unplaced := by
  funext scope
  simp only [unplaced, evaluated, Outcome.unplaced, Noted.mapFault]
  cases (eval scope).result <;> rfl

/-- The place at which a value is asked for. -/
theorem unplaced_value (env : Environment) (place : Place) (expr : Expr) :
    (value env place expr).unplaced = evaluated fun scope => expr.eval env scope none := by
  rw [value, unplaced_evaluated]
  simp only [Expr.eval_unplaced]

theorem unplaced_captured (h : body.unplaced = body'.unplaced) :
    (captured body).unplaced = (captured body').unplaced := by
  have hcaptured (body : Render Unit) : (captured body).unplaced = captured body.unplaced := by
    funext scope
    simp only [unplaced, captured, Outcome.unplaced]
    cases hexit : (body scope).exit <;> rfl
  rw [hcaptured, h, hcaptured]

theorem unplaced_iteration (h : body.unplaced = body'.unplaced) :
    (iteration body).unplaced = (iteration body').unplaced := by
  have hiteration (body : Render Unit) : (iteration body).unplaced = iteration body.unplaced := by
    funext scope
    simp only [unplaced, iteration, Outcome.unplaced]
    cases hexit : (body scope).exit <;> rfl
  rw [hiteration, h, hiteration]

theorem unplaced_framed (frame : Table Value) (h : x.unplaced = y.unplaced) :
    (framed frame x).unplaced = (framed frame y).unplaced := by
  have hframed (x : Render α) : (framed frame x).unplaced = framed frame x.unplaced := rfl
  rw [hframed, h, hframed]

theorem unplaced_ite (condition : Bool) (x y : Render α) :
    (if condition then x else y).unplaced = if condition then x.unplaced else y.unplaced := by
  cases condition <;> rfl

/-- Visits that differ in places are the same without them. -/
theorem unplaced_each {visit visit' : Nat → Value → Render Bool}
    (h : ∀ index item, (visit index item).unplaced = (visit' index item).unplaced) (index : Nat)
    (items : List Value) :
    (each visit index items).unplaced = (each visit' index items).unplaced := by
  induction items generalizing index with
  | nil => rfl
  | cons item items ih =>
      simp only [each, unplaced_bind, unplaced_ite, h, ih]

/-- So are loops. -/
theorem unplaced_loop (name : String) (items : List Value) (h : body.unplaced = body'.unplaced) :
    (loop name items body).unplaced = (loop name items body').unplaced := by
  unfold loop
  rw [unplaced_bind, unplaced_bind]
  congr 1
  funext scope
  refine unplaced_framed [] (unplaced_each (fun index item => ?_) 0 items)
  simp only [unplaced_bind, unplaced_iteration h]

theorem unplaced_cell (name : String) (columns : Nat) (position : Position) (item : Value)
    (h : body.unplaced = body'.unplaced) :
    (cell name columns position item body).unplaced =
      (cell name columns position item body').unplaced := by
  unfold cell
  dsimp only
  -- The row is opened in front of the cell, or not.
  split
  · simp only [unplaced_bind, unplaced_iteration h]
  · simp only [unplaced_bind, unplaced_iteration h]

/-- So are tables. -/
theorem unplaced_table (name : String) (columns : Nat) (items : List Value)
    (h : body.unplaced = body'.unplaced) :
    (table name columns items body).unplaced = (table name columns items body').unplaced :=
  unplaced_framed [] (unplaced_each (fun _ item => unplaced_cell name columns _ item h) 0 items)

theorem unplaced_display (env : Environment) (place place' : Place) (expr : Expr) :
    (display env place expr).unplaced = (display env place' expr).unplaced := by
  simp only [display, unplaced_bind, unplaced_value]

theorem unplaced_isAnyOf (env : Environment) (place place' : Place) (subject : Value)
    (exprs : List Expr) :
    (isAnyOf env place subject exprs).unplaced = (isAnyOf env place' subject exprs).unplaced := by
  induction exprs with
  | nil => rfl
  | cons expr exprs ih => simp only [isAnyOf, unplaced_bind, unplaced_value, unplaced_ite, ih]

theorem unplaced_cycleKey (env : Environment) (place place' : Place) (values : List Expr)
    (group : Option Expr) :
    (cycleKey env place values group).unplaced = (cycleKey env place' values group).unplaced := by
  cases group with
  | none => rfl
  | some group => simp only [cycleKey, unplaced_bind, unplaced_value]

theorem evalOption_unplaced (env : Environment) (scope : Scope) (place place' : Place)
    (option : Option Expr) :
    (Selection.evalOption env scope place option).mapFault EvalFault.unplaced =
      (Selection.evalOption env scope place' option).mapFault EvalFault.unplaced := by
  cases option with
  | none => rfl
  | some expr => simp only [Selection.evalOption, Noted.mapFault_bind, Expr.eval_unplaced]

theorem unplaced_option (env : Environment) (place place' : Place) (option : Option Expr) :
    (evaluated fun scope => Selection.evalOption env scope place option).unplaced =
      (evaluated fun scope => Selection.evalOption env scope place' option).unplaced := by
  simp only [unplaced_evaluated, evalOption_unplaced env _ place place']

theorem unplaced_items (env : Environment) (place place' : Place) (selection : Selection) :
    (evaluated fun scope => selection.items env scope place).unplaced =
      (evaluated fun scope => selection.items env scope place').unplaced := by
  simp only [unplaced_evaluated, Selection.items, Noted.mapFault_bind, Expr.eval_unplaced,
    evalOption_unplaced env _ place place']

section Trees

variable {env : Environment} {used : List Char}

/-- So are lists of nodes. -/
theorem unplaced_all {f : Node → Node} {nodes : List Node}
    (h : ∀ node ∈ nodes, ((f node).render env).unplaced = (node.render env).unplaced) :
    (renderAll env (nodes.map f)).unplaced = (renderAll env nodes).unplaced := by
  induction nodes with
  | nil => rfl
  | cons node nodes ih =>
      rw [List.forall_mem_cons] at h
      simp only [List.map_cons, renderAll, unplaced_bind, h.1, ih h.2]

theorem unplaced_otherwise {f : Node → Node} {body : Option (List Node)}
    (h : ∀ nodes ∈ body, (renderAll env (nodes.map f)).unplaced = (renderAll env nodes).unplaced) :
    (renderOption env (body.map (List.map f))).unplaced = (renderOption env body).unplaced := by
  cases body with
  | none => rfl
  | some nodes => exact h nodes rfl

/-- The branches of two conditionals with the same conditions, and bodies that do the same. -/
theorem unplaced_branches {place place' : Place} {otherwise otherwise' : Render Unit}
    (hotherwise : otherwise.unplaced = otherwise'.unplaced)
    {branches branches' : List (Branch Node)}
    (h : List.Forall₂ (fun branch branch' => branch.condition = branch'.condition ∧
      branch.negated = branch'.negated ∧
      (renderAll env branch.body).unplaced = (renderAll env branch'.body).unplaced)
      branches branches') :
    (renderBranches env place otherwise branches).unplaced =
      (renderBranches env place' otherwise' branches').unplaced := by
  -- The branches agree one by one in all but their places.
  induction h with
  | nil => exact hotherwise
  | cons hbranch _ ih =>
      rcases hbranch with ⟨hcondition, hnegated, hbody⟩
      simp only [renderBranches, unplaced_bind, unplaced_value, unplaced_ite, hcondition, hnegated,
        hbody, ih]

/-- The parts of two choices with the same values, and bodies that do the same. -/
theorem unplaced_whens {place place' : Place} (subject : Value) {otherwise otherwise' : Render Unit}
    (hotherwise : otherwise.unplaced = otherwise'.unplaced) {whens whens' : List (When Node)}
    (h : List.Forall₂ (fun part part' => part.values = part'.values ∧
      (renderAll env part.body).unplaced = (renderAll env part'.body).unplaced) whens whens') :
    (renderWhens env place subject otherwise whens).unplaced =
      (renderWhens env place' subject otherwise' whens').unplaced := by
  induction h with
  | nil => exact hotherwise
  | cons hpart _ ih =>
      rcases hpart with ⟨hvalues, hbody⟩
      simp only [renderWhens, unplaced_bind, unplaced_ite, hvalues, hbody, ih,
        unplaced_isAnyOf env place place']

/-- A node without nodes of the host in it does the same behind a text. -/
theorem unplaced_shifted (node : Node) (hbuiltIn : ∀ inner ∈ node.all, inner.isCustom = false) :
    ((node.shifted used).render env).unplaced = (node.render env).unplaced := by
  -- By the bodies of the node, which are moved with it.
  induction node using Node.byBodies with
  | step node ih =>
      have hbody : ∀ body ∈ node.bodies,
          (renderAll env (body.map (Node.shifted used))).unplaced =
            (renderAll env body).unplaced := by
        intro body hbody
        refine unplaced_all fun child hmem => ih body hbody child hmem fun inner hinner => ?_
        exact hbuiltIn inner (Node.mem_all_of_mem_body hbody (Node.mem_allOf_of_mem hmem hinner))
      -- A kind of node after the other. Moving it changes its place, and those of its bodies.
      cases node with
      | text text => rfl
      | output expr place => exact unplaced_display env _ place expr
      | echo expr place => exact unplaced_display env _ place expr
      | conditional branches otherwise place =>
          simp only [Node.shifted, Node.shiftedBranches_eq_map, Node.shiftedOption_eq_map,
            Node.render]
          refine unplaced_branches (unplaced_otherwise fun nodes hnodes => hbody nodes ?_) ?_
          · exact List.mem_append_right _ (Option.mem_toList.mpr hnodes)
          · rw [List.forall₂_map_left_iff, List.forall₂_same]
            exact fun branch hmem =>
              ⟨rfl, rfl, hbody _ (List.mem_append_left _ (List.mem_map_of_mem hmem))⟩
      | choice subject whens otherwise place =>
          simp only [Node.shifted, Node.shiftedWhens_eq_map, Node.shiftedOption_eq_map, Node.render,
            unplaced_bind, unplaced_value]
          congr 1
          funext subject
          refine unplaced_whens subject (unplaced_otherwise fun nodes hnodes => hbody nodes ?_) ?_
          · exact List.mem_append_right _ (Option.mem_toList.mpr hnodes)
          · rw [List.forall₂_map_left_iff, List.forall₂_same]
            exact fun part hmem =>
              ⟨rfl, hbody _ (List.mem_append_left _ (List.mem_map_of_mem hmem))⟩
      | loop name selection body otherwise place =>
          have hotherwise := unplaced_otherwise fun nodes hnodes =>
            hbody nodes (List.mem_cons_of_mem _ (Option.mem_toList.mpr hnodes))
          simp only [Node.shifted, Node.shiftedAll_eq_map, Node.shiftedOption_eq_map, Node.render,
            unplaced_bind, unplaced_ite, hotherwise,
            unplaced_loop _ _ (hbody body List.mem_cons_self),
            unplaced_items env (place.shifted used) place]
      | tablerow name selection columns body place =>
          simp only [Node.shifted, Node.shiftedAll_eq_map, Node.render, unplaced_bind, unplaced_ite,
            unplaced_table _ _ _ (hbody body List.mem_cons_self),
            unplaced_items env (place.shifted used) place,
            unplaced_option env (place.shifted used) place]
      | breakLoop => rfl
      | continueLoop => rfl
      | cycle values group place =>
          simp only [Node.shifted, Node.render, unplaced_bind,
            unplaced_cycleKey env (place.shifted used) place,
            unplaced_display env (place.shifted used) place]
      | capture name body =>
          simp only [Node.shifted, Node.shiftedAll_eq_map, Node.render, unplaced_bind,
            unplaced_captured (hbody body List.mem_cons_self)]
      | assign name expr place =>
          simp only [Node.shifted, Node.render, unplaced_bind, unplaced_value]
      | increment name => rfl
      | decrement name => rfl
      | custom tag payload children place =>
          cases hbuiltIn _ (Node.mem_all_self _)

end Trees

end Render

end Liquid
