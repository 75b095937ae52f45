import Liquid.Proofs.Node.Inside
import Liquid.Proofs.Render.Law
import Liquid.Proofs.Render.Scope
import Liquid.Proofs.Render.Visit

/-!
# The Places a Render Comes To

A render goes from node to node, into the bodies of some of them, and there from
node to node again. A place that it comes to is told by the nodes that are left
there, the scope in front of them, and the iterations of the loops around it.
A body of a loop is come to once for each visit, and any other body in the scope
of its node, whichever of them is chosen.

That is how the places are defined, without a look at the run itself. What is
told of a run that is followed is at such places: whenever a node starts to be
rendered, it is the first of those left at one of them.

## Main definitions

* `Iteration`: A loop at one of its items.
* `Node.Enters`: The bodies of a node, and how they are come to.
* `Inside`: The places that a render of nodes may come to.

## Theorems

* `Followed.mem_events_each`: What a loop tells is told in one of its visits.
* `Followed.enters_of_execution`: What a node tells is told in a body it enters.
* `Inside.of_execution`: Every node is executed at such a place.
-/

namespace Liquid

/-- A loop at one of its items: all that it has selected, and the number of the one it is at. -/
structure Iteration where
  items : List Value
  index : Nat

/-- How a node that starts in a scope comes to one of its bodies: to that of a loop or a table in
each of its visits, and to any other one as it is. -/
inductive Node.Enters (env : Environment) (scope : Scope) :
    Node → Option Iteration → List Node → Scope → Prop
  | part {node : Node} {part : Nat} {body : List Node} :
      node.bodies[part]? = some body → Node.isMainBody (node, part) = false →
      Enters env scope node none body scope
  | item {name : String} {selection : Selection} {body : List Node}
      {otherwise : Option (List Node)} {place : Place} {items : List Value} {visit : Visit} :
      (selection.items env scope place).result = .ok items →
      visit ∈ Render.loopVisits name items (renderAll env body) scope →
      Enters env scope (.loop name selection body otherwise place) (some ⟨items, visit.index⟩) body
        visit.scope
  | cell {name : String} {selection : Selection} {columns : Option Expr} {body : List Node}
      {place : Place} {items : List Value} {count : Nat} {visit : Visit} :
      (selection.items env scope place).result = .ok items →
      visit ∈ Render.tableVisits name count items (renderAll env body) scope →
      Enters env scope (.tablerow name selection columns body place) none body visit.scope

/-- Where a render of nodes may come to: to the nodes that are left in some body and the scope in
front of them, inside of iterations from the innermost to the outermost. -/
inductive Inside (env : Environment) :
    List Node → Scope → List Iteration → List Node → Scope → Prop
  | here {nodes : List Node} {scope : Scope} : Inside env nodes scope [] nodes scope
  | past {node : Node} {nodes inner : List Node} {scope state : Scope} {loops : List Iteration} :
      (node.render env scope).exit = .done () →
      Inside env nodes (node.render env scope).scope loops inner state →
      Inside env (node :: nodes) scope loops inner state
  | enter {node : Node} {nodes body inner : List Node} {scope entered state : Scope}
      {iteration : Option Iteration} {loops : List Iteration} :
      node.Enters env scope iteration body entered → Inside env body entered loops inner state →
      Inside env (node :: nodes) scope (loops ++ iteration.toList) inner state

namespace Followed

open Render (Moves visitTo visits)

variable {α β : Type} {env : Environment} {hooks : Hooks env} {node inner : Node} {place : Place}
  {scope state : Scope}

/-- Whether a step tells of no execution, but of evaluations at most. -/
def Evaluates (x : Followed α) : Prop :=
  ∀ scope inner state, .execution inner state ∉ x.events scope

section Evaluates

theorem evaluates_silent (x : Render α) : Evaluates (silent x) :=
  fun _ _ _ h => nomatch h

/-- Steps that only evaluate do so one after the other. -/
theorem Evaluates.bind {x : Followed α} {f : α → Followed β} (hx : Evaluates x)
    (hf : ∀ a, Evaluates (f a)) : Evaluates (x >>= f) := by
  intro scope inner state h
  rcases mem_events_bind h with h | ⟨a, _, h⟩
  · exact hx _ _ _ h
  · exact hf a _ _ _ h

theorem evaluates_value (expr : Expr) : Evaluates (value env node place expr) := by
  intro scope inner state h
  cases List.mem_singleton.mp h

theorem evaluates_isAnyOf (subject : Value) (exprs : List Expr) :
    Evaluates (isAnyOf env node place subject exprs) := by
  induction exprs with
  | nil => exact evaluates_silent _
  | cons expr exprs ih =>
      refine (evaluates_value expr).bind fun value => ?_
      split
      · exact evaluates_silent _
      · exact ih

theorem evaluates_option (expr : Option Expr) : Evaluates (option env node place expr) := by
  cases expr with
  | none => exact evaluates_silent _
  | some expr => exact (evaluates_value expr).bind fun _ => evaluates_silent _

theorem evaluates_items (selection : Selection) : Evaluates (items env node place selection) :=
  (evaluates_value _).bind fun _ => (evaluates_silent _).bind fun _ =>
    (evaluates_option _).bind fun _ => (evaluates_option _).bind fun _ => evaluates_silent _

theorem evaluates_cycle (values : List Expr) (group : Option Expr) :
    Evaluates (cycle env node place values group) :=
  cycle_of_steps evaluates_silent Evaluates.bind evaluates_value values group

/-- What is executed behind an evaluation that leaves the scope alone is executed in that scope. -/
theorem execution_behind {x : Followed α} {f : α → Followed β} (hx : Evaluates x)
    (hscope : (x.step scope).scope = scope) (h : .execution inner state ∈ (x >>= f).events scope) :
    ∃ a, (x.step scope).exit = .done a ∧ .execution inner state ∈ (f a).events scope := by
  rcases mem_events_bind h with h | ⟨a, hdone, h⟩
  · exact absurd h (hx _ _ _)
  · exact ⟨a, hdone, hscope ▸ h⟩

end Evaluates

section Loops

variable {enter : Nat → Value → Scope → Scope} {body : Followed Unit}
  {visit : Nat → Value → Followed Bool} {event : Event}

/-- What a loop tells is told by its body in one of the visits. -/
theorem mem_events_each
    (hevents : ∀ index item scope,
      (visit index item).events scope = body.events (enter index item scope))
    (hexit : ∀ index item scope, ((visit index item).step scope).exit =
      (visitTo enter body.step index item scope).left)
    (hscope : ∀ index item scope, ((visit index item).step scope).scope =
      (visitTo enter body.step index item scope).outcome.scope)
    {index : Nat} {items : List Value} (h : event ∈ (each visit index items).events scope) :
    ∃ done ∈ visits enter body.step index items scope, event ∈ body.events done.scope := by
  induction items generalizing index scope with
  | nil => cases h
  | cons item items ih =>
      rw [Render.visits_cons]
      -- An event is one of the first visit, or of those behind it if the first goes on.
      rcases mem_events_bind h with h | ⟨left, hleft, h⟩
      · rw [hevents] at h
        exact ⟨_, List.mem_cons_self, h⟩
      · rw [hexit] at hleft
        rw [hscope] at h
        cases left with
        | true => cases h
        | false =>
            have hgoes : (visitTo enter body.step index item scope).goesOn = true := by
              unfold Visit.left at hleft
              unfold Visit.goesOn
              split at hleft <;> simp_all
            rcases ih h with ⟨done, hdone, hevent⟩
            rw [hgoes, if_pos rfl]
            exact ⟨done, List.mem_cons_of_mem _ hdone, hevent⟩

/-- An event of a loop is one of its visits. -/
theorem mem_events_loop {name : String} {items : List Value}
    (h : event ∈ (loop name items body).events scope) :
    ∃ done ∈ Render.loopVisits name items body.step scope, event ∈ body.events done.scope := by
  rcases mem_events_bind h with h | ⟨outside, hdone, h⟩
  · cases h
  · cases hdone
    have hvisit := @Render.iteration_eq_visitTo body.step
      (Render.enterLoop name items.length (scope.lookup "forloop"))
    exact mem_events_each (fun _ _ _ => rfl)
      (fun index item before => congrArg Outcome.exit (hvisit index item before))
      (fun index item before => congrArg Outcome.scope (hvisit index item before)) h

/-- An event of a table is one of its visits. -/
theorem mem_events_table {name : String} {columns : Nat} {items : List Value}
    (h : event ∈ (table name columns items body).events scope) :
    ∃ done ∈ Render.tableVisits name columns items body.step scope,
      event ∈ body.events done.scope := by
  have hcell := @Render.cell_eq_visitTo name body.step columns items.length
  exact mem_events_each (fun _ _ _ => rfl)
    (fun index item before => congrArg Outcome.exit (hcell index item before))
    (fun index item before => congrArg Outcome.scope (hcell index item before)) h

end Loops

section Nodes

/-- Nodes are executed in a branch that holds, or in the else. -/
theorem execution_branches {otherwise : Followed Unit} {branches : List (Branch Node)}
    (h : .execution inner state ∈
      (followedBranches env hooks node place otherwise branches).events scope) :
    .execution inner state ∈ otherwise.events scope ∨ ∃ branch ∈ branches,
      .execution inner state ∈ (followedAll env hooks branch.body).events scope := by
  induction branches with
  | nil => exact .inl h
  | cons branch branches ih =>
      -- A condition runs no node, so the event is in the body it decides for.
      rcases execution_behind (evaluates_value branch.condition) rfl h with ⟨value, _, h⟩
      split at h
      · exact .inr ⟨branch, List.mem_cons_self, h⟩
      · rcases ih h with h | ⟨other, hother, h⟩
        · exact .inl h
        · exact .inr ⟨other, List.mem_cons_of_mem _ hother, h⟩

/-- Comparing does not write. -/
theorem scope_isAnyOf (subject : Value) (exprs : List Expr) :
    ((isAnyOf env node place subject exprs).step scope).scope = scope := by
  rw [step_isAnyOf]
  have h := @Render.compositional_moves (fun before after => after = before)
    (fun _ => rfl) fun h h' => h'.trans h
  exact h.isAnyOf subject exprs (fun _ _ _ => rfl) scope

/-- Nodes are executed in a when that holds, or in the else. -/
theorem execution_whens {otherwise : Followed Unit} {subject : Value} {whens : List (When Node)}
    (h : .execution inner state ∈
      (followedWhens env hooks node place subject otherwise whens).events scope) :
    .execution inner state ∈ otherwise.events scope ∨ ∃ part ∈ whens,
      .execution inner state ∈ (followedAll env hooks part.body).events scope := by
  induction whens with
  | nil => exact .inl h
  | cons part whens ih =>
      -- The values run no node, so the event is in the body they decide for.
      rcases execution_behind (evaluates_isAnyOf subject part.values) (scope_isAnyOf _ _) h with
        ⟨found, _, h⟩
      split at h
      · exact .inr ⟨part, List.mem_cons_self, h⟩
      · rcases ih h with h | ⟨other, hother, h⟩
        · exact .inl h
        · exact .inr ⟨other, List.mem_cons_of_mem _ hother, h⟩

/-- The items that a loop goes over are those of its selection. -/
theorem result_of_items {selection : Selection} {items : List Value}
    (h : ((Followed.items env node place selection).step scope).exit = .done items) :
    (selection.items env scope place).result = .ok items := by
  rw [step_items] at h
  cases hresult : (selection.items env scope place).result with
  | ok found =>
      simp only [Render.evaluated, hresult, Exit.done.injEq] at h
      rw [h]
  | error fault => simp only [Render.evaluated, hresult, reduceCtorEq] at h

theorem scope_items (selection : Selection) :
    ((Followed.items env node place selection).step scope).scope = scope := by
  rw [step_items]
  rfl

/-- Nodes are executed in an else only if there is one. -/
theorem execution_otherwise {otherwise : Option (List Node)}
    (h : .execution inner state ∈ (followedOption env hooks otherwise).events scope) :
    ∃ body ∈ otherwise, .execution inner state ∈ (followedAll env hooks body).events scope := by
  cases otherwise with
  | none => cases h
  | some body => exact ⟨body, rfl, h⟩

/-- What is executed in a node is executed in a body that it enters. -/
theorem enters_of_execution (hcustom : node.isCustom = false)
    (h : .execution inner state ∈ (node.followed env hooks).events scope) :
    ∃ iteration body entered, node.Enters env scope iteration body entered ∧
      .execution inner state ∈ (followedAll env hooks body).events entered := by
  -- Most bodies are come to in the scope of the node.
  have hpart (body : List Node) (hbody : body ∈ node.bodies)
      (hmain : ∀ part, node.bodies[part]? = some body → Node.isMainBody (node, part) = false)
      (hexecution : .execution inner state ∈ (followedAll env hooks body).events scope) :
      ∃ iteration body entered, node.Enters env scope iteration body entered ∧
        .execution inner state ∈ (followedAll env hooks body).events entered := by
    rcases List.mem_iff_getElem?.mp hbody with ⟨part, hpart⟩
    exact ⟨none, body, scope, .part hpart (hmain part hpart), hexecution⟩
  cases node with
  | text text => cases h
  | output expr place =>
      exact absurd h (((evaluates_value expr).bind fun _ => evaluates_silent _) _ _ _)
  | echo expr place =>
      exact absurd h (((evaluates_value expr).bind fun _ => evaluates_silent _) _ _ _)
  | conditional branches otherwise place =>
      rw [Node.followed] at h
      rcases execution_branches h with h | ⟨branch, hbranch, h⟩
      · rcases execution_otherwise h with ⟨body, hbody, h⟩
        exact hpart body (List.mem_append_right _ (Option.mem_toList.mpr hbody)) (fun _ _ => rfl) h
      · exact hpart _ (List.mem_append_left _ (List.mem_map_of_mem hbranch)) (fun _ _ => rfl) h
  | choice subject whens otherwise place =>
      rw [Node.followed] at h
      rcases execution_behind (evaluates_value subject) rfl h with ⟨value, _, h⟩
      rcases execution_whens h with h | ⟨part, hwhen, h⟩
      · rcases execution_otherwise h with ⟨body, hbody, h⟩
        exact hpart body (List.mem_append_right _ (Option.mem_toList.mpr hbody)) (fun _ _ => rfl) h
      · exact hpart _ (List.mem_append_left _ (List.mem_map_of_mem hwhen)) (fun _ _ => rfl) h
  | loop name selection body otherwise place =>
      rw [Node.followed] at h
      rcases execution_behind (evaluates_items selection) (scope_items selection) h with
        ⟨items, hitems, h⟩
      split at h
      · rcases execution_otherwise h with ⟨other, hother, h⟩
        cases hother
        exact ⟨none, other, scope, @Node.Enters.part env scope _ 1 other rfl rfl, h⟩
      · rcases mem_events_loop h with ⟨visit, hvisit, h⟩
        rw [step_followedAll] at hvisit
        exact ⟨_, body, visit.scope, .item (result_of_items hitems) hvisit, h⟩
  | tablerow name selection columns body place =>
      rw [Node.followed] at h
      rcases execution_behind (evaluates_items selection) (scope_items selection) h with
        ⟨items, hitems, h⟩
      split at h
      · cases h
      · rcases execution_behind (evaluates_option columns)
          (by rw [step_option]; rfl) h with ⟨asked, _, h⟩
        rcases mem_events_table h with ⟨visit, hvisit, h⟩
        rw [step_followedAll] at hvisit
        exact ⟨none, body, visit.scope, .cell (result_of_items hitems) hvisit, h⟩
  | breakLoop => cases h
  | continueLoop => cases h
  | cycle values group place => exact absurd h (evaluates_cycle values group _ _ _)
  | capture name body =>
      rw [Node.followed] at h
      rcases mem_events_bind h with h | ⟨_, _, h⟩
      · exact hpart body List.mem_cons_self (fun _ _ => rfl) h
      · cases h
  | assign name expr place =>
      exact absurd h (((evaluates_value expr).bind fun _ => evaluates_silent _) _ _ _)
  | increment name => cases h
  | decrement name => cases h
  | custom => cases hcustom

end Nodes

end Followed

namespace Inside

open Followed (enters_of_execution mem_events_bind)

variable {env : Environment} {hooks : Hooks env} {nodes : List Node} {inner : Node}
  {scope state : Scope}

/-- From the nodes of a body to the body: a node that is executed is one of them, or is executed in
one of them. -/
theorem of_nodes
    (hnodes : ∀ node ∈ nodes, ∀ scope,
      .execution inner state ∈ (node.followed env hooks).events scope →
      ∃ iteration body entered loops rest, node.Enters env scope iteration body entered ∧
        Inside env body entered loops (inner :: rest) state)
    (h : .execution inner state ∈ (followedAll env hooks nodes).events scope) :
    ∃ loops rest, Inside env nodes scope loops (inner :: rest) state := by
  induction nodes generalizing scope with
  | nil => cases h
  | cons node nodes ih =>
      -- The event is one of the first node, or the first is done and it is one behind it.
      rcases mem_events_bind h with h | ⟨_, hdone, h⟩
      · rcases List.mem_cons.mp h with heq | h
        · cases heq
          exact ⟨[], nodes, .here⟩
        · rcases hnodes node List.mem_cons_self scope h with
            ⟨iteration, body, entered, loops, rest, henters, hinside⟩
          exact ⟨_, rest, .enter henters hinside⟩
      · have hstep : (node.followed env hooks).step = node.render env :=
          node.step_followed env hooks
        change ((node.followed env hooks).step scope).exit = _ at hdone
        change .execution inner state ∈
          (followedAll env hooks nodes).events ((node.followed env hooks).step scope).scope at h
        rw [hstep] at hdone h
        rcases ih (fun other hother => hnodes other (List.mem_cons_of_mem _ hother)) h with
          ⟨loops, rest, hinside⟩
        exact ⟨loops, rest, .past hdone hinside⟩

/-- What is executed inside of a node is executed in one of its bodies. -/
theorem of_node (node : Node) (hcustom : ∀ other ∈ node.all, other.isCustom = false)
    (h : .execution inner state ∈ (node.followed env hooks).events scope) :
    ∃ iteration body entered loops rest, node.Enters env scope iteration body entered ∧
      Inside env body entered loops (inner :: rest) state := by
  induction node using Node.byBodies generalizing scope with
  | step node ih =>
      rcases enters_of_execution (hcustom node node.mem_all_self) h with
        ⟨iteration, body, entered, henters, h⟩
      -- The body that is entered is one of the node, so the hypothesis is about it.
      have hbody : body ∈ node.bodies := by
        cases henters with
        | part hbody _ => exact List.mem_of_getElem? hbody
        | item _ _ => exact List.mem_cons_self
        | cell _ _ => exact List.mem_cons_self
      rcases of_nodes (fun child hchild scope h => ih body hbody child hchild
        (fun other hother => hcustom other
          (Node.mem_all_of_mem_body hbody (Node.mem_allOf_of_mem hchild hother))) h) h with
        ⟨loops, rest, hinside⟩
      exact ⟨iteration, body, entered, loops, rest, henters, hinside⟩

/-- Whenever a node of a tree without nodes of the host starts to be rendered, it is the first of
those left at a place that the render may come to. -/
theorem of_execution (hbuiltIn : Node.BuiltIn nodes)
    (h : .execution inner state ∈ (followedAll env hooks nodes).events scope) :
    ∃ loops rest, Inside env nodes scope loops (inner :: rest) state :=
  of_nodes (fun node hnode _ h => of_node node
    (fun other hother => hbuiltIn other (Node.mem_allOf_of_mem hnode hother)) h) h

end Inside

end Liquid
