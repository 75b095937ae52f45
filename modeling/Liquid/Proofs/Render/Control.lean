import Liquid.Proofs.Node.Inside
import Liquid.Proofs.Render.Compositional

/-!
# Where Control Goes

Leaving and skipping end every step that they pass, up to the loop that they act
on. That loop ends no differently than if its items had run out. So a step stays
where it is, in the sense that neither of the two gets out of it, if the control
in it stands in the main body of a loop. A tree of such nodes ends by itself or
by a fault.

## Main definitions

* `Render.Stays`: Steps that leave no loop but their own.

## Theorems

* `Render.stays_node`: The nodes that do.
* `Render.stays_renderAll`: The trees that do.
-/

namespace Liquid

namespace Render

/-- Whether the step ends by itself or by a fault, wherever it starts. -/
def Stays {α : Type} (x : Render α) : Prop :=
  ∀ scope, (x scope).exit ≠ .broken ∧ (x scope).exit ≠ .continued

variable {α : Type} {env : Environment} {body : Render Unit} {name : String}

/-- Steps that all stay do so one after the other. -/
theorem compositional_stays : Compositional fun _ x => Stays x where
  done _ _ := ⟨nofun, nofun⟩
  emit _ _ := ⟨nofun, nofun⟩
  bind {α β x f} hx hf := by
    intro scope
    have hfirst := hx scope
    change (Render.bind x f scope).exit ≠ .broken ∧ (Render.bind x f scope).exit ≠ .continued
    unfold Render.bind
    -- The second step runs only where the first is done.
    cases hexit : (x scope).exit with
    | done a =>
        simp only [hexit]
        exact hf a _
    | broken => exact absurd hexit hfirst.1
    | continued => exact absurd hexit hfirst.2
    | failed fault => simp [hexit]

theorem stays_update (f : Scope → Scope) : Stays (update f) :=
  fun _ => ⟨nofun, nofun⟩

theorem stays_evaluated (eval : Scope → Noted EvalFault α) : Stays (evaluated eval) := by
  intro scope
  unfold evaluated
  cases hresult : (eval scope).result <;> simp [hresult]

theorem stays_changed (f : Scope → Except Crash α × Scope) : Stays (changed f) := by
  intro scope
  unfold changed
  cases hresult : (f scope).1 <;> simp [hresult]

theorem stays_captured (h : Stays body) : Stays (captured body) := by
  intro scope
  have hbody := h scope
  unfold captured
  cases hexit : (body scope).exit with
  | done u => simp [hexit]
  | broken => exact absurd hexit hbody.1
  | continued => exact absurd hexit hbody.2
  | failed fault => simp [hexit]

/-- The body of a loop may leave or skip: that is where either ends. -/
theorem stays_iteration (body : Render Unit) : Stays (iteration body) := by
  intro scope
  unfold iteration
  cases hexit : (body scope).exit <;> simp [hexit]

theorem stays_framed {frame : Table Value} {x : Render α} (h : Stays x) : Stays (framed frame x) :=
  fun scope => h (scope.push frame)

/-- A loop takes up every break and continue of its body. -/
theorem stays_loop (items : List Value) (body : Render Unit) : Stays (loop name items body) := by
  have h := compositional_stays
  refine h.bind (fun _ => ⟨nofun, nofun⟩) fun outside => stays_framed (h.each ?_ 0 items)
  exact fun index item => h.bind (stays_update _) fun _ => h.bind (stays_update _) fun _ =>
    stays_iteration body

/-- So does a table. -/
theorem stays_table (columns : Nat) (items : List Value) (body : Render Unit) :
    Stays (table name columns items body) := by
  have h := compositional_stays
  refine stays_framed (h.each (fun index item => ?_) 0 items)
  exact h.cell (fun _ _ => stays_update _) (stays_iteration body)

/-- A node stays if all control in it stands in the main body of a loop. -/
theorem stays_node (node : Node) (hbuiltIn : ∀ inner ∈ node.all, inner.isCustom = false)
    (henclosed : Node.Enclosed [node]) : Stays (node.render env) := by
  have h := compositional_stays
  have hvalue (place : Place) (expr : Expr) : Stays (value env place expr) := stays_evaluated _
  induction node using Node.byBodies with
  | step node ih =>
      -- What stands in the main body of a loop is not looked at.
      have hchild : ∀ part body, node.bodies[part]? = some body →
          Node.isMainBody (node, part) = false → ∀ child ∈ body, Stays (child.render env) := by
        intro part body hbody hmain child hmem
        have hbody' := List.mem_of_getElem? hbody
        refine ih body hbody' child hmem (fun inner hinner => hbuiltIn inner ?_)
          (henclosed.child hbody hmain hmem)
        exact Node.mem_all_of_mem_body hbody' (Node.mem_allOf_of_mem hmem hinner)
      have hall (hmain : ∀ part, Node.isMainBody (node, part) = false) :
          ∀ body ∈ node.bodies, ∀ child ∈ body, Stays (child.render env) := by
        intro body hbody
        rcases List.mem_iff_getElem?.mp hbody with ⟨part, hpart⟩
        exact hchild part body hpart (hmain part)
      cases node with
      | text text => exact h.emit text
      | output expr place => exact h.display (hvalue place expr)
      | echo expr place => exact h.display (hvalue place expr)
      | conditional branches otherwise place =>
          exact h.conditional (fun _ _ => hvalue _ _) (hall fun _ => rfl)
      | choice subject whens otherwise place =>
          exact h.choice (fun _ _ => hvalue _ _) (hall fun _ => rfl)
      | loop name selection body otherwise place =>
          refine h.loop (stays_evaluated _) ?_ fun items => stays_loop items _
          intro nodes hnodes
          cases hnodes
          exact hchild 1 nodes rfl rfl
      | tablerow name selection columns body place =>
          exact h.tablerow (stays_evaluated _) (stays_evaluated _) fun _ items =>
            stays_table _ items _
      | breakLoop =>
          rcases henclosed _ [] (.here List.mem_cons_self) rfl with ⟨outer, houter, _⟩
          cases houter
      | continueLoop =>
          rcases henclosed _ [] (.here List.mem_cons_self) rfl with ⟨outer, houter, _⟩
          cases houter
      | cycle values group place =>
          exact h.cycle (fun _ _ => hvalue _ _) (fun _ => hvalue _ _) fun _ => stays_changed _
      | capture name body =>
          refine h.capture (stays_captured ?_) fun _ => stays_update _
          exact h.renderAll body (hall (fun _ => rfl) body List.mem_cons_self)
      | assign name expr place => exact h.assign (hvalue place expr) fun _ => stays_update _
      | increment name => exact stays_update _
      | decrement name => exact stays_update _
      | custom tag payload children place => exact nomatch hbuiltIn _ (Node.mem_all_self _)

theorem stays_renderAll {nodes : List Node} (hbuiltIn : Node.BuiltIn nodes)
    (henclosed : Node.Enclosed nodes) : Stays (renderAll env nodes) :=
  compositional_stays.renderAll nodes fun node hnode =>
    stays_node node (fun inner hinner => hbuiltIn inner (Node.mem_allOf_of_mem hnode hinner))
      (henclosed.of_mem hnode)

end Render

end Liquid
