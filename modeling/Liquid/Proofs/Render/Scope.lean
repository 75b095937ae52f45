import Liquid.Proofs.Render.Compositional

/-!
# What Rendering Leaves of a Scope

Rendering writes to two places: to the globals, by name, and to the frame that a
loop has laid for itself, which is gone when the loop ends. So whichever way a
tree ends, the frames that were there before it are there again as they were,
and the globals differ at names that the tree writes only.

Inside of a loop this does not hold. There the innermost frame changes with each
item, and only the frames around it stay. Both are relations between the scopes
before and after a step, and steps one after the other keep them because they
are transitive; laying a frame leads from one to the other.

## Main definitions

* `Scope.Keeps`: The scopes that writing some globals can lead to.
* `Scope.KeepsOuter`: The same, where the innermost frame may change too.
* `Render.Moves`: Steps that lead from a scope to one related to it.

## Theorems

* `Render.moves_node`, `Render.moves_renderAll`: What a node and a tree leave of a
  scope.
* `Render.renderAll_restores`: What stands for what behind a tree.
-/

namespace Liquid

namespace Scope

/-- Whether the frames are as they were, and the globals as well but for the named ones. -/
structure Keeps (names : List String) (before after : Scope) : Prop where
  locals : after.locals = before.locals
  globals : ∀ name ∉ names, after.globals.get? name = before.globals.get? name

/-- Whether the frames but the innermost one are as they were, and the globals as well but for the
named ones. -/
structure KeepsOuter (names : List String) (before after : Scope) : Prop where
  locals : ∀ frame outer, before.locals = frame :: outer → ∃ frame', after.locals = frame' :: outer
  globals : before.locals ≠ [] → ∀ name ∉ names,
    after.globals.get? name = before.globals.get? name

section Keeps

variable {names : List String} {first second third : Scope}

theorem keeps_refl (names : List String) (scope : Scope) : Keeps names scope scope :=
  ⟨rfl, fun _ _ => rfl⟩

/-- What two steps keep, both together keep. -/
theorem Keeps.trans (h : Keeps names first second) (h' : Keeps names second third) :
    Keeps names first third :=
  ⟨h'.locals.trans h.locals, fun name hname => (h'.globals name hname).trans (h.globals name hname)⟩

theorem Keeps.outer (h : Keeps names first second) : KeepsOuter names first second :=
  ⟨fun frame _ hlocals => ⟨frame, h.locals.trans hlocals⟩, fun _ => h.globals⟩

theorem KeepsOuter.trans (h : KeepsOuter names first second) (h' : KeepsOuter names second third) :
    KeepsOuter names first third where
  locals frame outer hlocals := by
    rcases h.locals frame outer hlocals with ⟨frame', hlocals'⟩
    exact h'.locals frame' outer hlocals'
  globals hne name hname := by
    rcases List.exists_cons_of_ne_nil hne with ⟨frame, outer, hlocals⟩
    rcases h.locals frame outer hlocals with ⟨frame', hlocals'⟩
    have hne' : second.locals ≠ [] := hlocals' ▸ List.cons_ne_nil frame' outer
    exact (h'.globals hne' name hname).trans (h.globals hne name hname)

/-- Writing a global that is one of the named ones. -/
theorem keeps_assign {name : String} (hname : name ∈ names) (scope : Scope) (value : Value) :
    Keeps names scope (scope.assign name value) where
  locals := rfl
  globals _ hother := Table.get?_put_of_ne _ _ (ne_of_mem_of_not_mem hname hother).symm

/-- A counter writes one name, and opens no frame. -/
theorem keeps_count {name : String} (hname : name ∈ names) (scope : Scope) (step : Int) :
    Keeps names scope (scope.count name step).2 where
  locals := rfl
  globals _ hother := Table.get?_put_of_ne _ _ (ne_of_mem_of_not_mem hname hother).symm

/-- Writing a variable of the innermost frame, which is that of a loop. -/
theorem keepsOuter_setLocal (names : List String) (scope : Scope) (name : String) (value : Value) :
    KeepsOuter names scope (scope.setLocal name value) := by
  rcases scope with ⟨globals, locals, counters, cycles⟩
  cases locals with
  | nil => exact ⟨fun _ _ h => (nomatch h), fun h => absurd rfl h⟩
  | cons frame outer =>
      refine ⟨fun frame' outer' h => ?_, fun _ _ _ => rfl⟩
      cases h
      exact ⟨frame.put name value, rfl⟩

/-- A frame is laid, changed and removed. -/
theorem KeepsOuter.drop {frame : Table Value} (h : KeepsOuter names (first.push frame) second) :
    Keeps names first second.drop := by
  rcases h.locals frame first.locals rfl with ⟨frame', hlocals⟩
  refine ⟨?_, h.globals (List.cons_ne_nil frame first.locals)⟩
  change second.locals.tail = _
  rw [hlocals]
  rfl

end Keeps

end Scope

namespace Render

/-- Whether the scope behind the step, however it ends, is related to the one before it. -/
def Moves (moved : Scope → Scope → Prop) {α : Type} (x : Render α) : Prop :=
  ∀ scope, moved scope (x scope).scope

section Moves

variable {α : Type} {moved : Scope → Scope → Prop}

/-- A step that does not write at all. -/
theorem moves_of_scope_eq (hrefl : ∀ scope, moved scope scope) {x : Render α}
    (h : ∀ scope, (x scope).scope = scope) : Moves moved x := by
  intro scope
  rw [h]
  exact hrefl scope

/-- What each step moves, all steps together move. -/
theorem compositional_moves (hrefl : ∀ scope, moved scope scope)
    (htrans : ∀ {first second third}, moved first second → moved second third → moved first third) :
    Compositional fun _ x => Moves moved x where
  done _ := moves_of_scope_eq hrefl fun _ => rfl
  emit _ := moves_of_scope_eq hrefl fun _ => rfl
  bind {α β x f} hx hf := by
    intro scope
    have hfirst := hx scope
    change moved scope (Render.bind x f scope).scope
    unfold Render.bind
    -- The first step has moved the scope, and where it is left, nothing else does.
    cases hexit : (x scope).exit with
    | done a =>
        simp only [hexit]
        exact htrans hfirst (hf a _)
    | broken => simpa only [hexit] using hfirst
    | continued => simpa only [hexit] using hfirst
    | failed fault => simpa only [hexit] using hfirst

end Moves

section Keeps

open Scope (Keeps KeepsOuter keeps_refl)

variable {α : Type} {names : List String} {env : Environment}

theorem moves_evaluated (names : List String) (eval : Scope → Noted EvalFault α) :
    Moves (Keeps names) (evaluated eval) :=
  moves_of_scope_eq (keeps_refl names) fun _ => rfl

theorem moves_changed_cycle (names : List String) (key : String) (size : Int) :
    Moves (Keeps names) (changed (·.cycle key size)) := by
  intro scope
  unfold changed Scope.cycle
  cases size == 0 with
  | true => exact ⟨rfl, fun _ _ => rfl⟩
  | false => exact ⟨rfl, fun _ _ => rfl⟩

theorem moves_update_setLocal (names : List String) (name : String) (value : Value) :
    Moves (KeepsOuter names) (update (·.setLocal name value)) :=
  fun scope => Scope.keepsOuter_setLocal names scope name value

theorem moves_framed {frame : Table Value} {x : Render α} (h : Moves (KeepsOuter names) x) :
    Moves (Keeps names) (framed frame x) :=
  fun scope => (h (scope.push frame)).drop

theorem compositional_keeps (names : List String) :
    Compositional fun _ x => Moves (Keeps names) x :=
  compositional_moves (keeps_refl names) Keeps.trans

theorem compositional_keepsOuter (names : List String) :
    Compositional fun _ x => Moves (KeepsOuter names) x :=
  compositional_moves (fun scope => (keeps_refl names scope).outer) KeepsOuter.trans

/-- A loop drops the frame that it opened, so its own variables are gone. -/
theorem moves_loop {name : String} {items : List Value} {body : Render Unit}
    (hbody : Moves (Keeps names) body) : Moves (Keeps names) (loop name items body) := by
  have houter := compositional_keepsOuter names
  refine (compositional_keeps names).bind
    (moves_of_scope_eq (keeps_refl names) fun _ => rfl) fun outside => ?_
  refine moves_framed (houter.each (fun index item => ?_) 0 items)
  refine houter.bind (moves_update_setLocal names name item) fun _ => ?_
  refine houter.bind (moves_update_setLocal names "forloop" _) fun _ => ?_
  exact fun inside => (hbody inside).outer

/-- So does a table. -/
theorem moves_table {name : String} {columns : Nat} {items : List Value} {body : Render Unit}
    (hbody : Moves (Keeps names) body) : Moves (Keeps names) (table name columns items body) := by
  have houter := compositional_keepsOuter names
  refine moves_framed (houter.each (fun index item => ?_) 0 items)
  exact houter.cell (moves_update_setLocal names) fun inside => (hbody inside).outer

/-- A node without nodes of the host in it keeps all but the globals that it writes or that the
nodes in it write. -/
theorem moves_node (node : Node) (hbuiltIn : ∀ inner ∈ node.all, inner.isCustom = false)
    (htargets : ∀ inner ∈ node.all, ∀ name ∈ inner.target?, name ∈ names) :
    Moves (Keeps names) (node.render env) := by
  have h := compositional_keeps names
  have hvalue (place : Place) (expr : Expr) : Moves (Keeps names) (value env place expr) :=
    moves_evaluated names _
  -- By the bodies of the node, so that each of them is known to keep the scope.
  induction node using Node.byBodies with
  | step node ih =>
      have hchild : ∀ body ∈ node.bodies, ∀ child ∈ body,
          Moves (Keeps names) (child.render env) := by
        intro body hbody child hmem
        have hinner : ∀ inner ∈ child.all, inner ∈ node.all := fun inner hinner =>
          Node.mem_all_of_mem_body hbody (Node.mem_allOf_of_mem hmem hinner)
        exact ih body hbody child hmem (fun inner hmem => hbuiltIn inner (hinner inner hmem))
          fun inner hmem => htargets inner (hinner inner hmem)
      have htarget := htargets node node.mem_all_self
      -- Only four kinds of nodes write, each to its one target.
      cases node with
      | text text => exact h.emit text
      | output expr place => exact h.display (hvalue place expr)
      | echo expr place => exact h.display (hvalue place expr)
      | conditional branches otherwise place => exact h.conditional (fun _ _ => hvalue _ _) hchild
      | choice subject whens otherwise place => exact h.choice (fun _ _ => hvalue _ _) hchild
      | loop name selection body otherwise place =>
          refine h.loop (moves_evaluated names _) ?_ fun items => moves_loop ?_
          · exact fun nodes hnodes =>
              hchild nodes (List.mem_cons_of_mem _ (Option.mem_toList.mpr hnodes))
          · exact h.renderAll body (hchild body List.mem_cons_self)
      | tablerow name selection columns body place =>
          refine h.tablerow (moves_evaluated names _) (moves_evaluated names _) fun _ _ => ?_
          exact moves_table (h.renderAll body (hchild body List.mem_cons_self))
      | breakLoop => exact moves_of_scope_eq (keeps_refl names) fun _ => rfl
      | continueLoop => exact moves_of_scope_eq (keeps_refl names) fun _ => rfl
      | cycle values group place =>
          exact h.cycle (fun _ _ => hvalue _ _) (fun _ => hvalue _ _)
            fun key => moves_changed_cycle names key _
      | capture name body =>
          refine h.capture ?_ fun value scope => Scope.keeps_assign (htarget name rfl) scope value
          exact fun scope => h.renderAll body (hchild body List.mem_cons_self) scope
      | assign name expr place =>
          exact h.assign (hvalue place expr) fun value scope =>
            Scope.keeps_assign (htarget name rfl) scope value
      | increment name => exact fun scope => Scope.keeps_count (htarget name rfl) scope 1
      | decrement name => exact fun scope => Scope.keeps_count (htarget name rfl) scope (-1)
      | custom tag payload children place => exact nomatch hbuiltIn _ (Node.mem_all_self _)

/-- A tree keeps all but the globals that its nodes write. -/
theorem moves_renderAll (nodes : List Node) (hbuiltIn : Node.BuiltIn nodes) :
    Moves (Keeps (Node.targetsOf nodes)) (renderAll env nodes) := by
  refine (compositional_keeps _).renderAll nodes fun node hnode => ?_
  have hinner : ∀ inner ∈ node.all, inner ∈ Node.allOf nodes := fun inner hinner =>
    Node.mem_allOf_of_mem hnode hinner
  exact moves_node node (fun inner hmem => hbuiltIn inner (hinner inner hmem))
    fun inner hmem _ hname => List.mem_filterMap.mpr ⟨inner, hinner inner hmem, hname⟩

/-- However a tree ends that has no nodes of the host, and wherever, the frames are as they were
before, and the globals differ at most where the tree writes. So a name that is no target of the
tree stands for what it stood for, as does every name of a frame: neither the variable nor the
dictionary of a loop outlives it, and what they hid is seen again. -/
theorem renderAll_restores (env : Environment) (nodes : List Node) (hbuiltIn : Node.BuiltIn nodes)
    (scope : Scope) :
    let after := (renderAll env nodes scope).scope
    after.frames.length = scope.frames.length ∧ after.locals = scope.locals ∧
      (∀ name ∉ Node.targetsOf nodes, after.globals.get? name = scope.globals.get? name) ∧
      ∀ name, (name ∉ Node.targetsOf nodes ∨ ∃ frame ∈ scope.locals, frame.has name) →
        after.lookup name = scope.lookup name := by
  intro after
  have hkeeps : Keeps (Node.targetsOf nodes) scope after := moves_renderAll nodes hbuiltIn scope
  refine ⟨?_, hkeeps.locals, hkeeps.globals, fun name hname => ?_⟩
  -- The frames are the locals and the globals, and rendering moves neither up nor down.
  · simp [Scope.frames, hkeeps.locals]
  · unfold Scope.lookup Scope.frames
    rw [List.findSome?_append, List.findSome?_append, hkeeps.locals]
    rcases hname with hname | ⟨frame, hframe, hhas⟩
    · simp [hkeeps.globals name hname]
    · -- A frame that has the name hides the global.
      have hsome : (scope.locals.findSome? (Table.get? · name)).isSome :=
        List.findSome?_isSome_iff.mpr ⟨frame, hframe, hhas⟩
      rcases Option.isSome_iff_exists.mp hsome with ⟨value, hvalue⟩
      simp [hvalue]

/-- A loop that is left by a failure, within a loop of the same variable: what the variable stood
for is seen again, and only the assignment is left. -/
theorem renderAll_restores_failed :
    let items : Selection := ⟨.literal (.range 1 2), none, none, false⟩
    let inner : Node := .loop "x" items [.continueLoop] none ⟨1, 1⟩
    let failing : Node := .output (.filtered (.path "x" []) [.call "missing" [] []]) ⟨1, 1⟩
    let nodes : List Node :=
      [.loop "x" items [inner, .assign "y" (.path "x" []) ⟨1, 1⟩, failing] none ⟨1, 1⟩]
    let scope : Scope := ⟨[("x", .string "outer")], [[("forloop", .nil)]], [], []⟩
    let outcome := renderAll Environment.standard nodes scope
    Node.BuiltIn nodes ∧
      outcome.exit = .failed (.render ⟨.unknownFilter "missing", some ⟨1, 1⟩⟩) ∧
      outcome.scope.locals = [[("forloop", .nil)]] ∧ "y" ∈ Node.targetsOf nodes ∧
      outcome.scope.lookup "x" = .string "outer" := by
  intro items inner failing nodes scope outcome
  have hall : Node.allOf nodes = nodes ++
      [inner, .continueLoop, .assign "y" (.path "x" []) ⟨1, 1⟩, failing] := by
    simp [Node.allOf, Node.all_eq, Node.bodies, nodes, inner, failing]
  have hbuiltIn : Node.BuiltIn nodes := by
    unfold Node.BuiltIn
    rw [hall]
    simp [nodes, inner, failing, Node.isCustom]
  -- The loops bind their variables in frames of their own, so only the assignment is a target.
  have htargets : Node.targetsOf nodes = ["y"] := by
    unfold Node.targetsOf
    rw [hall]
    rfl
  rcases renderAll_restores Environment.standard nodes hbuiltIn scope with ⟨_, hlocals, _, hlookup⟩
  refine ⟨hbuiltIn, rfl, hlocals, by simp [htargets], ?_⟩
  exact hlookup "x" (.inl (by simp [htargets]))

end Keeps

end Render

end Liquid
