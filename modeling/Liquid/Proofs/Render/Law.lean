import Liquid.Proofs.Arrangement.Grammar
import Liquid.Proofs.Node.Inside
import Liquid.Proofs.Render.Followed
import Liquid.Proofs.Scope.History

/-!
# Laws of Followed Steps

What a render that is followed tells can be said to agree with what it does in
one way or another. Such a property is carried from the steps of nodes to a
whole render by the ways of putting steps together: going on from a result, and
standing around a step. These are gone through here once for all properties.

What stands around a step does so in few ways. It captures, lays a frame, makes
variables of a loop or turns crashes into errors. None of them touches the
positions of cycles, and none holds back a rendering error. A property that
needs no more than that of what is around a step is kept by all of them.

Tags of the host are the exception, since they are free to do either. What
their followers keep has to be known.

## Main definitions

* `Followed.Quiet`: Steps that leave the positions of cycles alone.
* `Followed.Frame`: Steps around another one that let through what it does.
* `Followed.Law`: Properties that all ways of putting steps together keep.
* `Hooks.Keep`: Followers that keep a property.

## Theorems

* `Followed.frame_captured`, `Followed.frame_framed`, `Followed.frame_guarded`,
  `Followed.frame_visit`, `Followed.frame_cell`: What stands around steps.
* `Followed.mem_events_bind`: What is told of two steps.
* `Followed.Law.followed`: From the bodies of a node to the node.
* `Followed.Law.followedAll`: From the steps of nodes to a whole render.
-/

namespace Liquid

namespace Render

variable {α β : Type} {x : Render α} {f : α → Render β} {scope : Scope}

/-- Behind a step that is done, the scope is that of the next one. -/
theorem scope_bind_of_done {a : α} (h : (x scope).exit = .done a) :
    ((x >>= f) scope).scope = (f a (x scope).scope).scope := by
  change (bind x f scope).scope = _
  simp only [bind, h]

/-- Behind a step that is done, the exit is that of the next one. -/
theorem exit_bind_of_done {a : α} (h : (x scope).exit = .done a) :
    ((x >>= f) scope).exit = (f a (x scope).scope).exit := by
  change (bind x f scope).exit = _
  simp only [bind, h]

theorem chunks_bind_of_done {a : α} (h : (x scope).exit = .done a) :
    ((x >>= f) scope).chunks = (x scope).chunks ++ (f a (x scope).scope).chunks := by
  change (bind x f scope).chunks = _
  simp only [bind, h]

/-- Where the first step is left, the next one is not run. -/
theorem scope_bind_of_not_done (h : ∀ a, (x scope).exit ≠ .done a) :
    ((x >>= f) scope).scope = (x scope).scope := by
  change (bind x f scope).scope = _
  unfold bind
  cases hexit : (x scope).exit with
  | done a => exact absurd hexit (h a)
  | _ => simp only [hexit]

theorem exit_bind_of_failed {fault : EvalFault} (h : (x scope).exit = .failed fault) :
    ((x >>= f) scope).exit = .failed fault := by
  change (bind x f scope).exit = _
  simp only [bind, h]

end Render

namespace Followed

variable {α β : Type}

/-- Whether a step leaves the positions of cycles alone. -/
def Quiet (x : Render α) : Prop :=
  ∀ scope, (x scope).scope.cycles = scope.cycles

/-- Whether a step stands around another one without touching the positions of cycles or holding
back a rendering error. -/
structure Frame (wrap : Render α → Render β) (enter : Scope → Scope) : Prop where
  enter_cycles : ∀ scope, (enter scope).cycles = scope.cycles
  cycles : ∀ x scope, (wrap x scope).scope.cycles = (x (enter scope)).scope.cycles
  exit : ∀ x scope fault, (x (enter scope)).exit = .failed (.render fault) →
    (wrap x scope).exit = .failed (.render fault)

section Frame

/-- Capturing keeps the text, and all else is as it was. -/
theorem frame_captured : Frame Render.captured id where
  enter_cycles _ := rfl
  cycles _ _ := rfl
  exit x scope fault h := by
    rw [id_eq] at h
    simp only [Render.captured, h]

theorem frame_framed (frame : Table Value) :
    Frame (Render.framed (α := α) frame) (·.push frame) where
  enter_cycles _ := rfl
  cycles _ _ := rfl
  exit _ _ _ h := h

/-- A guard only changes how a crash is told. -/
theorem frame_guarded (f : Crash → RenderFault) : Frame (Render.guarded (α := α) f) id where
  enter_cycles _ := rfl
  cycles x scope := by
    unfold Render.guarded
    dsimp only [id_eq]
    split <;> rfl
  exit x scope fault h := by
    rw [id_eq] at h
    simp only [Render.guarded, h]

/-- What follows a step without touching the positions of cycles leaves them as the step does. -/
theorem cycles_bind (x : Render α) {f : α → Render β} (hf : ∀ a, Quiet (f a)) (scope : Scope) :
    ((x >>= f) scope).scope.cycles = (x scope).scope.cycles := by
  by_cases hdone : ∃ a, (x scope).exit = .done a
  · rcases hdone with ⟨a, ha⟩
    rw [Render.scope_bind_of_done ha, hf a]
  · rw [Render.scope_bind_of_not_done (not_exists.mp hdone)]

/-- Steps that move no cycle do so one after the other. -/
theorem quiet_bind {x : Render α} {f : α → Render β} (hx : Quiet x) (hf : ∀ a, Quiet (f a)) :
    Quiet (x >>= f) :=
  fun scope => (cycles_bind x hf scope).trans (hx scope)

theorem quiet_display (env : Environment) (place : Place) (expr : Expr) :
    Quiet (Render.display env place expr) :=
  quiet_bind (fun _ => rfl) fun _ _ => rfl

variable {γ : Type} {wrap : Render α → Render β} {enter : Scope → Scope}

/-- A quiet step behind a frame is part of it. -/
theorem Frame.bind (h : Frame wrap enter) {f : β → Render γ} (hf : ∀ b, Quiet (f b)) :
    Frame (fun x => wrap x >>= f) enter where
  enter_cycles := h.enter_cycles
  cycles x scope := (cycles_bind (wrap x) hf scope).trans (h.cycles x scope)
  exit x scope fault hfault := Render.exit_bind_of_failed (h.exit x scope fault hfault)

theorem Frame.emit (h : Frame wrap enter) (chunk : String) :
    Frame (fun x => Render.emit chunk >>= fun _ => wrap x) enter where
  enter_cycles := h.enter_cycles
  cycles x scope := h.cycles x scope
  exit x scope fault hfault := h.exit x scope fault hfault

theorem Frame.setLocal (h : Frame wrap enter) (name : String) (value : Value) :
    Frame (fun x => Render.update (·.setLocal name value) >>= fun _ => wrap x)
      (fun scope => enter (scope.setLocal name value)) where
  enter_cycles scope := (h.enter_cycles _).trans (scope.setLocal_cycles name value)
  cycles x scope := h.cycles x (scope.setLocal name value)
  exit x scope fault hfault := h.exit x (scope.setLocal name value) fault hfault

/-- A round takes up breaks and continues, but no faults. -/
theorem frame_iteration : Frame Render.iteration id where
  enter_cycles _ := rfl
  cycles _ _ := rfl
  exit x scope fault h := by
    rw [id_eq] at h
    simp only [Render.iteration, h]

theorem frame_visit (name : String) (item : Value) (dictionary : String) (position : Value) :
    Frame
      (fun body => do
        Render.update (·.setLocal name item)
        Render.update (·.setLocal dictionary position)
        Render.iteration body)
      (fun scope => (scope.setLocal name item).setLocal dictionary position) :=
  (frame_iteration.setLocal dictionary position).setLocal name item

/-- A cell is the body of a loop, with some of its row in front of it and some behind it. -/
theorem frame_cell (name : String) (columns : Nat) (position : Position) (item : Value) :
    Frame (Render.cell name columns position item)
      (fun scope => (scope.setLocal name item).setLocal "tablerowloop"
        (position.tablerowloop columns)) := by
  have hclose (left : Bool) : Quiet (Render.emit "</td>" >>= fun _ =>
      if left || position.index % columns + 1 == columns || position.isLast then
        Render.emit "</tr>" >>= fun _ => Render.done left
      else Render.done left) := by
    refine quiet_bind (fun _ => rfl) fun _ => ?_
    split <;> exact fun _ => rfl
  -- From the inside to the outside: what closes the cell, then its two variables.
  have hcell := ((frame_iteration.bind hclose).setLocal "tablerowloop"
    (position.tablerowloop columns)).setLocal name item
  unfold Render.cell
  cases hrow : (position.index % columns == 0)
  · simp only [hrow]
    exact hcell.emit _
  · simp only [hrow]
    exact (hcell.emit _).emit _

end Frame

/-- What follows is run in the scope that the first step leaves. -/
theorem after_of_done {f : α → Followed β} {first : Outcome α} {a : α} (h : first.exit = .done a) :
    after f first = (f a).events first.scope := by
  simp only [after, h]

theorem after_of_not_done {f : α → Followed β} {first : Outcome α}
    (h : ∀ a, first.exit ≠ .done a) : after f first = [] := by
  unfold after
  split
  · exact absurd ‹_› (h _)
  · rfl

/-- What is told of two steps is told of the first, or of the second behind the first one done. -/
theorem mem_events_bind {x : Followed α} {f : α → Followed β} {scope : Scope} {event : Event}
    (h : event ∈ (x >>= f).events scope) :
    event ∈ x.events scope ∨
      ∃ a, (x.step scope).exit = .done a ∧ event ∈ (f a).events (x.step scope).scope := by
  rcases List.mem_append.mp h with hfirst | hsecond
  · exact .inl hfirst
  -- The second step has events only if the first is done.
  · by_cases hdone : ∃ a, (x.step scope).exit = .done a
    · rcases hdone with ⟨a, ha⟩
      rw [after_of_done ha] at hsecond
      exact .inr ⟨a, ha, hsecond⟩
    · rw [after_of_not_done (not_exists.mp hdone)] at hsecond
      cases hsecond

/-- What a cycle does is to evaluate, to move its position and to show: a property that these have
and that goes on from step to step is one of a cycle. -/
theorem cycle_of_steps {env : Environment} {kept : ∀ ⦃α : Type⦄, Followed α → Prop} {node : Node}
    {place : Place} (hsilent : ∀ {α : Type} (x : Render α), kept (silent x))
    (hbind : ∀ {α β : Type} {x : Followed α} {f : α → Followed β}, kept x → (∀ a, kept (f a)) →
      kept (x >>= f))
    (hvalue : ∀ expr, kept (value env node place expr)) (values : List Expr) (group : Option Expr) :
    kept (cycle env node place values group) := by
  have hkey : kept (cycleKey env node place values group) := by
    cases group with
    | none => exact hsilent _
    | some group => exact hbind (hvalue group) fun _ => hsilent _
  exact hbind hkey fun _ => hbind (hsilent _) fun _ => hbind (hvalue _) fun _ => hsilent _

/-- Properties that all ways of putting followed steps together keep. A cycle moves its own
position, so it is taken as a whole. -/
structure Law (env : Environment) (kept : ∀ ⦃α : Type⦄, Followed α → Prop) : Prop where
  silent : ∀ {α : Type} {x : Render α}, Quiet x → kept (silent x)
  bind : ∀ {α β : Type} {x : Followed α} {f : α → Followed β}, kept x → (∀ a, kept (f a)) →
    kept (x >>= f)
  around : ∀ {α β : Type} {wrap : Render α → Render β} {enter : Scope → Scope} {x : Followed α},
    Frame wrap enter → kept x → kept (around wrap enter x)
  value : ∀ {node : Node} {place : Place}, node.place? = some place → ∀ expr,
    kept (value env node place expr)
  execution : ∀ {node : Node} {x : Followed Unit},
    (∀ values group place, node ≠ .cycle values group place) → x.step = node.render env →
    kept x → kept (seen (.execution node) x)
  cycle : ∀ values group place, kept (seen (.execution (.cycle values group place))
    (cycle env (.cycle values group place) place values group))

end Followed

/-- Whether the followers of the tags of a host keep a property of what they are given. -/
def Hooks.Keep {env : Environment} (hooks : Hooks env) (kept : ∀ ⦃α : Type⦄, Followed α → Prop) :
    Prop :=
  ∀ name tag, env.tags.get? name = some tag → ∀ payload children eval, kept children →
    (∀ expr, kept (eval expr)) → kept (hooks.follow tag payload children eval)

namespace Followed

namespace Law

variable {env : Environment} {kept : ∀ ⦃α : Type⦄, Followed α → Prop} {node : Node} {place : Place}

theorem pure (h : Law env kept) {α : Type} (a : α) : kept (Pure.pure a : Followed α) :=
  h.silent fun _ => rfl

theorem display (h : Law env kept) (hplace : node.place? = some place) (expr : Expr) :
    kept (display env node place expr) :=
  h.bind (h.value hplace expr) fun _ => h.silent fun _ => rfl

theorem isAnyOf (h : Law env kept) (hplace : node.place? = some place) (subject : Value)
    (exprs : List Expr) : kept (isAnyOf env node place subject exprs) := by
  induction exprs with
  | nil => exact h.pure false
  | cons expr exprs ih =>
      refine h.bind (h.value hplace expr) fun value => ?_
      split
      · exact h.pure true
      · exact ih

theorem option (h : Law env kept) (hplace : node.place? = some place) (expr : Option Expr) :
    kept (option env node place expr) := by
  cases expr with
  | none => exact h.pure none
  | some expr => exact h.bind (h.value hplace expr) fun value => h.pure (some value)

theorem items (h : Law env kept) (hplace : node.place? = some place) (selection : Selection) :
    kept (items env node place selection) :=
  h.bind (h.value hplace selection.collection) fun _ => h.bind (h.silent fun _ => rfl) fun _ =>
    h.bind (h.option hplace selection.offset) fun _ =>
    h.bind (h.option hplace selection.limit) fun _ => h.pure _

/-- The visits follow one another, and keep what each of them keeps. -/
theorem each (h : Law env kept) {visit : Nat → Value → Followed Bool}
    (hvisit : ∀ index item, kept (visit index item)) (index : Nat) (items : List Value) :
    kept (each visit index items) := by
  induction items generalizing index with
  | nil => exact h.pure ()
  | cons item items ih =>
      refine h.bind (hvisit index item) fun left => ?_
      split
      · exact h.pure ()
      · exact ih (index + 1)

theorem loop (h : Law env kept) {body : Followed Unit} (hbody : kept body) (name : String)
    (items : List Value) : kept (loop name items body) :=
  h.bind (h.silent fun _ => rfl) fun _ => h.around (frame_framed []) <|
    h.each (fun _ item => h.around (frame_visit name item "forloop" _) hbody) 0 items

theorem table (h : Law env kept) {body : Followed Unit} (hbody : kept body) (name : String)
    (columns : Nat) (items : List Value) : kept (table name columns items body) :=
  h.around (frame_framed []) <|
    h.each (fun _ item => h.around (frame_cell name columns _ item) hbody) 0 items

section Nodes

variable {hooks : Hooks env} {otherwise : Followed Unit}

/-- Nodes keep what each of them keeps, with its own event in front. -/
theorem ofNodes (h : Law env kept) (nodes : List Node)
    (hnode : ∀ node ∈ nodes, kept (seen (.execution node) (node.followed env hooks))) :
    kept (followedAll env hooks nodes) := by
  induction nodes with
  | nil => exact h.pure ()
  | cons node nodes ih =>
      refine h.bind (hnode node List.mem_cons_self) fun _ => ih fun other hmem => ?_
      exact hnode other (List.mem_cons_of_mem _ hmem)

theorem ofOption (h : Law env kept) (body : Option (List Node))
    (hbody : ∀ nodes ∈ body, kept (followedAll env hooks nodes)) :
    kept (followedOption env hooks body) := by
  cases body with
  | none => exact h.pure ()
  | some nodes => exact hbody nodes rfl

/-- A conditional keeps what its conditions and its bodies keep. -/
theorem ofBranches (h : Law env kept) (hplace : node.place? = some place)
    (hotherwise : kept otherwise) (branches : List (Branch Node))
    (hbody : ∀ branch ∈ branches, kept (followedAll env hooks branch.body)) :
    kept (followedBranches env hooks node place otherwise branches) := by
  induction branches with
  | nil => exact hotherwise
  | cons branch branches ih =>
      refine h.bind (h.value hplace branch.condition) fun value => ?_
      split
      · exact hbody branch List.mem_cons_self
      · exact ih fun other hmem => hbody other (List.mem_cons_of_mem _ hmem)

/-- A choice keeps what its values and its bodies keep. -/
theorem ofWhens (h : Law env kept) (hplace : node.place? = some place) (subject : Value)
    (hotherwise : kept otherwise) (whens : List (When Node))
    (hbody : ∀ part ∈ whens, kept (followedAll env hooks part.body)) :
    kept (followedWhens env hooks node place subject otherwise whens) := by
  induction whens with
  | nil => exact hotherwise
  | cons part whens ih =>
      refine h.bind (h.isAnyOf hplace subject part.values) fun found => ?_
      split
      · exact hbody part List.mem_cons_self
      · exact ih fun other hmem => hbody other (List.mem_cons_of_mem _ hmem)

/-- From the bodies of a node to the node, if it is not a cycle. -/
theorem followed (h : Law env kept) (hhooks : hooks.Keep kept) (node : Node)
    (hcycle : ∀ values group place, node ≠ .cycle values group place)
    (hbody : ∀ body ∈ node.bodies, kept (followedAll env hooks body)) :
    kept (node.followed env hooks) := by
  -- A kind of node after the other. What it does itself is silent, a value, or a frame around a
  -- body.
  cases node with
  | text text => exact h.silent fun _ => rfl
  | output expr place => exact h.display rfl expr
  | echo expr place => exact h.display rfl expr
  | conditional branches otherwise place =>
      refine h.ofBranches rfl (h.ofOption otherwise fun nodes hnodes => ?_) branches
        fun branch hbranch => ?_
      · exact hbody nodes (List.mem_append_right _ (Option.mem_toList.mpr hnodes))
      · exact hbody _ (List.mem_append_left _ (List.mem_map_of_mem hbranch))
  | choice subject whens otherwise place =>
      refine h.bind (h.value rfl subject) fun value => h.ofWhens rfl value
        (h.ofOption otherwise fun nodes hnodes => ?_) whens fun part hpart => ?_
      · exact hbody nodes (List.mem_append_right _ (Option.mem_toList.mpr hnodes))
      · exact hbody _ (List.mem_append_left _ (List.mem_map_of_mem hpart))
  | loop name selection body otherwise place =>
      refine h.bind (h.items rfl selection) fun items => ?_
      split
      · refine h.ofOption otherwise fun nodes hnodes => ?_
        exact hbody nodes (List.mem_cons_of_mem _ (Option.mem_toList.mpr hnodes))
      · exact h.loop (hbody body List.mem_cons_self) name items
  | tablerow name selection columns body place =>
      refine h.bind (h.items rfl selection) fun items => ?_
      split
      · exact h.pure ()
      · exact h.bind (h.option rfl columns) fun _ =>
          h.table (hbody body List.mem_cons_self) name _ items
  | breakLoop => exact h.silent fun _ => rfl
  | continueLoop => exact h.silent fun _ => rfl
  | cycle values group place => exact absurd rfl (hcycle values group place)
  | capture name body =>
      exact h.bind (h.around frame_captured (hbody body List.mem_cons_self)) fun _ =>
        h.silent fun _ => rfl
  | assign name expr place => exact h.bind (h.value rfl expr) fun _ => h.silent fun _ => rfl
  | increment name => exact h.silent fun _ => rfl
  | decrement name => exact h.silent fun _ => rfl
  | custom name payload children place =>
      rw [Node.followed]
      cases htag : env.tags.get? name with
      | none => exact h.silent fun _ => rfl
      | some tag =>
          exact h.around (frame_guarded _) (hhooks name tag htag payload _ _
            (hbody children List.mem_cons_self) fun expr => h.value rfl expr)

/-- From what a node does to the node as it is told of. -/
theorem execute (h : Law env kept) (hhooks : hooks.Keep kept) (node : Node) :
    kept (seen (.execution node) (node.followed env hooks)) := by
  induction node using Node.byBodies with
  | step node ih =>
      -- A cycle is taken as a whole, and any other node by its bodies.
      by_cases hcycle : ∃ values group place, node = .cycle values group place
      · rcases hcycle with ⟨values, group, place, rfl⟩
        rw [Node.followed]
        exact h.cycle values group place
      · have hother : ∀ values group place, node ≠ .cycle values group place :=
          fun values group place hnode => hcycle ⟨values, group, place, hnode⟩
        refine h.execution hother (node.step_followed env hooks) ?_
        exact h.followed hhooks node hother fun body hbody => h.ofNodes body (ih body hbody)

/-- From the steps of nodes to a whole render. -/
theorem followedAll (h : Law env kept) (hhooks : hooks.Keep kept) (nodes : List Node) :
    kept (followedAll env hooks nodes) :=
  h.ofNodes nodes fun node _ => h.execute hhooks node

end Nodes

end Law

end Followed

/-- The tags of the language are not rendered by themselves, so no law is broken by them. -/
theorem Hooks.keep_standard {kept : ∀ ⦃α : Type⦄, Followed α → Prop}
    (h : Followed.Law Environment.standard kept) : (silent Environment.standard).Keep kept := by
  intro name tag htag payload children eval _ _
  have hmem := (Arrangement.standard_get? htag).1
  -- All of them are rendered in the one way of tags that have none.
  have hunrendered : tag.render payload children.step (fun expr => (eval expr).step) =
      Tag.unrendered tag.name := by
    simp only [Tag.standard, List.mem_cons, List.not_mem_nil, or_false] at hmem
    rcases hmem with rfl | rfl | rfl | rfl | rfl | rfl | rfl | rfl | rfl | rfl | rfl | rfl | rfl <;>
      rfl
  change kept (Followed.silent (tag.render payload children.step fun expr => (eval expr).step))
  rw [hunrendered]
  exact h.silent fun _ => rfl

end Liquid
