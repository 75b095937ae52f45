import Liquid.Node.Render

/-!
# Renders That Are Followed

What is seen of a render from the outside is its outcome. What was done on the
way, which nodes were rendered in which scope and which expressions were
evaluated there, is gone. A followed step is a step together with that: it does
what the step does, and tells of what is done along with it, in order.

Followed steps are put together as steps are. One goes on from another, or one
stands around another and runs it once. So a node can be followed by going
through its rendering again, and what is followed is the same rendering.

A tag of the host is a function of which nothing is known. To follow it is to
have a followed step that does the same, whatever its children are. There always
is one, since it may keep silent. What is said of a render that is followed is
said of what its followers tell.

## Main definitions

* `Event`: What is told of a render.
* `Followed`: A step that tells what it does.
* `Followed.around`: A step around another one.
* `Hooks`: Followers of the tags of a host.
* `Node.followed`, `followedAll`: What a node and a body do, followed.

## Theorems

* `Render.evaluated_bind`: Evaluations that go on from each other are steps that do.
* `Node.step_followed`, `step_followedAll`: What is followed is the rendering.
-/

namespace Liquid

/-- The place that the errors of a node name. -/
def Node.place? : Node → Option Place
  | .output _ place => some place
  | .echo _ place => some place
  | .conditional _ _ place => some place
  | .choice _ _ _ place => some place
  | .loop _ _ _ _ place => some place
  | .tablerow _ _ _ _ place => some place
  | .cycle _ _ place => some place
  | .assign _ _ place => some place
  | .custom _ _ _ place => some place
  | _ => none

/-- What is told of a render. -/
inductive Event
  /-- A node starts to be rendered. -/
  | execution (node : Node) (scope : Scope)
  /-- An expression of a node starts to be evaluated. -/
  | evaluation (node : Node) (expr : Expr) (scope : Scope)

/-- The scope in which it happened. -/
def Event.scope : Event → Scope
  | execution _ scope => scope
  | evaluation _ _ scope => scope

/-- A step that tells what it does. -/
structure Followed (α : Type) where
  step : Render α
  events : Scope → List Event

namespace Followed

variable {α β : Type}

/-- A step with nothing to tell. -/
def silent (step : Render α) : Followed α :=
  ⟨step, fun _ => []⟩

/-- A step that tells of an event first. -/
def seen (event : Scope → Event) (x : Followed α) : Followed α :=
  ⟨x.step, fun scope => event scope :: x.events scope⟩

/-- What is told behind a step, if it is done. -/
def after (f : α → Followed β) (first : Outcome α) : List Event :=
  match first.exit with
  | .done a => (f a).events first.scope
  | _ => []

/-- One step, and if it is done another one that goes on from its result. -/
def bind (x : Followed α) (f : α → Followed β) : Followed β where
  step := x.step >>= fun a => (f a).step
  events scope := x.events scope ++ after f (x.step scope)

instance : Monad Followed where
  pure a := silent (Render.done a)
  bind := bind

/-- A step around another one, which it runs once, in the scope that it makes for it. -/
def around (wrap : Render α → Render β) (enter : Scope → Scope) (x : Followed α) : Followed β :=
  ⟨wrap x.step, fun scope => x.events (enter scope)⟩

section Values

variable (env : Environment) (node : Node) (place : Place)

/-- The value of an expression of a node. -/
def value (expr : Expr) : Followed Value :=
  seen (.evaluation node expr) (silent (Render.value env place expr))

/-- Shows the value of an expression. -/
def display (expr : Expr) : Followed Unit := do
  let value ← value env node place expr
  silent (Render.emit value.display)

/-- Whether a value equals that of one of the expressions. -/
def isAnyOf (subject : Value) : List Expr → Followed Bool
  | [] => pure false
  | expr :: exprs => do
    let value ← value env node place expr
    if subject.equals value then pure true else isAnyOf subject exprs

/-- The value of an expression that may be missing. -/
def option : Option Expr → Followed (Option Value)
  | none => pure none
  | some expr => do
    let value ← value env node place expr
    pure (some value)

/-- The items that a loop visits. -/
def items (selection : Selection) : Followed (List Value) := do
  let collection ← value env node place selection.collection
  let items ← silent (Render.evaluated fun _ =>
    (Noted.ofExcept collection.items).mapFault EvalFault.crash)
  let offset ← option env node place selection.offset
  let limit ← option env node place selection.limit
  let chosen := Selection.upTo limit (Selection.behind offset items)
  pure (if selection.reversed then chosen.reverse else chosen)

/-- The key of a cycle. -/
def cycleKey (values : List Expr) : Option Expr → Followed String
  | some group => do
    let value ← value env node place group
    pure value.display
  | none => pure (", ".intercalate (values.map Expr.text))

/-- The value of a cycle whose turn it is. -/
def cycle (values : List Expr) (group : Option Expr) : Followed Unit := do
  let key ← cycleKey env node place values group
  let index ← silent (Render.changed (·.cycle key values.length))
  display env node place (values[index.toNat]?.getD (.literal .nil))

end Values

section Loops

/-- A step for each item, until one of them says that it leaves. -/
def each (visit : Nat → Value → Followed Bool) : Nat → List Value → Followed Unit
  | _, [] => pure ()
  | index, item :: items => do
    let left ← visit index item
    if left then pure () else each visit (index + 1) items

/-- The body of a loop, with the variables of the loop. -/
def visit (name : String) (item : Value) (dictionary : String) (position : Value)
    (body : Followed Unit) : Followed Bool :=
  around
    (fun body => do
      Render.update (·.setLocal name item)
      Render.update (·.setLocal dictionary position)
      Render.iteration body)
    (fun scope => (scope.setLocal name item).setLocal dictionary position) body

/-- A loop over items. -/
def loop (name : String) (items : List Value) (body : Followed Unit) : Followed Unit := do
  -- The scope outside of the frame, as in the rendering.
  let scope ← silent Render.scope
  around (Render.framed []) (·.push []) <| each (fun index item =>
    visit name item "forloop"
      (Position.forloop ⟨index, items.length⟩ (scope.lookup "forloop")) body) 0 items

/-- A table of items. -/
def table (name : String) (columns : Nat) (items : List Value) (body : Followed Unit) :
    Followed Unit :=
  around (Render.framed []) (·.push []) <| each (fun index item =>
    around (Render.cell name columns ⟨index, items.length⟩ item)
      (fun scope => (scope.setLocal name item).setLocal "tablerowloop"
        (Position.tablerowloop ⟨index, items.length⟩ columns)) body) 0 items

end Loops

end Followed

/-- Followers of the tags of a host. -/
structure Hooks (env : Environment) where
  follow : Tag → Payload → Followed Unit → (Expr → Followed Value) → Followed Unit
  step_follow : ∀ name tag, env.tags.get? name = some tag → ∀ payload children eval,
    (follow tag payload children eval).step =
      tag.render payload children.step fun expr => (eval expr).step

/-- Followers that keep silent. -/
def Hooks.silent (env : Environment) : Hooks env where
  follow tag payload children eval :=
    .silent (tag.render payload children.step fun expr => (eval expr).step)
  step_follow _ _ _ _ _ _ := rfl

open Followed

mutual

/-- What a node does, followed. -/
def Node.followed (env : Environment) (hooks : Hooks env) : Node → Followed Unit
  | .text text => silent (Render.emit text)
  | .output expr place => display env (.output expr place) place expr
  | .echo expr place => display env (.echo expr place) place expr
  | .conditional branches otherwise place =>
    followedBranches env hooks (.conditional branches otherwise place) place
      (followedOption env hooks otherwise) branches
  | .choice subject whens otherwise place => do
    let value ← value env (.choice subject whens otherwise place) place subject
    followedWhens env hooks (.choice subject whens otherwise place) place value
      (followedOption env hooks otherwise) whens
  | .loop name selection body otherwise place => do
    let items ← items env (.loop name selection body otherwise place) place selection
    if items.isEmpty then followedOption env hooks otherwise
    else loop name items (followedAll env hooks body)
  | .tablerow name selection columns body place => do
    let items ← items env (.tablerow name selection columns body place) place selection
    if items.isEmpty then pure ()
    else
      let columns ← option env (.tablerow name selection columns body place) place columns
      table name (Render.columns items.length columns) items (followedAll env hooks body)
  | .breakLoop => silent Render.leave
  | .continueLoop => silent Render.skip
  | .cycle values group place => cycle env (.cycle values group place) place values group
  | .capture name body => do
    let chunks ← around Render.captured id (followedAll env hooks body)
    silent (Render.update (·.assign name (.string (String.join chunks))))
  | .assign name expr place => do
    let value ← value env (.assign name expr place) place expr
    silent (Render.update (·.assign name value))
  | .increment name => silent (Render.update fun scope => (scope.count name 1).2)
  | .decrement name => silent (Render.update fun scope => (scope.count name (-1)).2)
  | .custom name payload children place =>
    match env.tags.get? name with
    | none => silent (Render.fail (.render ⟨.unknownTag name, some place⟩))
    | some tag =>
      around (Render.guarded fun crash => ⟨.tagFailed name crash, some place⟩) id
        (hooks.follow tag payload (followedAll env hooks children)
          (value env (.custom name payload children place) place))

/-- What a body does, followed. -/
def followedAll (env : Environment) (hooks : Hooks env) : List Node → Followed Unit
  | [] => pure ()
  | node :: nodes => do
    seen (.execution node) (node.followed env hooks)
    followedAll env hooks nodes

/-- What a body does that may be missing, followed. -/
def followedOption (env : Environment) (hooks : Hooks env) : Option (List Node) → Followed Unit
  | none => pure ()
  | some body => followedAll env hooks body

/-- Renders the first body whose condition holds, followed. -/
def followedBranches (env : Environment) (hooks : Hooks env) (node : Node) (place : Place)
    (otherwise : Followed Unit) : List (Branch Node) → Followed Unit
  | [] => otherwise
  | ⟨condition, negated, body⟩ :: branches => do
    let value ← value env node place condition
    if value.isTruthy != negated then followedAll env hooks body
    else followedBranches env hooks node place otherwise branches

/-- Renders the first body with a value that equals the subject, followed. -/
def followedWhens (env : Environment) (hooks : Hooks env) (node : Node) (place : Place)
    (subject : Value) (otherwise : Followed Unit) : List (When Node) → Followed Unit
  | [] => otherwise
  | ⟨values, body⟩ :: whens => do
    let found ← isAnyOf env node place subject values
    if found then followedAll env hooks body
    else followedWhens env hooks node place subject otherwise whens

end

namespace Render

variable {α β : Type}

/-- Evaluations that go on from each other are steps that do. -/
theorem evaluated_bind (x : Scope → Noted EvalFault α) (f : α → Scope → Noted EvalFault β) :
    (evaluated fun scope => x scope >>= fun a => f a scope) =
      evaluated x >>= fun a => evaluated (f a) := by
  funext scope
  change evaluated (fun scope => Noted.bind (x scope) fun a => f a scope) scope =
    Render.bind (evaluated x) (fun a => evaluated (f a)) scope
  unfold evaluated Noted.bind Render.bind
  cases hresult : (x scope).result with
  | ok a => simp only [hresult, List.nil_append]
  | error fault => simp only [hresult]

end Render

namespace Followed

variable {α β : Type} {env : Environment} {node : Node} {place : Place}

section Step

/-- Following steps changes nothing of what they do. -/
theorem step_bind (x : Followed α) (f : α → Followed β) :
    (x >>= f).step = x.step >>= fun a => (f a).step :=
  rfl

theorem step_isAnyOf (subject : Value) (exprs : List Expr) :
    (isAnyOf env node place subject exprs).step = Render.isAnyOf env place subject exprs := by
  induction exprs with
  | nil => rfl
  | cons expr exprs ih =>
      refine congrArg (Render.value env place expr >>= ·) (funext fun value => ?_)
      dsimp only
      cases subject.equals value with
      | true => rfl
      | false => exact ih

theorem step_option (expr : Option Expr) :
    (option env node place expr).step =
      Render.evaluated fun scope => Selection.evalOption env scope place expr := by
  cases expr with
  | none => rfl
  | some expr =>
      exact (Render.evaluated_bind (fun scope => expr.eval env scope (some place)) fun value _ =>
        .ok (some value)).symm

theorem step_items (selection : Selection) :
    (items env node place selection).step =
      Render.evaluated fun scope => selection.items env scope place := by
  -- Both go on at the same points: the collection, its items, the offset and the limit.
  unfold Selection.items
  rw [Render.evaluated_bind]
  refine congrArg (Render.value env place selection.collection >>= ·) (funext fun collection => ?_)
  rw [Render.evaluated_bind]
  refine congrArg (Bind.bind _) (funext fun items => ?_)
  rw [Render.evaluated_bind, ← @step_option _ node]
  refine congrArg (Bind.bind _) (funext fun offset => ?_)
  rw [Render.evaluated_bind, ← @step_option _ node]
  rfl

theorem step_cycle (values : List Expr) (group : Option Expr) :
    (cycle env node place values group).step =
      (Node.cycle values group place).render env := by
  rw [Node.render]
  cases group <;> rfl

/-- The visits are the same, and only events are added. -/
theorem step_each {follow : Nat → Value → Followed Bool} {visit : Nat → Value → Render Bool}
    (h : ∀ index item, (follow index item).step = visit index item) (index : Nat)
    (items : List Value) : (each follow index items).step = Render.each visit index items := by
  induction items generalizing index with
  | nil => rfl
  | cons item items ih =>
      rw [each, step_bind, h, Render.each]
      refine congrArg (Bind.bind _) (funext fun left => ?_)
      cases left with
      | true => rfl
      | false => exact ih (index + 1)

theorem step_loop (name : String) (items : List Value) (body : Followed Unit) :
    (loop name items body).step = Render.loop name items body.step := by
  refine congrArg (Render.scope >>= ·) (funext fun scope => congrArg (Render.framed []) ?_)
  exact step_each (fun _ _ => rfl) 0 items

theorem step_table (name : String) (columns : Nat) (items : List Value) (body : Followed Unit) :
    (table name columns items body).step = Render.table name columns items body.step :=
  congrArg (Render.framed []) (step_each (fun _ _ => rfl) 0 items)

end Step

end Followed

section Step

variable (env : Environment) (hooks : Hooks env)

mutual

/-- What is followed of a node is its rendering. -/
theorem Node.step_followed : ∀ node : Node, (node.followed env hooks).step = node.render env
  | .text _ => by rw [Node.followed, Node.render]; rfl
  | .output _ _ => by rw [Node.followed, Node.render]; rfl
  | .echo _ _ => by rw [Node.followed, Node.render]; rfl
  | .conditional branches otherwise place => by
      rw [Node.followed, Node.render, step_followedBranches, step_followedOption]
  | .choice subject whens otherwise place => by
      rw [Node.followed, Node.render, step_bind]
      refine congrArg (Bind.bind _) (funext fun value => ?_)
      rw [step_followedWhens, step_followedOption]
  | .loop name selection body otherwise place => by
      rw [Node.followed, Node.render, step_bind, step_items]
      refine congrArg (Bind.bind _) (funext fun items => ?_)
      split
      · exact step_followedOption otherwise
      · rw [step_loop, step_followedAll body]
  | .tablerow name selection columns body place => by
      rw [Node.followed, Node.render, step_bind, step_items]
      refine congrArg (Bind.bind _) (funext fun items => ?_)
      split
      · rfl
      · rw [step_bind, step_option]
        refine congrArg (Bind.bind _) (funext fun columns => ?_)
        rw [step_table, step_followedAll body]
  | .breakLoop => by rw [Node.followed, Node.render]; rfl
  | .continueLoop => by rw [Node.followed, Node.render]; rfl
  | .cycle values group place => by rw [Node.followed, step_cycle]
  | .capture name body => by
      rw [Node.followed, Node.render, step_bind, ← step_followedAll body]
      rfl
  | .assign _ _ _ => by rw [Node.followed, Node.render]; rfl
  | .increment _ => by rw [Node.followed, Node.render]; rfl
  | .decrement _ => by rw [Node.followed, Node.render]; rfl
  | .custom name payload children place => by
      rw [Node.followed, Node.render]
      cases htag : env.tags.get? name with
      | none => rfl
      | some tag =>
          -- What the follower is asked for is just that it does the same as the tag.
          refine congrArg (Render.guarded _) ?_
          rw [hooks.step_follow name tag htag, step_followedAll children]
          rfl

/-- What is followed of a body is its rendering. -/
theorem step_followedAll : ∀ nodes : List Node,
    (followedAll env hooks nodes).step = renderAll env nodes
  | [] => rfl
  | node :: nodes => by
      rw [followedAll, renderAll, step_bind]
      change (node.followed env hooks).step >>= _ = _
      rw [Node.step_followed node, step_followedAll nodes]

theorem step_followedOption : ∀ body : Option (List Node),
    (followedOption env hooks body).step = renderOption env body
  | none => rfl
  | some body => by rw [followedOption, renderOption, step_followedAll body]

/-- The branches are tried as they are in a render. -/
theorem step_followedBranches (node : Node) (place : Place) (otherwise : Followed Unit) :
    ∀ branches : List (Branch Node),
    (followedBranches env hooks node place otherwise branches).step =
      renderBranches env place otherwise.step branches
  | [] => by rw [followedBranches, renderBranches]
  | ⟨condition, negated, body⟩ :: branches => by
      rw [followedBranches, renderBranches, step_bind]
      refine congrArg (Bind.bind _) (funext fun value => ?_)
      split
      · exact step_followedAll body
      · exact step_followedBranches node place otherwise branches

/-- The whens are tried as they are in a render. -/
theorem step_followedWhens (node : Node) (place : Place) (subject : Value)
    (otherwise : Followed Unit) : ∀ whens : List (When Node),
    (followedWhens env hooks node place subject otherwise whens).step =
      renderWhens env place subject otherwise.step whens
  | [] => by rw [followedWhens, renderWhens]
  | ⟨values, body⟩ :: whens => by
      rw [followedWhens, renderWhens, step_bind, step_isAnyOf]
      refine congrArg (Bind.bind _) (funext fun found => ?_)
      split
      · exact step_followedAll body
      · exact step_followedWhens node place subject otherwise whens

end

end Step

end Liquid
