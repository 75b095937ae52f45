import Liquid.Expr.Print
import Liquid.Node.Loop

/-!
# Rendering Nodes

What each node does when it is rendered. Each expression is evaluated at the
place of its node. A loop lays one frame for all its items and writes its
variable and its dictionary into it anew for each; a loop without items lays
none and has no dictionary in its other body.

A node of a host's tag is given to whatever tag has its name in the
environment at hand, which need not be the one it was compiled in.

## Main definitions

* `Node.render`: What a node does.
* `Node.renderAll`: What a body does.
-/

namespace Liquid

namespace Render

/-- The value of an expression. -/
def value (env : Environment) (place : Place) (expr : Expr) : Render Value :=
  evaluated fun scope => expr.eval env scope (some place)

/-- Shows the value of an expression. -/
def display (env : Environment) (place : Place) (expr : Expr) : Render Unit := do
  let value ← value env place expr
  emit value.display

/-- Whether a value equals that of one of the expressions; those behind it are not evaluated. -/
def isAnyOf (env : Environment) (place : Place) (subject : Value) : List Expr → Render Bool
  | [] => done false
  | expr :: exprs => do
    let value ← value env place expr
    if subject.equals value then done true else isAnyOf env place subject exprs

/-- A loop over items. -/
def loop (name : String) (items : List Value) (body : Render Unit) : Render Unit := do
  let scope ← scope
  -- Looked up before the frame is laid, where the loop would find its own dictionary.
  let outer := scope.lookup "forloop"
  let length := items.length
  framed [] <| each (fun index item => do
    update (·.setLocal name item)
    update (·.setLocal "forloop" (Position.forloop ⟨index, length⟩ outer))
    iteration body) 0 items

/-- One cell of a table, with the row around it where one starts or ends; whether it leaves. -/
def cell (name : String) (columns : Nat) (position : Position) (item : Value)
    (body : Render Unit) : Render Bool := do
  let column := position.index % columns
  if column == 0 then
    emit ("<tr class=\"row" ++ toString (position.index / columns + 1) ++ "\">")
  emit ("<td class=\"col" ++ toString (column + 1) ++ "\">")
  update (·.setLocal name item)
  update (·.setLocal "tablerowloop" (position.tablerowloop columns))
  let left ← iteration body
  -- The cell and its row are closed also when the body leaves the loop.
  emit "</td>"
  if left || column + 1 == columns || position.isLast then emit "</tr>"
  done left

/-- A table of items. -/
def table (name : String) (columns : Nat) (items : List Value) (body : Render Unit) :
    Render Unit :=
  let length := items.length
  framed [] <| each (fun index item => cell name columns ⟨index, length⟩ item body) 0 items

/-- The number of columns that a value asks for: as many as there are items, unless it is a
positive number. -/
def columns (count : Nat) (value : Option Value) : Nat :=
  -- A negative number asks for none, as zero does.
  let asked := ((value.bind Value.integer?).getD 0).toNat
  if asked == 0 then count else asked

/-- The key of a cycle: what its group shows, or else its values as they are written. -/
def cycleKey (env : Environment) (place : Place) (values : List Expr) :
    Option Expr → Render String
  | some group => do
    let value ← value env place group
    done value.display
  | none => done (", ".intercalate (values.map Expr.text))

end Render

mutual

/-- What a node does. -/
def Node.render (env : Environment) : Node → Render Unit
  | .text text => Render.emit text
  | .output expr place => Render.display env place expr
  | .echo expr place => Render.display env place expr
  | .conditional branches otherwise place =>
    renderBranches env place (renderOption env otherwise) branches
  | .choice subject whens otherwise place => do
    let value ← Render.value env place subject
    renderWhens env place value (renderOption env otherwise) whens
  | .loop name selection body otherwise place => do
    let items ← Render.evaluated fun scope => selection.items env scope place
    if items.isEmpty then renderOption env otherwise
    else Render.loop name items (renderAll env body)
  | .tablerow name selection columns body place => do
    let items ← Render.evaluated fun scope => selection.items env scope place
    if items.isEmpty then Render.done ()
    else
      -- The number of columns comes last, and of a table without items it is not asked.
      let columns ← Render.evaluated fun scope => Selection.evalOption env scope place columns
      Render.table name (Render.columns items.length columns) items (renderAll env body)
  | .breakLoop => Render.leave
  | .continueLoop => Render.skip
  | .cycle values group place => do
    let key ← Render.cycleKey env place values group
    let index ← Render.changed (·.cycle key values.length)
    Render.display env place (values[index.toNat]?.getD (.literal .nil))
  | .capture name body => do
    let chunks ← Render.captured (renderAll env body)
    Render.update (·.assign name (.string (String.join chunks)))
  | .assign name expr place => do
    let value ← Render.value env place expr
    Render.update (·.assign name value)
  | .increment name => Render.update fun scope => (scope.count name 1).2
  | .decrement name => Render.update fun scope => (scope.count name (-1)).2
  | .custom name payload children place =>
    match env.tags.get? name with
    | none => Render.fail (.render ⟨.unknownTag name, some place⟩)
    | some tag =>
      Render.guarded (fun crash => ⟨.tagFailed name crash, some place⟩)
        (tag.render payload (renderAll env children) (Render.value env place))

/-- What a body does. -/
def renderAll (env : Environment) : List Node → Render Unit
  | [] => Render.done ()
  | node :: nodes => do
    node.render env
    renderAll env nodes

/-- What a body does that may be missing. -/
def renderOption (env : Environment) : Option (List Node) → Render Unit
  | none => Render.done ()
  | some body => renderAll env body

/-- Renders the first body whose condition holds, or else what is given. -/
def renderBranches (env : Environment) (place : Place) (otherwise : Render Unit) :
    List (Branch Node) → Render Unit
  | [] => otherwise
  | ⟨condition, negated, body⟩ :: branches => do
    let value ← Render.value env place condition
    if value.isTruthy != negated then renderAll env body
    else renderBranches env place otherwise branches

/-- Renders the first body with a value that equals the subject, or else what is given. -/
def renderWhens (env : Environment) (place : Place) (subject : Value) (otherwise : Render Unit) :
    List (When Node) → Render Unit
  | [] => otherwise
  | ⟨values, body⟩ :: whens => do
    let found ← Render.isAnyOf env place subject values
    if found then renderAll env body else renderWhens env place subject otherwise whens

end

end Liquid
