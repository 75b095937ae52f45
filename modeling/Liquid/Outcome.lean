import Liquid.Noted
import Liquid.Scope

/-!
# Rendering Steps

What a piece of rendering does: it writes chunks of output, notes remarks and
changes the scope, and then it ends in one of four ways. It is done, it leaves
the innermost loop, it skips to the next item of it, or it fails. Whichever
way it ends, the chunks, the remarks and the scope up to there are kept. So a
loop that is left early still has its output, and it can be said what a failed
render has done to the scope.

Steps are put together by the operations below and by `do`. Two of them need
more than that. A capture takes the chunks of a body for itself, and gives them
up if the body does not end. A frame is removed again however its body ends.

## Main definitions

* `Exit`: How a step ends.
* `Outcome`: What a step did, and how it ended.
* `Render`: A step, as a function of the scope.
* `Render.captured`: The chunks of a step, taken out of the output.
* `Render.framed`: A step with a frame of its own.
* `Render.iteration`: A step as the body of a loop.
-/

namespace Liquid

/-- How a step ends. -/
inductive Exit (α : Type)
  | done (result : α)
  /-- The innermost loop is left. -/
  | broken
  /-- The innermost loop goes on with its next item. -/
  | continued
  | failed (fault : EvalFault)

/-- What a step did, and how it ended. -/
structure Outcome (α : Type) where
  chunks : List String
  remarks : List Remark
  scope : Scope
  exit : Exit α

/-- A step of rendering. -/
def Render (α : Type) : Type := Scope → Outcome α

namespace Render

variable {α β : Type}

/-- A step that does nothing. -/
def done (a : α) : Render α := fun scope => ⟨[], [], scope, .done a⟩

/-- One step, and if it is done another one that goes on from its result. -/
def bind (x : Render α) (f : α → Render β) : Render β := fun scope =>
  let first := x scope
  match first.exit with
  | .done a =>
    let second := f a first.scope
    { second with
      chunks := first.chunks ++ second.chunks
      remarks := first.remarks ++ second.remarks }
  | .broken => { first with exit := .broken }
  | .continued => { first with exit := .continued }
  | .failed fault => { first with exit := .failed fault }

instance : Monad Render where
  pure := done
  bind := bind

/-- Writes a chunk. -/
def emit (chunk : String) : Render Unit := fun scope => ⟨[chunk], [], scope, .done ()⟩

/-- The scope. -/
def scope : Render Scope := fun scope => ⟨[], [], scope, .done scope⟩

/-- Changes the scope. -/
def update (f : Scope → Scope) : Render Unit := fun scope => ⟨[], [], f scope, .done ()⟩

/-- Leaves the innermost loop. -/
def leave : Render α := fun scope => ⟨[], [], scope, .broken⟩

/-- Goes on with the next item of the innermost loop. -/
def skip : Render α := fun scope => ⟨[], [], scope, .continued⟩

/-- Fails. -/
def fail (fault : EvalFault) : Render α := fun scope => ⟨[], [], scope, .failed fault⟩

/-- A change of the scope that gives a result, or fails once it has been made. -/
def changed (f : Scope → Except Crash α × Scope) : Render α := fun scope =>
  let (result, scope) := f scope
  match result with
  | .ok a => ⟨[], [], scope, .done a⟩
  | .error crash => ⟨[], [], scope, .failed (.crash crash)⟩

/-- A result, or a failure. -/
def ofExcept : Except EvalFault α → Render α
  | .ok a => done a
  | .error fault => fail fault

/-- An evaluation in the scope. -/
def evaluated (eval : Scope → Noted EvalFault α) : Render α := fun scope =>
  let noted := eval scope
  let exit :=
    match noted.result with
    | .ok a => .done a
    | .error fault => .failed fault
  ⟨[], noted.remarks, scope, exit⟩

/-- The chunks of a step, which go nowhere else, and nowhere at all if it is not done. -/
def captured (body : Render Unit) : Render (List String) := fun scope =>
  let inner := body scope
  let exit :=
    match inner.exit with
    | .done () => .done inner.chunks
    | .broken => .broken
    | .continued => .continued
    | .failed fault => .failed fault
  ⟨[], inner.remarks, inner.scope, exit⟩

/-- A step with a frame of its own, which is removed however the step ends. -/
def framed (frame : Table Value) (body : Render α) : Render α := fun scope =>
  let inner := body (scope.push frame)
  { inner with scope := inner.scope.drop }

/-- A step as the body of a loop: whether it leaves the loop, unless it fails. -/
def iteration (body : Render Unit) : Render Bool := fun scope =>
  let inner := body scope
  let exit :=
    match inner.exit with
    | .done () => .done false
    | .continued => .done false
    | .broken => .done true
    | .failed fault => .failed fault
  ⟨inner.chunks, inner.remarks, inner.scope, exit⟩

/-- A step with its crashes turned into rendering errors. -/
def guarded (wrap : Crash → RenderFault) (body : Render α) : Render α := fun scope =>
  let inner := body scope
  match inner.exit with
  | .failed (.crash crash) => { inner with exit := .failed (.render (wrap crash)) }
  | _ => inner

end Render

end Liquid
