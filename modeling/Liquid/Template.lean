import Liquid.Arrangement
import Liquid.Node.Render
import Liquid.Token.Scan

/-!
# Templates

A template is a list of nodes with the environment it was compiled in. It can
be rendered any number of times, each time with a scope of its own, in its own
environment or in another. A list of nodes can be rendered without being a
template too.

Tags see to it that leaving and skipping stand in the body of a loop. But
whether a tag of the host stops them there is its own matter. If it does not,
they get out of the template, and there is no output.

## Main definitions

* `Template`: Nodes and an environment.
* `CompileFault`: Why a source is no template.
* `Template.compile`: The template that a source is.
* `Abort`: Why there is no output.
* `Environment.output`: The output of a list of nodes.
* `Template.output`: The output of a template.
-/

namespace Liquid

/-- Nodes with the environment in which they were compiled. -/
structure Template where
  nodes : List Node
  environment : Environment

/-- Why a source is no template. -/
inductive CompileFault
  | unterminated (fault : Unterminated)
  | structure (fault : SyntaxFault)
deriving DecidableEq

namespace CompileFault

/-- The wording of the fault. -/
def message : CompileFault → String
  | unterminated fault => fault.message
  | .structure fault => fault.message

/-- The crash behind the fault, if that is no error of the language. -/
def crash? : CompileFault → Option Crash
  | .structure ⟨.expression fault _, _⟩ => fault.crash?
  | _ => none

end CompileFault

/-- A result with remarks, where a failure has none. -/
def Noted.ofPair {ε δ α : Type} (wrap : ε → δ) : Except ε (α × List Remark) → Noted δ α
  | .ok (a, remarks) => ⟨remarks, .ok a⟩
  | .error e => .error (wrap e)

namespace Template

/-- The template that a source is in an environment. -/
def compile (environment : Environment) (source : String) : Noted CompileFault Template := do
  let tokens ← Noted.ofPair .unterminated (Token.scan environment.settings.strict source)
  let nodes ← Noted.ofPair .structure (Node.ofTokens environment.tags tokens)
  Noted.note (.compiled source.length)
  .ok ⟨nodes, environment⟩

/-- A line about the template. -/
def summary (template : Template) : String :=
  "Template(nodes=" ++ toString template.nodes.length ++ ")"

end Template

/-- Why there is no output. -/
inductive Abort
  | fault (fault : EvalFault)
  /-- A loop was left that is none. -/
  | broken
  /-- The next item was asked for where there is no loop. -/
  | continued
deriving DecidableEq

/-- The output of a list of nodes with the given data. -/
def Environment.output (environment : Environment) (nodes : List Node) (data : Table Value) :
    Noted Abort String :=
  let outcome := renderAll environment nodes (.ofData data)
  match outcome.exit with
  | .done () =>
    ⟨outcome.remarks ++ [.rendered nodes.length outcome.chunks.length],
      .ok (String.join outcome.chunks)⟩
  | .broken => ⟨outcome.remarks, .error .broken⟩
  | .continued => ⟨outcome.remarks, .error .continued⟩
  | .failed fault => ⟨outcome.remarks, .error (.fault fault)⟩

/-- The output of a template with the given data, in another environment if one is given. -/
def Template.output (template : Template) (data : Table Value)
    (environment : Option Environment := none) : Noted Abort String :=
  (environment.getD template.environment).output template.nodes data

end Liquid
