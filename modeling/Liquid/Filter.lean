import Liquid.Fault
import Liquid.Noted
import Liquid.Value

/-!
# Filters

A filter turns a value into another, with arguments by position and options by
name. Most filters are functions with a signature, and the signature decides
what becomes of the arguments that a template happens to write. Too few of
them are an error of the template. Too many are dropped, and so is any option
that the function does not know, unless the function says that it takes them
all.

A function that takes options under any name also takes one under the name of
a positional parameter. That fills the parameter, and crashes if it is filled
by position already. Only parameters that go by position alone leave such an
option to the others.

## Main definitions

* `Filter`: A filter.
* `Signature`: What arguments a function takes.
* `Arguments`: The arguments as a function receives them.
* `Signature.passed`, `Signature.kept`: What a function is called with.
* `Signature.bind`: The arguments of a call, arranged for the function.
* `Filter.ofFunction`: A function as a filter.
-/

namespace Liquid

/-- A filter and its name. -/
structure Filter where
  name : String
  apply : Value → List Value → Table Value → Noted FilterFailure Value

/-- A parameter of a function, and whether a call has to fill it. -/
structure Parameter where
  name : String
  required : Bool
deriving DecidableEq

/-- What arguments a function takes besides the value that it is applied to. -/
structure Signature where
  /-- The parameter for the value that the function is applied to. -/
  input : String := "value"
  positional : List Parameter := []
  /-- Whether there may be more arguments than positional parameters. -/
  takesSurplus : Bool := false
  options : List Parameter := []
  /-- Whether there may be options under any name. -/
  takesAnyOption : Bool := false
  /-- How many parameters, that for the input first, go by position only, whatever an option is
  called. -/
  unnamed : Nat := 0

/-- The arguments as a function receives them: one for each positional parameter, if it is filled,
the surplus ones, and the options. -/
structure Arguments where
  positional : List (Option Value)
  surplus : List Value
  options : Table Value

namespace Arguments

/-- The argument for a positional parameter, if there is one. -/
def get? (args : Arguments) (index : Nat) : Option Value :=
  (args.positional[index]?).join

/-- The argument for a positional parameter that every call fills. -/
def get (args : Arguments) (index : Nat) : Value :=
  (args.get? index).getD .nil

/-- The option under a name, if there is one. -/
def option? (args : Arguments) (name : String) : Option Value :=
  args.options.get? name

end Arguments

namespace Signature

/-- The number of arguments that a call has to have. -/
def needed (signature : Signature) : Nat :=
  (signature.positional.filter (·.required)).length

/-- Whether the function takes an option of the name. -/
def knows (signature : Signature) (name : String) : Bool :=
  signature.takesAnyOption || signature.options.any (·.name == name)

/-- The names of the parameters that the arguments of a call fill by position, but for those that
no option could fill. -/
def filled (signature : Signature) (args : List Value) : List String :=
  (signature.input :: (signature.positional.take args.length).map (·.name)).drop signature.unnamed

/-- The parameters that the arguments of a call leave. -/
def vacant (signature : Signature) (args : List Value) : List Parameter :=
  signature.positional.drop args.length

/-- Those of them that go by position only, so that nothing fills them. -/
def passedOver (signature : Signature) (args : List Value) : List Parameter :=
  (signature.vacant args).take (signature.unnamed - 1 - args.length)

/-- Those of them that an option of their name fills. -/
def fillable (signature : Signature) (args : List Value) : List Parameter :=
  (signature.vacant args).drop (signature.unnamed - 1 - args.length)

/-- The arguments of a call that there is room for. -/
def passed (signature : Signature) (args : List Value) : List Value :=
  if signature.takesSurplus then args else args.take signature.positional.length

/-- The options of a call that the function takes. -/
def kept (signature : Signature) (options : Table Value) : Table Value :=
  options.filter fun option => signature.knows option.1

/-- The arguments of a call as the function receives them, if nothing is filled twice or missing. -/
def bound (signature : Signature) (args : List Value) (options : Table Value) : Arguments :=
  let kept := signature.kept options
  let isOpen (name : String) : Bool := (signature.fillable args).any (·.name == name)
  { positional := (args.take signature.positional.length).map some
      ++ (signature.passedOver args).map (fun _ => none)
      ++ (signature.fillable args).map fun parameter => kept.get? parameter.name
    surplus := (signature.passed args).drop signature.positional.length
    options := kept.filter fun option => !isOpen option.1 }

/-- The arguments of a call, arranged for a function with the signature. -/
def bind (signature : Signature) (filter : String) (args : List Value) (options : Table Value) :
    Except FilterFailure Arguments :=
  if args.length < signature.needed then
    .error (.rejected (.missingArguments filter signature.needed args.length))
  else
    let kept := signature.kept options
    match kept.find? fun option => (signature.filled args).contains option.1,
        signature.options.find? fun option => option.required && !kept.has option.name with
    | some option, _ => .error (.crashed (.repeatedArgument filter option.1))
    | none, some option => .error (.crashed (.missingOption filter option.name))
    | none, none => .ok (signature.bound args options)

end Signature

namespace Filter

/-- A function with its signature. -/
structure Function where
  signature : Signature
  body : Value → Arguments → Except FilterFailure Value

/-- A function as a filter. -/
def ofFunction (name : String) (function : Function) : Filter where
  name := name
  apply input args options := Noted.ofExcept do
    function.body input (← function.signature.bind name args options)

/-- Filters given under names: a filter goes by its own name, a function by the one given. -/
def ofNamed (entries : Table (Filter ⊕ Function)) : List Filter :=
  Table.resolved ofFunction entries

/-- A signature of so many required and so many further parameters, named by their places. -/
def plainSignature (required optional : Nat) : Signature where
  positional :=
    (List.range (required + optional)).map fun i => ⟨toString i, decide (i < required)⟩

/-- A filter without arguments. -/
def ofUnary (name : String) (f : Value → Except FilterFailure Value) : Filter :=
  ofFunction name ⟨plainSignature 0 0, fun input _ => f input⟩

/-- A filter with one argument that may be missing. -/
def ofOptional (name : String) (f : Value → Option Value → Except FilterFailure Value) : Filter :=
  ofFunction name ⟨plainSignature 0 1, fun input args => f input (args.get? 0)⟩

/-- A filter with two arguments that may be missing. -/
def ofOptionals (name : String)
    (f : Value → Option Value → Option Value → Except FilterFailure Value) : Filter :=
  ofFunction name ⟨plainSignature 0 2, fun input args => f input (args.get? 0) (args.get? 1)⟩

/-- A filter with one argument. -/
def ofBinary (name : String) (f : Value → Value → Except FilterFailure Value) : Filter :=
  ofFunction name ⟨plainSignature 1 0, fun input args => f input (args.get 0)⟩

/-- A filter with one argument and another that may be missing. -/
def ofTernary (name : String)
    (f : Value → Value → Option Value → Except FilterFailure Value) : Filter :=
  ofFunction name ⟨plainSignature 1 1, fun input args => f input (args.get 0) (args.get? 1)⟩

end Filter

end Liquid
