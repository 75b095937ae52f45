import Liquid.Value.Item

/-!
# Scopes

The variables of a render. The globals lie at the bottom: the caller's data,
and whatever the template assigns, captures or counts. Each loop lays a frame
on top for its own variables. A name means what the innermost frame that has
it says.

The globals are a field of their own, so a scope without them cannot be formed.
Counters and the positions of cycles stand beside the frames, because no
variable can reach them: a counter shows as a global of its name, and goes on
counting from where it was even if that global is overwritten.

## Main definitions

* `Scope`: Globals, frames, counters and cycles.
* `Scope.lookup`, `Scope.resolve`: What a variable and a path stand for.
* `Scope.push`, `Scope.pop?`: Laying a frame on top and removing it.
* `Scope.assign`, `Scope.setLocal`: Writing a global or a variable of the
  innermost frame.
* `Scope.count`: Moving a counter.
* `Scope.cycle`: The next position of a cycle.
-/

namespace Liquid

/-- The variables of a render. -/
structure Scope where
  globals : Table Value
  /-- The frames of the open loops, the innermost first. -/
  locals : List (Table Value)
  counters : Table Int
  /-- How often each cycle was asked for a position. -/
  cycles : Table Nat

namespace Scope

/-- The scope of a render with the given data. -/
def ofData (data : Table Value) : Scope :=
  ⟨data, [], [], []⟩

/-- All frames, the innermost first. -/
def frames (scope : Scope) : List (Table Value) :=
  scope.locals ++ [scope.globals]

/-- What a name stands for; nil where no frame has it. -/
def lookup (scope : Scope) (name : String) : Value :=
  (scope.frames.findSome? (Table.get? · name)).getD .nil

/-- What a path from a name by way of keys stands for. -/
def resolve (scope : Scope) (root : String) (keys : List Key) : Except Crash Value :=
  keys.foldlM Value.item (scope.lookup root)

/-- Lays a frame on top. -/
def push (scope : Scope) (frame : Table Value) : Scope :=
  { scope with locals := frame :: scope.locals }

/-- Removes the innermost frame, unless that is the one of the globals. -/
def pop? (scope : Scope) : Option (Table Value × Scope) :=
  match scope.locals with
  | [] => none
  | frame :: locals => some (frame, { scope with locals := locals })

/-- Removes the innermost frame that a loop has laid. -/
def drop (scope : Scope) : Scope :=
  { scope with locals := scope.locals.tail }

/-- Writes a global. -/
def assign (scope : Scope) (name : String) (value : Value) : Scope :=
  { scope with globals := scope.globals.put name value }

/-- Writes a variable of the innermost frame. -/
def setLocal (scope : Scope) (name : String) (value : Value) : Scope :=
  match scope.locals with
  | [] => scope.assign name value
  | frame :: locals => { scope with locals := frame.put name value :: locals }

/-- The value of a counter. -/
def counter (scope : Scope) (name : String) : Int :=
  (scope.counters.get? name).getD 0

/-- Moves a counter and shows it as a global. -/
def count (scope : Scope) (name : String) (step : Int) : Int × Scope :=
  let number := scope.counter name + step
  (number, { scope.assign name (.integer number) with counters := scope.counters.put name number })

/-- How often a cycle was asked for a position. -/
def turns (scope : Scope) (key : String) : Nat :=
  (scope.cycles.get? key).getD 0

/-- The next position of a cycle over so many values. A cycle over none has no position, though
asking counts. -/
def cycle (scope : Scope) (key : String) (size : Int) : Except Crash Int × Scope :=
  let turn := scope.turns key
  (if size == 0 then .error .emptyCycle else .ok (Int.fmod turn size),
    { scope with cycles := scope.cycles.put key (turn + 1) })

end Scope

end Liquid
