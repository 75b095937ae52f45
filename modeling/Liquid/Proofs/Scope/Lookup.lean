import Liquid.Scope

/-!
# What a Name Stands for Now

How one act changes what a name stands for. A variable that is written stands
for what was written, since the innermost frame is looked at first; all other
names stand for what they stood for. An empty frame hides nothing.

## Theorems

* `Scope.lookup_setLocal_self`, `Scope.lookup_setLocal_of_ne`: Writing a variable.
* `Scope.lookup_assign_self`, `Scope.lookup_count_self`: Writing a global.
* `Scope.lookup_push_nil`: Laying an empty frame.
* `Scope.lookup_congr`: Scopes that agree on a name in all frames.
-/

namespace Liquid

namespace Scope

variable {scope : Scope} {name other : String}

/-- A name stands for what the innermost frame says that has it, and the globals come last. -/
theorem lookup_eq (scope : Scope) (name : String) :
    scope.lookup name =
      ((scope.locals.findSome? (Table.get? · name)).or (scope.globals.get? name)).getD .nil := by
  unfold lookup frames
  rw [List.findSome?_append, List.findSome?_singleton]

/-- Scopes with the same frames in which a global is the same. -/
theorem lookup_congr {first second : Scope} (hlocals : first.locals = second.locals)
    (hglobals : first.globals.get? name = second.globals.get? name) :
    first.lookup name = second.lookup name := by
  rw [lookup_eq, lookup_eq, hlocals, hglobals]

/-- An empty frame hides nothing. -/
theorem lookup_push_nil : (scope.push []).lookup name = scope.lookup name := by
  rw [lookup_eq, lookup_eq]
  rfl

/-- What is bound in the innermost frame is found first. -/
theorem lookup_setLocal_self (scope : Scope) (name : String) (value : Value) :
    (scope.setLocal name value).lookup name = value := by
  rcases scope with ⟨globals, locals, counters, cycles⟩
  rw [lookup_eq]
  cases locals with
  | nil => simp [setLocal, assign, Table.get?_put_self]
  | cons frame outer => simp [setLocal, Table.get?_put_self]

theorem lookup_setLocal_of_ne (h : other ≠ name) (value : Value) :
    (scope.setLocal name value).lookup other = scope.lookup other := by
  rcases scope with ⟨globals, locals, counters, cycles⟩
  rw [lookup_eq, lookup_eq]
  cases locals with
  | nil => simp [setLocal, assign, Table.get?_put_of_ne _ _ h]
  | cons frame outer => simp [setLocal, List.findSome?_cons, Table.get?_put_of_ne _ _ h]

/-- Where no loop is open, a global that was just written is not hidden. -/
theorem lookup_assign_self (h : scope.locals = []) (name : String) (value : Value) :
    (scope.assign name value).lookup name = value := by
  rw [lookup_eq]
  simp [assign, h, Table.get?_put_self]

/-- Where no loop is open, a variable that was just counted stands for its counter. -/
theorem lookup_count_self (h : scope.locals = []) (name : String) (step : Int) :
    (scope.count name step).2.lookup name = .integer (scope.counter name + step) :=
  (lookup_congr rfl rfl).trans (lookup_assign_self h name _)

end Scope

end Liquid
