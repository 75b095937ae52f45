import Liquid.Filter.Text
import Liquid.Proofs.Decimal.Integer

/-!
# Calls of Filters

What a filter makes of the arguments that a template writes, if it is a function
with arguments by position only. As many arguments are taken as there are
parameters. Too few are refused, whatever they are. The rest of them is dropped,
and so is every option. An integer that is given as a count is taken as it is,
however large.

## Theorems

* `Filter.plainSignature_bind`: The arguments of a call.
* `Filter.countOf_integer`: An integer as a count.
* `Filter.ofUnary_apply`, `Filter.ofOptional_apply`, `Filter.ofOptionals_apply`,
  `Filter.ofBinary_apply`, `Filter.ofTernary_apply`, `Filter.ofChars_apply`: What a
  filter does with them.
-/

namespace Liquid

namespace Filter

section Plain

variable (name : String)

theorem needed_plainSignature (required optional : Nat) :
    (plainSignature required optional).needed = required := by
  have hall : (List.range required).filter (fun i => decide (i < required)) = List.range required :=
    List.filter_eq_self.mpr fun i hi => decide_eq_true (List.mem_range.mp hi)
  have hnone : (List.range optional).filter (fun i => decide (required + i < required)) = [] :=
    List.filter_eq_nil_iff.mpr fun i _ => by simp
  unfold Signature.needed plainSignature
  dsimp only
  rw [List.range_add]
  simp only [List.map_append, List.filter_append, List.filter_map, Function.comp_def, List.map_map,
    hall, hnone, List.map_nil, List.append_nil, List.length_map, List.length_range]

/-- No option is taken. -/
theorem kept_plainSignature (required optional : Nat) (options : Table Value) :
    (plainSignature required optional).kept options = [] :=
  List.filter_eq_nil_iff.mpr fun _ _ => Bool.false_ne_true

/-- The arguments that are received are those that there are parameters for, and nothing in the
place of any that is missing. -/
theorem bound_plainSignature (required optional : Nat) (args : List Value)
    (options : Table Value) :
    (plainSignature required optional).bound args options =
      ⟨(args.take (required + optional)).map some ++
        List.replicate (required + optional - args.length) none, [], []⟩ := by
  have hlength : (plainSignature required optional).positional.length = required + optional := by
    simp [plainSignature]
  have hunnamed : (plainSignature required optional).unnamed = 0 := rfl
  -- No argument is behind the last parameter, so none is surplus.
  have hsurplus : ((plainSignature required optional).passed args).drop (required + optional) =
      [] := by
    rw [← hlength]
    exact List.drop_eq_nil_of_le (List.length_take_le ..)
  unfold Signature.bound Signature.passedOver Signature.fillable Signature.vacant
  simp only [kept_plainSignature, hlength, hunnamed, hsurplus, Nat.zero_sub, List.take_zero,
    List.drop_zero, List.map_nil, List.append_nil, List.filter_nil, Arguments.mk.injEq, and_true,
    List.append_cancel_left_eq]
  rw [← hlength, ← List.length_drop]
  exact List.map_const' ..

/-- Too few arguments are refused, and nothing else is. -/
theorem plainSignature_bind (required optional : Nat) (args : List Value) (options : Table Value) :
    (plainSignature required optional).bind name args options =
      if args.length < required then
        .error (.rejected (.missingArguments name required args.length))
      else .ok ⟨(args.take (required + optional)).map some ++
        List.replicate (required + optional - args.length) none, [], []⟩ := by
  unfold Signature.bind
  rw [needed_plainSignature, kept_plainSignature, bound_plainSignature]
  rfl

theorem ofUnary_apply (f : Value → Except FilterFailure Value) (v : Value) (args : List Value)
    (options : Table Value) :
    (ofUnary name f).apply v args options = .ofExcept (f v) := by
  simp only [ofUnary, ofFunction, plainSignature_bind]
  rfl

theorem ofOptional_apply (f : Value → Option Value → Except FilterFailure Value) (v : Value)
    (args : List Value) (options : Table Value) :
    (ofOptional name f).apply v args options = .ofExcept (f v args.head?) := by
  simp only [ofOptional, ofFunction, plainSignature_bind]
  cases args with
  | nil => rfl
  | cons w args => rfl

theorem ofOptionals_apply (f : Value → Option Value → Option Value → Except FilterFailure Value)
    (v : Value) (args : List Value) (options : Table Value) :
    (ofOptionals name f).apply v args options = .ofExcept (f v args.head? args.tail.head?) := by
  simp only [ofOptionals, ofFunction, plainSignature_bind]
  match args with
  | [] => rfl
  | [_] => rfl
  | _ :: _ :: _ => rfl

/-- A filter with one argument asks for it, and takes no notice of others. -/
theorem ofBinary_apply (f : Value → Value → Except FilterFailure Value) (v : Value)
    (args : List Value) (options : Table Value) :
    (ofBinary name f).apply v args options =
      match args with
      | [] => .error (.rejected (.missingArguments name 1 0))
      | w :: _ => .ofExcept (f v w) := by
  simp only [ofBinary, ofFunction, plainSignature_bind]
  cases args with
  | nil => rfl
  | cons w args => rfl

/-- A filter with an argument and an optional one asks for the first. -/
theorem ofTernary_apply (f : Value → Value → Option Value → Except FilterFailure Value) (v : Value)
    (args : List Value) (options : Table Value) :
    (ofTernary name f).apply v args options =
      match args with
      | [] => .error (.rejected (.missingArguments name 1 0))
      | w :: rest => .ofExcept (f v w rest.head?) := by
  simp only [ofTernary, ofFunction, plainSignature_bind]
  cases args with
  | nil => rfl
  | cons w rest => cases rest <;> rfl

theorem ofChars_apply (f : List Char → List Char) (v : Value) (args : List Value)
    (options : Table Value) :
    (ofChars name f).apply v args options = .ok (.string (String.ofList (f v.display.toList))) :=
  ofUnary_apply name _ v args options

end Plain

theorem countOf_integer (default n : Int) : countOf default (some (.integer n)) = n := by
  change ((Decimal.ofInt n).truncated?).getD default = n
  rw [Decimal.truncated?_ofInt]
  rfl

end Filter

end Liquid
