import Liquid.Filter
import Liquid.Proofs.Table
import Mathlib.Data.List.Basic

/-!
# How a Function gets its Arguments

A function that is used as a filter is called with the arguments that it has
room for and the options that it knows. What such a call means is a rule of its
own, which knows nothing of filters: arguments fill parameters by position, an
option fills the parameter of its name or is handed over as it is, nothing is
filled twice, and all that has to be filled is.

A filter keeps to that rule in all calls but two kinds. A function that takes
options under any name is also handed one with the name of a parameter that is
filled by position already. And options that have to be given are not counted
among the arguments that may be too few. In both cases there is no call that the
rule allows, and the filter does not refuse the template but crashes.

## Main definitions

* `Signature.WellFormed`: What holds of the parameters of every function.
* `Signature.Binds`: What a call means.
* `Signature.Overfilled`, `Signature.Unfilled`: The two kinds of calls that
  crash.

## Theorems

* `Signature.bind_eq_bound`, `Signature.exists_crash`: What becomes of a call.
* `Signature.binds_bound`, `Signature.Binds.eq_bound`: The one meaning of a call.
* `Filter.function_called`: What a filter does with its function.
* `Filter.function_crashes`: A call of each of the two kinds.
-/

namespace Liquid

namespace Signature

/-- The names of the parameters that are filled in order, that for the input first. -/
def names (signature : Signature) : List String :=
  signature.input :: signature.positional.map (·.name)

/-- What holds of the parameters of every function: no option is named like one that is filled in
order, and of these none that has to be filled stands behind one that may be left. -/
structure WellFormed (signature : Signature) : Prop where
  apart : ∀ option ∈ signature.options, option.name ∉ signature.names
  ordered : signature.positional.Pairwise fun first second : Parameter =>
    second.required = true → first.required = true

/-- What a call with arguments behind the input and with options means for the function. -/
structure Binds (signature : Signature) (args : List Value) (options : Table Value)
    (bound : Arguments) : Prop where
  room : args.length ≤ signature.positional.length ∨ signature.takesSurplus = true
  positional : bound.positional = signature.positional.mapIdx fun i parameter =>
    (args[i]?).or (if signature.unnamed ≤ i + 1 then options.get? parameter.name else none)
  surplus : bound.surplus = args.drop signature.positional.length
  /-- No option fills a parameter that an argument fills. -/
  once : ∀ option ∈ options, option.1 ∉
    (signature.names.take (args.length + 1)).drop signature.unnamed
  /-- Options that fill no parameter are handed over. -/
  options : bound.options = options.filter fun option =>
    !(signature.names.drop (max signature.unnamed (args.length + 1))).contains option.1
  taken : ∀ option ∈ bound.options, signature.knows option.1 = true
  required : ∀ (i : Nat) (parameter : Parameter), signature.positional[i]? = some parameter →
    parameter.required = true → ∃ v, bound.positional[i]? = some (some v)
  requiredOptions : ∀ option ∈ signature.options, option.required = true →
    bound.options.has option.name = true

/-- Whether some option has the name of a parameter that an argument fills. -/
def Overfilled (signature : Signature) (args : List Value) (options : Table Value) : Prop :=
  ∃ option ∈ signature.kept options, option.1 ∈ signature.filled args

/-- Whether an option that has to be given is missing. -/
def Unfilled (signature : Signature) (options : Table Value) : Prop :=
  ∃ option ∈ signature.options, option.required = true ∧
    (signature.kept options).has option.name = false

section Binding

variable {signature : Signature} {args : List Value} {options : Table Value}

/-- Too few arguments are counted, and refused before anything is bound. -/
theorem bind_eq_of_few (name : String) (h : args.length < signature.needed) :
    signature.bind name args options =
      .error (.rejected (.missingArguments name signature.needed args.length)) := by
  unfold bind
  exact if_pos h

/-- What is bound twice or not at all is looked for, and otherwise all is bound. -/
theorem bind_eq_bound (name : String) (h : signature.needed ≤ args.length)
    (hover : ¬signature.Overfilled args options) (hunfilled : ¬signature.Unfilled options) :
    signature.bind name args options = .ok (signature.bound args options) := by
  -- No option is filled twice.
  have hfirst : (signature.kept options).find?
      (fun option => (signature.filled args).contains option.1) = none := by
    rw [List.find?_eq_none]
    intro option hoption hfilled
    exact hover ⟨option, hoption, List.contains_iff_mem.mp hfilled⟩
  -- No option that is required is left out.
  have hsecond : signature.options.find? (fun option =>
      option.required && !(signature.kept options).has option.name) = none := by
    rw [List.find?_eq_none]
    intro option hoption hmissing
    rw [Bool.and_eq_true, Bool.not_eq_true'] at hmissing
    exact hunfilled ⟨option, hoption, hmissing⟩
  unfold bind
  dsimp only
  rw [if_neg (Nat.not_lt.mpr h), hfirst, hsecond]

/-- What cannot be bound is only found when the function is called. -/
theorem exists_crash (name : String) (h : signature.needed ≤ args.length)
    (hcrash : signature.Overfilled args options ∨ signature.Unfilled options) :
    ∃ crash, signature.bind name args options = .error (.crashed crash) := by
  unfold bind
  dsimp only
  rw [if_neg (Nat.not_lt.mpr h)]
  cases hfirst : (signature.kept options).find?
      fun option => (signature.filled args).contains option.1 with
  | some option => exact ⟨_, rfl⟩
  | none =>
      cases hsecond : signature.options.find? fun option =>
          option.required && !(signature.kept options).has option.name with
      | some option => exact ⟨_, rfl⟩
      | none =>
          -- Neither search finds anything, so the call is of neither kind.
          rw [List.find?_eq_none] at hfirst hsecond
          rcases hcrash with ⟨option, hoption, hfilled⟩ | ⟨option, hoption, hrequired, hmissing⟩
          · exact absurd (List.contains_iff_mem.mpr hfilled) (hfirst option hoption)
          · exact absurd (by rw [hrequired, hmissing]; rfl) (hsecond option hoption)

theorem length_passed (signature : Signature) (args : List Value) :
    (signature.passed args).length = args.length ∧ signature.takesSurplus = true ∨
      (signature.passed args).length = min signature.positional.length args.length := by
  unfold passed
  split
  · next h => exact .inl ⟨rfl, h⟩
  · exact .inr List.length_take

/-- The parameters that the arguments fill are the same if those without room are dropped. -/
theorem filled_eq (args : List Value) :
    signature.filled args =
      (signature.names.take ((signature.passed args).length + 1)).drop signature.unnamed := by
  unfold filled names
  rw [List.take_succ_cons, ← List.map_take]
  rcases length_passed signature args with ⟨h, _⟩ | h <;> rw [h]
  rw [List.take_eq_take_min, Nat.min_comm]

/-- A call of one of the two kinds means nothing. -/
theorem not_binds (hcrash : signature.Overfilled args options ∨ signature.Unfilled options)
    (bound : Arguments) :
    ¬signature.Binds (signature.passed args) (signature.kept options) bound := by
  intro h
  -- Either a parameter has an argument and an option, or one that needs an option has none.
  rcases hcrash with ⟨option, hoption, hfilled⟩ | ⟨option, hoption, hrequired, hmissing⟩
  · rw [filled_eq] at hfilled
    exact h.once option hoption hfilled
  · have hhas := h.requiredOptions option hoption hrequired
    rw [h.options, Table.has_eq_true_iff] at hhas
    rcases hhas with ⟨entry, hentry, hname⟩
    have hkept : (signature.kept options).has option.name = true :=
      Table.has_eq_true_iff.mpr ⟨entry, List.mem_of_mem_filter hentry, hname⟩
    rw [hmissing] at hkept
    cases hkept

theorem getElem?_passed {i : Nat} (hi : i < signature.positional.length) :
    (signature.passed args)[i]? = args[i]? := by
  unfold passed
  split
  · rfl
  · rw [List.getElem?_take, if_pos hi]

/-- What the positional parameters get, each by itself. -/
theorem positional_bound :
    (signature.bound args options).positional = signature.positional.mapIdx fun i parameter =>
      ((signature.passed args)[i]?).or
        (if signature.unnamed ≤ i + 1 then (signature.kept options).get? parameter.name
          else none) := by
  refine List.ext_getElem? fun i => ?_
  rw [List.getElem?_mapIdx]
  -- A parameter without an argument may be filled by an option of its name.
  by_cases hi : i < signature.positional.length
  · rw [List.getElem?_eq_getElem hi, Option.map_some, getElem?_passed hi]
    unfold bound passedOver fillable vacant
    dsimp only
    grind
  · unfold bound passedOver fillable vacant
    dsimp only
    grind

/-- The parameters that an option can fill are the same if arguments without room are dropped. -/
theorem map_name_fillable :
    (signature.fillable args).map (·.name) =
      signature.names.drop (max signature.unnamed ((signature.passed args).length + 1)) := by
  have hmax (n : Nat) : max signature.unnamed (n + 1) = max (signature.unnamed - 1) n + 1 := by
    omega
  -- The parameters that are passed over count as filled.
  have hsum : args.length + (signature.unnamed - 1 - args.length) =
      max (signature.unnamed - 1) args.length := by
    omega
  unfold fillable vacant names
  rw [List.drop_drop, hsum, hmax, List.drop_succ_cons, ← List.map_drop]
  rcases length_passed signature args with ⟨h, _⟩ | h
  · rw [h]
  · rw [h]
    refine congrArg _ ?_
    by_cases hroom : args.length ≤ signature.positional.length
    · rw [Nat.min_eq_right hroom]
    · -- There is none behind the last parameter, however many arguments there are.
      rw [List.drop_eq_nil_of_le (by omega), List.drop_eq_nil_of_le (by omega)]

theorem options_bound :
    (signature.bound args options).options = (signature.kept options).filter fun option =>
      !(signature.names.drop
        (max signature.unnamed ((signature.passed args).length + 1))).contains option.1 := by
  unfold bound
  dsimp only
  refine List.filter_congr fun option _ => ?_
  rw [← map_name_fillable, Bool.eq_iff_iff]
  simp

/-- What a call means is what the function receives. -/
theorem Binds.eq_bound {bound : Arguments}
    (h : signature.Binds (signature.passed args) (signature.kept options) bound) :
    bound = signature.bound args options := by
  rcases bound with ⟨positional, surplus, own⟩
  have hpositional := h.positional.trans positional_bound.symm
  have hown := h.options.trans options_bound.symm
  have hsurplus : surplus = (signature.bound args options).surplus := h.surplus
  dsimp only at hpositional hown
  rw [hpositional, hown, hsurplus]

/-- A parameter that has to be filled is among the first ones. -/
theorem lt_needed {parameters : List Parameter} (hordered : parameters.Pairwise
    fun first second => second.required = true → first.required = true) {i : Nat}
    {parameter : Parameter} (hi : parameters[i]? = some parameter)
    (hrequired : parameter.required = true) : i < (parameters.filter (·.required)).length := by
  induction parameters generalizing i with
  | nil => cases hi
  | cons head rest ih =>
      rcases List.pairwise_cons.mp hordered with ⟨hhead, hrest⟩
      -- Required parameters stand in front, so each one has only required ones before it.
      cases i with
      | zero =>
          cases hi
          rw [List.filter_cons_of_pos hrequired]
          exact Nat.zero_lt_succ _
      | succ i =>
          have hmem : parameter ∈ rest := List.mem_of_getElem? hi
          rw [List.filter_cons_of_pos (hhead parameter hmem hrequired)]
          exact Nat.succ_lt_succ (ih hrest hi)

/-- A call of neither kind means what the function receives. -/
theorem binds_bound (hwf : signature.WellFormed) (h : signature.needed ≤ args.length)
    (hover : ¬signature.Overfilled args options) (hunfilled : ¬signature.Unfilled options) :
    signature.Binds (signature.passed args) (signature.kept options)
      (signature.bound args options) where
  room := by
    rcases length_passed signature args with ⟨_, htakes⟩ | hlength
    · exact .inr htakes
    · exact .inl (hlength ▸ Nat.min_le_left ..)
  positional := positional_bound
  surplus := rfl
  once option hoption hfilled := by
    rw [← filled_eq] at hfilled
    exact hover ⟨option, hoption, hfilled⟩
  options := options_bound
  taken option hoption := by
    rw [options_bound] at hoption
    exact (List.mem_filter.mp (List.mem_of_mem_filter hoption)).2
  required i parameter hi hrequired := by
    have hlt : i < args.length := Nat.lt_of_lt_of_le (lt_needed hwf.ordered hi hrequired) h
    have hroom := (List.getElem?_eq_some_iff.mp hi).1
    refine ⟨args[i], ?_⟩
    rw [positional_bound, List.getElem?_mapIdx, hi, Option.map_some, getElem?_passed hroom,
      List.getElem?_eq_getElem hlt, Option.some_or]
  requiredOptions option hoption hrequired := by
    -- The option is handed over, for no parameter has its name.
    have hkept : (signature.kept options).has option.name = true := by
      by_contra hmissing
      exact hunfilled ⟨option, hoption, hrequired, Bool.eq_false_iff.mpr hmissing⟩
    rcases Table.has_eq_true_iff.mp hkept with ⟨entry, hentry, hname⟩
    refine Table.has_eq_true_iff.mpr ⟨entry, ?_, hname⟩
    rw [options_bound, List.mem_filter, Bool.not_eq_true', ← Bool.not_eq_true,
      List.contains_iff_mem, hname]
    exact ⟨hentry, fun hmem => hwf.apart option hoption (List.mem_of_mem_drop hmem)⟩

end Binding

end Signature

namespace Filter

/-- A function that is used as a filter refuses a call with too few arguments. Any other call has
one meaning or none, once the arguments without room and the options that the function does not know
are dropped. In the first case the function is called with just that, in the second the filter
crashes, and this happens with an option for what an argument fills and without an option that has
to be given. -/
theorem function_called (name : String) (function : Function)
    (hwf : function.signature.WellFormed) (input : Value) (args : List Value)
    (options : Table Value) :
    (args.length < function.signature.needed ∧
      (ofFunction name function).apply input args options =
        .error (.rejected (.missingArguments name function.signature.needed args.length))) ∨
    function.signature.needed ≤ args.length ∧
      ((¬function.signature.Overfilled args options ∧ ¬function.signature.Unfilled options ∧
        ∃ bound, function.signature.Binds (function.signature.passed args)
            (function.signature.kept options) bound ∧
          (∀ other, function.signature.Binds (function.signature.passed args)
            (function.signature.kept options) other → other = bound) ∧
          (ofFunction name function).apply input args options =
            .ofExcept (function.body input bound)) ∨
      ((function.signature.Overfilled args options ∨ function.signature.Unfilled options) ∧
        (∀ bound, ¬function.signature.Binds (function.signature.passed args)
          (function.signature.kept options) bound) ∧
        ∃ crash, (ofFunction name function).apply input args options =
          .error (.crashed crash))) := by
  have happly : (ofFunction name function).apply input args options =
      .ofExcept (function.signature.bind name args options >>= function.body input) := rfl
  rw [happly]
  by_cases hfew : args.length < function.signature.needed
  · rw [Signature.bind_eq_of_few name hfew]
    exact .inl ⟨hfew, rfl⟩
  have henough := Nat.not_lt.mp hfew
  refine .inr ⟨henough, ?_⟩
  -- With enough arguments, binding is decided by the options.
  by_cases hcrash : function.signature.Overfilled args options ∨
      function.signature.Unfilled options
  · rcases Signature.exists_crash name henough hcrash with ⟨crash, hbind⟩
    rw [hbind]
    exact .inr ⟨hcrash, Signature.not_binds hcrash, crash, rfl⟩
  · rw [not_or] at hcrash
    have hbinds := Signature.binds_bound hwf henough hcrash.1 hcrash.2
    rw [Signature.bind_eq_bound name henough hcrash.1 hcrash.2]
    exact .inl ⟨hcrash.1, hcrash.2, _, hbinds, fun _ hother => hother.eq_bound, rfl⟩

/-- An argument without room and an option that the function does not know are dropped. -/
theorem function_called_surplus :
    let signature : Signature := { positional := [⟨"width", true⟩], options := [⟨"fill", true⟩] }
    let function : Function := ⟨signature, fun _ args => .ok (args.get 0)⟩
    let args : List Value := [.integer 3, .integer 4]
    let options : Table Value := [("fill", .string "."), ("more", .nil)]
    signature.WellFormed ∧
      signature.Binds [.integer 3] [("fill", .string ".")]
        ⟨[some (.integer 3)], [], [("fill", .string ".")]⟩ ∧
      (ofFunction "pad" function).apply (.string "a") args options = .ok (.integer 3) := by
  intro signature function args options
  have hwf : signature.WellFormed := ⟨by decide, by decide⟩
  -- There are enough arguments, and the required option is there, so only one case is left.
  rcases function_called "pad" function hwf (.string "a") args options with
    ⟨hfew, _⟩ | ⟨_, ⟨_, _, bound, hbinds, _, happly⟩ | ⟨_, _, crash, hcrash⟩⟩
  · exact absurd hfew (by decide)
  · have hbound : bound = ⟨[some (.integer 3)], [], [("fill", .string ".")]⟩ := hbinds.eq_bound
    subst hbound
    exact ⟨hwf, hbinds, happly⟩
  · cases hcrash

/-- An option with the name of a parameter that is filled already, and an option that has to be given
and is not: neither call is refused as one with too few arguments. -/
theorem function_crashes :
    let loose : Signature := { takesAnyOption := true }
    let strict : Signature := { options := [⟨"fill", true⟩] }
    (loose.WellFormed ∧ loose.needed = 0 ∧
      (ofFunction "options" ⟨loose, fun v _ => .ok v⟩).apply .nil [] [("value", .nil)] =
        .error (.crashed (.repeatedArgument "options" "value"))) ∧
    strict.WellFormed ∧ strict.needed = 0 ∧
      (ofFunction "pad" ⟨strict, fun v _ => .ok v⟩).apply .nil [] [] =
        .error (.crashed (.missingOption "pad" "fill")) := by
  exact ⟨⟨⟨by decide, by decide⟩, rfl, rfl⟩, ⟨by decide, by decide⟩, rfl, rfl⟩

end Filter

end Liquid
