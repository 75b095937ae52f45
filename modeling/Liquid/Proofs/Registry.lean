import Liquid.Environment
import Liquid.Proofs.Table
import Mathlib.Data.List.Induction

/-!
# What an Environment Holds

The host adds to an environment step by step, with lists of entries or with
entries under names. Under each name the environment holds what was registered
last along all the steps, and otherwise the entry of the language. Two steps do
what one would do with the entries of both.

An entry is held under its own name, and a function under the name that it is
given. To be registered under a name is to be given under it. That is the same
for entries of a list and for functions, but an entry that is given under a name
keeps its own all the same. So a name that is not its own finds nothing. Entries
are held as they are registered exactly if all of them are given under their own
names.

Each step starts again from the language, and remarks on all entries so far that
take the name of a built-in one.

## Main definitions

* `Given.identified`: Entries with the names that they are held under.
* `Given.registered`: Entries with the names that they are registered under.
* `Given.OwnNames`: Whether entries under names are given under their own.
* `Environment.Registers`: What an environment and its remarks are, after a row
  of steps.

## Theorems

* `Table.get?_ofEntries`: What is written last is found.
* `Environment.get?_registry`: What is found in a registry.
* `Given.identified_eq_registered_iff`: Which entries are held as they are
  registered.
* `Environment.built_eq_create`: Many steps as one.
* `Environment.built_registers`: An environment holds what it was given.
* `Environment.built_foreign_name`: An entry under a name that is not its own.
-/

namespace Liquid

namespace Table

variable {α : Type}

/-- Under a name stands what was written last. -/
theorem get?_ofEntries (entries : List (String × α)) (name : String) :
    (ofEntries entries).get? name = entries.reverse.lookup name := by
  -- From the last entry on, as it is the one that is put last and looked at first.
  induction entries using List.reverseRecOn with
  | nil => rfl
  | append_singleton entries entry ih =>
      have hput : ofEntries (entries ++ [entry]) = (ofEntries entries).put entry.1 entry.2 := by
        simp [ofEntries]
      rw [hput, List.reverse_append, List.reverse_singleton, List.singleton_append,
        List.lookup_cons]
      by_cases hname : name = entry.1
      · rw [hname, get?_put_self, beq_self_eq_true]
      · rw [get?_put_of_ne _ _ hname, ih, beq_false_of_ne hname]

/-- Entries that are listed under their names are found by them. -/
theorem lookup_map_pair (nameOf : α → String) (entries : List α) (name : String) :
    (entries.map fun entry => (nameOf entry, entry)).lookup name =
      entries.find? fun entry => nameOf entry == name := by
  induction entries with
  | nil => rfl
  | cons entry entries ih =>
      rw [List.map_cons, List.lookup_cons, List.find?_cons, ih, BEq.comm]

end Table

namespace Given

variable {α φ : Type} (nameOf : α → String) (ofFunction : String → φ → α)

/-- Entries with the names that they are held under: functions with those that they are given
under, all others with their own. -/
def identified : Given α φ → List (String × α)
  | listed entries => entries.map fun entry => (nameOf entry, entry)
  | named entries => entries.map fun (name, item) =>
      item.elim (fun entry => (nameOf entry, entry)) fun function => (name, ofFunction name function)

/-- Entries with the names that they are registered under: those of a list with their own, the
others with those that they are given under. -/
def registered : Given α φ → List (String × α)
  | listed entries => entries.map fun entry => (nameOf entry, entry)
  | named entries => entries.map fun (name, item) => (name, item.elim id (ofFunction name))

/-- Whether the entries that are given under names are given under their own. -/
def OwnNames : Given α φ → Prop
  | listed _ => True
  | named entries => ∀ name entry, (name, .inl entry) ∈ entries → nameOf entry = name

variable {nameOf ofFunction}

/-- All entries are held under their own names, since a function gets the name that it is given. -/
theorem map_entries (hfunction : ∀ name function, nameOf (ofFunction name function) = name)
    (given : Given α φ) :
    (given.entries (Table.resolved ofFunction)).map (fun entry => (nameOf entry, entry)) =
      given.identified nameOf ofFunction := by
  cases given with
  | listed entries => rfl
  | named entries =>
      unfold Given.entries identified Table.resolved
      rw [List.map_map]
      refine List.map_congr_left fun ⟨name, item⟩ _ => ?_
      -- A function is given the key for its name, and an object brings its own.
      cases item with
      | inl entry => rfl
      | inr function => exact Prod.ext (hfunction name function) rfl

/-- Entries are held as they are registered exactly if they are given under their own names. -/
theorem identified_eq_registered_iff (given : Given α φ) :
    given.identified nameOf ofFunction = given.registered nameOf ofFunction ↔
      given.OwnNames nameOf := by
  cases given with
  | listed entries => exact iff_of_true rfl trivial
  | named entries =>
      unfold identified registered OwnNames
      rw [List.map_inj_left]
      constructor
      · intro h name entry hentry
        exact congrArg Prod.fst (h (name, .inl entry) hentry)
      -- Only an object can have another name than its key.
      · rintro h ⟨name, item⟩ hitem
        cases item with
        | inl entry => exact Prod.ext (h name entry hitem) rfl
        | inr function => rfl

end Given

theorem Extras.append_assoc (first second third : Extras) :
    (first.append second).append third = first.append (second.append third) := by
  simp only [Extras.append, List.append_assoc]

namespace Additions

/-- The settings that were given last, in a row of steps. -/
def lastSettings (steps : List Additions) : Settings :=
  (steps.reverse.findSome? settings).getD {}

/-- The extras of all steps in a row. -/
def allExtras (steps : List Additions) : Extras where
  filters := steps.flatMap fun step => step.extras.filters
  tags := steps.flatMap fun step => step.extras.tags
  operators := steps.flatMap fun step => step.extras.operators

/-- The filters with the names that they are held under. -/
def identifiedFilters (additions : Additions) : List (String × Filter) :=
  additions.filters.identified Filter.name Filter.ofFunction

/-- The filters with the names that they are registered under. -/
def registeredFilters (additions : Additions) : List (String × Filter) :=
  additions.filters.registered Filter.name Filter.ofFunction

/-- The operators with the names that they are held under. -/
def identifiedOperators (additions : Additions) : List (String × Operator) :=
  additions.operators.identified Operator.name Operator.mk

/-- The operators with the names that they are registered under. -/
def registeredOperators (additions : Additions) : List (String × Operator) :=
  additions.operators.registered Operator.name Operator.mk

/-- Whether what is given under names is given under its own. -/
structure OwnNames (additions : Additions) : Prop where
  filters : additions.filters.OwnNames Filter.name
  operators : additions.operators.OwnNames Operator.name

/-- All the filters that are given, under their own identifiers, one step after the other. -/
theorem map_filters (steps : List Additions) :
    (allExtras steps).filters.map (fun filter => (filter.name, filter)) =
      steps.flatMap identifiedFilters := by
  unfold allExtras
  rw [List.map_flatMap]
  exact List.flatMap_congr fun step _ => Given.map_entries (fun _ _ => rfl) step.filters

/-- All the operators that are given, under their own identifiers, one step after the other. -/
theorem map_operators (steps : List Additions) :
    (allExtras steps).operators.map (fun operator => (operator.name, operator)) =
      steps.flatMap identifiedOperators := by
  unfold allExtras
  rw [List.map_flatMap]
  exact List.flatMap_congr fun step _ => Given.map_entries (fun _ _ => rfl) step.operators

end Additions

namespace Environment

section Registry

variable {α : Type} {nameOf : α → String}

/-- What a registry holds under a name is called so. -/
theorem name_of_get?_registry {standard extras : List α} {name : String} {entry : α}
    (h : (registry nameOf standard extras).get? name = some entry) : nameOf entry = name := by
  have hmem := Table.mem_of_mem_ofEntries (Table.mem_of_get?_eq_some h)
  rcases List.mem_map.mp hmem with ⟨_, _, heq⟩
  cases heq
  rfl

/-- The extra entry that was added last is found, or the one of the language. -/
theorem get?_registry {standard extras : List α} (hnodup : (standard.map nameOf).Nodup)
    (name : String) :
    (registry nameOf standard extras).get? name =
      ((extras.map fun entry => (nameOf entry, entry)).reverse.lookup name).or
        (standard.find? fun entry => nameOf entry == name) := by
  have hkeys : ((standard.map fun entry => (nameOf entry, entry)).map Prod.fst).Nodup := by
    rw [List.map_map]
    exact hnodup
  -- Extras are put behind the standard ones, so they are found first.
  unfold registry
  rw [Table.get?_ofEntries, List.map_append, List.reverse_append, List.lookup_append,
    ← Table.get?_ofEntries (standard.map _), Table.ofEntries_of_nodup hkeys]
  exact congrArg _ (Table.lookup_map_pair nameOf standard name)

/-- The remarks on those of some names that are names of the language. -/
def overridden (kind : EntryKind) (builtin names : List String) : List Remark :=
  (names.filter fun name => builtin.contains name).map (Remark.overridden kind)

/-- The remarks depend only on the names. -/
theorem overrides_eq_overridden (kind : EntryKind) (standard extras : List α) :
    overrides kind nameOf standard extras =
      overridden kind (standard.map nameOf)
        ((extras.map fun entry => (nameOf entry, entry)).map Prod.fst) := by
  unfold overrides overridden
  rw [List.map_map, List.filter_map, List.map_map]
  refine congrArg _ (List.filter_congr fun extra _ => ?_)
  rw [Bool.eq_iff_iff, Function.comp_apply, List.contains_iff_mem, List.any_eq_true, List.mem_map]
  simp only [beq_iff_eq, Function.comp_apply]

end Registry

/-- Two steps do what one does with the entries of both, and the settings that were given last. -/
theorem extend_extend (environment : Environment) (settings settings' : Option Settings)
    (extras extras' : Extras) :
    (environment.extend settings extras).1.extend settings' extras' =
      environment.extend (settings'.or settings) (extras.append extras') := by
  change create (settings'.getD (settings.getD environment.settings))
      ((environment.extras.append extras).append extras') = create _ _
  rw [Extras.append_assoc]
  cases settings' <;> rfl

/-- Steps in a row do what one does with all that they add. -/
theorem built_eq_create (first : Additions) (more : List Additions) :
    built first more =
      create (Additions.lastSettings (first :: more)) (Additions.allExtras (first :: more)) := by
  -- On the steps from the last one: extending is creating anew with all that was given so far.
  induction more using List.reverseRecOn with
  | nil =>
      simp only [built, Additions.lastSettings, Additions.allExtras, List.foldl_nil,
        List.reverse_singleton, List.findSome?_singleton, List.flatMap_singleton]
  | append_singleton more last ih =>
      have hlast : built first (more ++ [last]) =
          (built first more).1.extend last.settings last.extras := by
        simp only [built, List.foldl_append, List.foldl_cons, List.foldl_nil]
      have hsettings : Additions.lastSettings (first :: (more ++ [last])) =
          last.settings.getD (Additions.lastSettings (first :: more)) := by
        unfold Additions.lastSettings
        rw [← List.cons_append, List.reverse_append, List.reverse_singleton,
          List.singleton_append, List.findSome?_cons]
        -- The settings of a step stand in place of the earlier ones, if it has any.
        cases last.settings <;> rfl
      have hextras : Additions.allExtras (first :: (more ++ [last])) =
          (Additions.allExtras (first :: more)).append last.extras := by
        simp [Additions.allExtras, Extras.append]
      rw [hlast, ih, hsettings, hextras]
      rfl

/-- No two of the standard filters share a name, whatever the date format is. -/
theorem nodup_standard_filters (dateFormat : Option String) :
    ((Filter.standard dateFormat).map Filter.name).Nodup := by
  have hnames : (Filter.standard dateFormat).map Filter.name =
      (Filter.standard none).map Filter.name := rfl
  rw [hnames]
  decide

theorem nodup_standard_operators : (Operator.standard.map Operator.name).Nodup := by
  decide

theorem create_settings (settings : Settings) (extras : Extras) :
    (create settings extras).1.settings = settings :=
  rfl

theorem create_filters (settings : Settings) (extras : Extras) :
    (create settings extras).1.filters =
      registry Filter.name (Filter.standard settings.dateFormat) extras.filters := by
  simp only [create]

theorem create_operators (settings : Settings) (extras : Extras) :
    (create settings extras).1.operators =
      registry Operator.name Operator.standard extras.operators := by
  simp only [create]

/-- What an environment and its remarks are, after a row of steps that add filters and operators
under names. -/
structure Registers (filtersOf : Additions → List (String × Filter))
    (operatorsOf : Additions → List (String × Operator)) (steps : List Additions)
    (environment : Environment) (remarks : List Remark) : Prop where
  settings : environment.settings = Additions.lastSettings steps
  filters : ∀ name, environment.filters.get? name =
    ((steps.flatMap filtersOf).reverse.lookup name).or
      ((Filter.standard environment.settings.dateFormat).find? fun filter => filter.name == name)
  date : ((Filter.standard environment.settings.dateFormat).find? fun filter =>
    filter.name == "date") = some (Filter.date environment.settings.dateFormat)
  operators : ∀ name, environment.operators.get? name =
    ((steps.flatMap operatorsOf).reverse.lookup name).or
      (Operator.standard.find? fun operator => operator.name == name)
  remarks : remarks =
    overridden .filter ((Filter.standard environment.settings.dateFormat).map Filter.name)
        ((steps.flatMap filtersOf).map Prod.fst)
      ++ overridden .tag (Tag.standard.map Tag.name)
        ((steps.flatMap Additions.tags).map Tag.name)
      ++ overridden .operator (Operator.standard.map Operator.name)
        ((steps.flatMap operatorsOf).map Prod.fst)

/-- An environment that is created at once registers everything it was given. -/
theorem registers_create {steps : List Additions} (settings : Settings)
    (hsettings : settings = Additions.lastSettings steps) :
    Registers Additions.identifiedFilters Additions.identifiedOperators steps
      (create settings (Additions.allExtras steps)).1
      (create settings (Additions.allExtras steps)).2 where
  settings := hsettings
  filters name := by
    rw [← Additions.map_filters, create_filters, create_settings]
    exact get?_registry (nodup_standard_filters settings.dateFormat) name
  date := by
    rw [create_settings]
    rfl
  operators name := by
    rw [← Additions.map_operators, create_operators]
    exact get?_registry nodup_standard_operators name
  remarks := by
    -- Tags are always listed under their own names.
    have htags : (steps.flatMap Additions.tags).map Tag.name =
        ((Additions.allExtras steps).tags.map fun tag => (tag.name, tag)).map Prod.fst := by
      rw [List.map_map]
      rfl
    rw [← Additions.map_filters, ← Additions.map_operators, htags, create_settings,
      ← overrides_eq_overridden, ← overrides_eq_overridden, ← overrides_eq_overridden]
    rfl

/-- Only the names under which the steps add their entries matter. -/
theorem Registers.congr {filtersOf filtersOf' : Additions → List (String × Filter)}
    {operatorsOf operatorsOf' : Additions → List (String × Operator)} {steps : List Additions}
    {environment : Environment} {remarks : List Remark}
    (h : Registers filtersOf operatorsOf steps environment remarks)
    (hfilters : ∀ step ∈ steps, filtersOf step = filtersOf' step)
    (hoperators : ∀ step ∈ steps, operatorsOf step = operatorsOf' step) :
    Registers filtersOf' operatorsOf' steps environment remarks := by
  have hfilters := List.flatMap_congr hfilters
  have hoperators := List.flatMap_congr hoperators
  exact ⟨h.settings, hfilters ▸ h.filters, h.date, hoperators ▸ h.operators,
    hfilters ▸ hoperators ▸ h.remarks⟩

/-- An environment that is built step by step holds under each name what was added last under it,
and otherwise the entry of the language. What is added under a name is what has it for its own, or a
function that is given under it. That is what is registered under the name if all steps give their
entries under their own names. Two more steps do what one does with the entries of both. -/
theorem built_registers (first : Additions) (more : List Additions) :
    Registers Additions.identifiedFilters Additions.identifiedOperators (first :: more)
        (built first more).1 (built first more).2 ∧
      ((∀ step ∈ first :: more, step.OwnNames) →
        Registers Additions.registeredFilters Additions.registeredOperators (first :: more)
          (built first more).1 (built first more).2) ∧
      ∀ settings settings' extras extras',
        ((built first more).1.extend settings extras).1.extend settings' extras' =
          (built first more).1.extend (settings'.or settings) (extras.append extras') := by
  have hheld : Registers Additions.identifiedFilters Additions.identifiedOperators (first :: more)
      (built first more).1 (built first more).2 := by
    rw [built_eq_create]
    exact registers_create _ rfl
  refine ⟨hheld, fun hown => ?_, fun settings settings' extras extras' =>
    extend_extend _ settings settings' _ _⟩
  -- Where every object has its key for a name, the two ways of naming agree.
  exact hheld.congr
    (fun step hstep => (Given.identified_eq_registered_iff _).mpr (hown step hstep).filters)
    (fun step hstep => (Given.identified_eq_registered_iff _).mpr (hown step hstep).operators)

/-- A built-in filter is overridden in the first step and remarked on again in the last, which adds
another one. -/
theorem built_registers_overridden :
    let first : Additions := { filters := .named [("upcase", .inr ⟨{}, fun v _ => .ok v⟩)] }
    let more : List Additions :=
      [{ settings := some { dateFormat := some "%Y" }
         filters := .named [("wrap", .inl (Filter.ofUnary "wrap" .ok))] },
        { filters := .listed [Filter.ofUnary "shout" .ok] }]
    (∀ step ∈ first :: more, step.OwnNames) ∧
      Registers Additions.registeredFilters Additions.registeredOperators (first :: more)
        (built first more).1 (built first more).2 ∧
      (built first more).1.settings.dateFormat = some "%Y" ∧
      (built first more).2 = [.overridden .filter "upcase"] := by
  intro first more
  have hown : ∀ step ∈ first :: more, step.OwnNames := by
    intro step hstep
    simp only [first, more, List.mem_cons, List.not_mem_nil, or_false] at hstep
    rcases hstep with rfl | rfl | rfl
    · exact ⟨by simp [Given.OwnNames], trivial⟩
    · refine ⟨?_, trivial⟩
      simp only [Given.OwnNames, List.mem_singleton, Prod.mk.injEq, Sum.inl.injEq]
      rintro _ _ ⟨rfl, rfl⟩
      rfl
    · exact ⟨trivial, trivial⟩
  exact ⟨hown, (built_registers first more).2.1 hown, rfl, rfl⟩

/-- An entry that is given under a name that is not its own is not found under that, but under its
own, where nothing was registered. A function is found under the name that it is given. -/
theorem built_foreign_name :
    let boxed : Additions := { filters := .named [("box", .inl (Filter.ofUnary "wrap" .ok))] }
    let function : Additions := { filters := .named [("box", .inr ⟨{}, fun v _ => .ok v⟩)] }
    (boxed.registeredFilters.reverse.lookup "box").isSome = true ∧
      ((built boxed []).1.filters.get? "box").isSome = false ∧
      (boxed.registeredFilters.reverse.lookup "wrap").isSome = false ∧
      ((built boxed []).1.filters.get? "wrap").isSome = true ∧
      ((built function []).1.filters.get? "box").isSome = true := by
  exact ⟨rfl, rfl, rfl, rfl, rfl⟩

end Environment

end Liquid
