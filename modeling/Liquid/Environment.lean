import Liquid.Filter.Standard
import Liquid.Operator
import Liquid.Settings
import Liquid.Tag.Standard

/-!
# Environments

What a template is compiled and rendered in: the settings, and the filters,
tags and operators by name. Those of the language come first. What a host adds
is laid over them in turn, so that the last entry of a name counts, and a
remark tells of each that takes the name of a built-in one.

An environment remembers what was added to it. Extending it starts again from
the language with all of that, not from the finished registries, and so the
remarks come again as well.

## Main definitions

* `Extras`: What a host adds.
* `Given`: One kind of entries as a host gives them.
* `Additions`: All that a host gives in one go.
* `Environment`: Settings and registries.
* `Environment.create`: The environment of some settings and extras.
* `Environment.extend`: An environment with more extras.
* `Environment.built`: The environment of a row of additions.
* `Environment.standard`: The environment without extras.
-/

namespace Liquid

/-- What a host adds to the language, in the order in which it is added. -/
structure Extras where
  filters : List Filter := []
  tags : List Tag := []
  operators : List Operator := []

/-- Both lists of extras, one after the other. -/
def Extras.append (first second : Extras) : Extras :=
  ⟨first.filters ++ second.filters, first.tags ++ second.tags,
    first.operators ++ second.operators⟩

/-- Entries of one kind as a host gives them. Under names, a function may stand for an entry. -/
inductive Given (α φ : Type)
  | listed (entries : List α)
  | named (entries : Table (α ⊕ φ))

/-- The entries in the order in which they are added. -/
def Given.entries {α φ : Type} (ofNamed : Table (α ⊕ φ) → List α) : Given α φ → List α
  | listed entries => entries
  | named entries => ofNamed entries

/-- What a host gives to an environment in one go. -/
structure Additions where
  settings : Option Settings := none
  filters : Given Filter Filter.Function := .listed []
  tags : List Tag := []
  operators : Given Operator (Value → Value → Value) := .listed []

/-- The extras among what is given. -/
def Additions.extras (additions : Additions) : Extras where
  filters := additions.filters.entries Filter.ofNamed
  tags := additions.tags
  operators := additions.operators.entries Operator.ofNamed

/-- Settings and registries. -/
structure Environment where
  settings : Settings
  extras : Extras
  filters : Table Filter
  tags : Table Tag
  operators : Table Operator

namespace Environment

/-- Entries by name, the extra ones laid over those of the language. -/
def registry {α : Type} (name : α → String) (standard extras : List α) : Table α :=
  Table.ofEntries ((standard ++ extras).map fun entry => (name entry, entry))

/-- A remark on each extra entry with the name of one of the language. -/
def overrides {α : Type} (kind : EntryKind) (name : α → String) (standard extras : List α) :
    List Remark :=
  (extras.filter fun extra => standard.any fun entry => name entry == name extra).map
    fun extra => .overridden kind (name extra)

/-- The environment of some settings and extras. -/
def create (settings : Settings) (extras : Extras) : Environment × List Remark :=
  let filters := Filter.standard settings.dateFormat
  ({ settings, extras
     filters := registry Filter.name filters extras.filters
     tags := registry Tag.name Tag.standard extras.tags
     operators := registry Operator.name Operator.standard extras.operators },
    overrides .filter Filter.name filters extras.filters
      ++ overrides .tag Tag.name Tag.standard extras.tags
      ++ overrides .operator Operator.name Operator.standard extras.operators)

/-- The environment without extras. -/
def standard : Environment :=
  (create {} {}).1

/-- An environment with more extras, and other settings if some are given. -/
def extend (environment : Environment) (settings : Option Settings) (extras : Extras) :
    Environment × List Remark :=
  create (settings.getD environment.settings) (environment.extras.append extras)

/-- The environment of what is given first, with more given to it step by step; and the remarks of
the last step. -/
def built (first : Additions) (more : List Additions) : Environment × List Remark :=
  more.foldl (fun before additions => before.1.extend additions.settings additions.extras)
    (create (first.settings.getD {}) first.extras)

/-- A line about the environment. -/
def summary (environment : Environment) : String :=
  "Environment(filters=" ++ toString environment.filters.length ++ ", tags="
    ++ toString environment.tags.length ++ ", operators="
    ++ toString environment.operators.length ++ ")"

end Environment

end Liquid
