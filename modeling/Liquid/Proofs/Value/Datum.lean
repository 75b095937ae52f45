import Liquid.Proofs.Table
import Liquid.Proofs.Value.Equality
import Liquid.Value.Datum

/-!
# Host Data and Back

Values go to a host and come back as they were, however deep they nest, and so
do the data that have a value of their own kind. The remaining data come back
as something else than they were: a binary number as a decimal, a progression
by other steps as a list. But what they are as values is settled the first time
that they are converted, and going to the host and back does not change it.

Both directions lose nothing of a dictionary because its keys differ. This is
not asked of the data of a host: where two of their keys give one text, the
entries are brought together on the way, so the dictionaries that conversion
makes have each key once.

## Main definitions

* `Datum.ofTexts`: A mapping whose keys are texts.
* `Datum.Plain`: The data that have a value of their own kind.
* `Datum.parts`: The data directly inside a datum.
* `Datum.Sound`: The data in which no dictionary has a key twice.

## Theorems

* `Value.ofDatum_toDatum`: A value goes to the host and comes back.
* `Value.toDatum_ofDatum`: Plain data are converted and come back.
* `Value.keysDistinct_ofDatum`: Conversion makes no dictionary with a key twice.
* `Value.conversions_inverse`: All of it, for all values and data.
-/

namespace Liquid

namespace Datum

/-- A mapping under texts. -/
def ofTexts (entries : List (String × Datum)) : Datum :=
  .mapping (entries.map fun entry => (.text entry.1, entry.2))

/-- Data that have a value of their own kind: nothing, truth values, integers, finite decimals,
texts, and lists and mappings under texts of such data. -/
inductive Plain : Datum → Prop
  | null : Plain .null
  | bool (flag : Bool) : Plain (.bool flag)
  | integer (number : Int) : Plain (.integer number)
  | decimal {number : Decimal} (hfinite : number.isFinite) : Plain (.decimal number)
  | text (text : String) : Plain (.text text)
  | list {items : List Datum} (hitems : ∀ item ∈ items, Plain item) : Plain (.list items)
  | mapping {entries : List (String × Datum)} (hkeys : (entries.map Prod.fst).Nodup)
      (hitems : ∀ entry ∈ entries, Plain entry.2) : Plain (.ofTexts entries)

/-- The data directly inside a datum. -/
def parts : Datum → List Datum
  | list items => items
  | mapping entries => entries.map Prod.snd
  | _ => []

/-- The values among the data inside a datum, however deep, have no dictionary with a key twice. -/
inductive Sound : Datum → Prop
  | step {datum : Datum} (hvalue : ∀ v, datum = .value v → v.KeysDistinct)
      (hparts : ∀ part ∈ datum.parts, Sound part) : Sound datum

end Datum

namespace Value

section Equations

theorem ofData_eq_map (items : List Datum) : ofData items = items.map ofDatum := by
  induction items with
  | nil => rfl
  | cons item items ih => rw [ofData, ih, List.map_cons]

theorem ofEntries_eq_map (entries : List (Datum.Key × Datum)) :
    ofEntries entries = entries.map fun entry => (entry.1.display, ofDatum entry.2) := by
  induction entries with
  | nil => rfl
  | cons entry entries ih =>
      rcases entry with ⟨key, item⟩
      rw [ofEntries, ih, List.map_cons]

theorem toData_eq_map (items : List Value) : toData items = items.map toDatum := by
  induction items with
  | nil => rfl
  | cons item items ih => rw [toData, ih, List.map_cons]

theorem toEntries_eq_map (entries : List (String × Value)) :
    toEntries entries = entries.map fun entry => (.text entry.1, toDatum entry.2) := by
  induction entries with
  | nil => rfl
  | cons entry entries ih =>
      rcases entry with ⟨key, item⟩
      rw [toEntries, ih, List.map_cons]

/-- Converting a list converts each of its items. -/
theorem ofDatum_list (items : List Datum) :
    ofDatum (.list items) = array (items.map ofDatum) := by
  rw [ofDatum, ofData_eq_map]

/-- Converting a mapping converts each of its values, and its keys to texts. -/
theorem ofDatum_mapping (entries : List (Datum.Key × Datum)) :
    ofDatum (.mapping entries) = dictionary
      (Table.ofEntries (entries.map fun entry => (entry.1.display, ofDatum entry.2))) := by
  rw [ofDatum, ofEntries_eq_map]

/-- A mapping under texts that differ is converted entry by entry. -/
theorem ofDatum_ofTexts {entries : List (String × Datum)} (hkeys : (entries.map Prod.fst).Nodup) :
    ofDatum (.ofTexts entries) =
      dictionary (entries.map fun entry => (entry.1, ofDatum entry.2)) := by
  rw [Datum.ofTexts, ofDatum_mapping, List.map_map, Table.ofEntries_of_nodup]
  · rfl
  · rw [List.map_map]
    exact hkeys

theorem toDatum_array (items : List Value) :
    toDatum (array items) = .list (items.map toDatum) := by
  rw [toDatum, toData_eq_map]

theorem toDatum_dictionary (entries : List (String × Value)) :
    toDatum (dictionary entries) =
      .ofTexts (entries.map fun entry => (entry.1, toDatum entry.2)) := by
  rw [toDatum, toEntries_eq_map, Datum.ofTexts, List.map_map]
  rfl

end Equations

/-- What changes no member of a list leaves the list as it is. -/
theorem map_eq_self {α : Type} {f : α → α} {list : List α} (h : ∀ a ∈ list, f a = a) :
    list.map f = list :=
  (List.map_congr_left h).trans (List.map_id list)

/-- A value with distinct keys comes back from its datum. -/
theorem ofDatum_toDatum {v : Value} (h : v.KeysDistinct) : ofDatum v.toDatum = v := by
  induction h with
  | nil => rfl
  | bool flag => rfl
  | integer number => rfl
  | decimal number => rfl
  | string text => rfl
  | @array items _ ih =>
      rw [toDatum_array, ofDatum_list, List.map_map]
      exact congrArg array (map_eq_self ih)
  | @dictionary entries hkeys _ ih =>
      rw [toDatum_dictionary, ofDatum_ofTexts (by rwa [List.map_map]), List.map_map]
      exact congrArg dictionary (map_eq_self fun entry hentry => Prod.ext rfl (ih entry hentry))
  | range start stop =>
      -- The host does not include the end, so one is added to it and taken off again.
      rw [toDatum, ofDatum, ofProgression, beq_self_eq_true, if_pos rfl, Int.add_sub_cancel]

/-- A plain datum comes back from its value. -/
theorem toDatum_ofDatum {datum : Datum} (h : datum.Plain) : (ofDatum datum).toDatum = datum := by
  -- On the plain datum, which holds only plain ones.
  induction h with
  | null => rfl
  | bool flag => rfl
  | integer number => rfl
  | decimal hfinite => rfl
  | text text => rfl
  | @list items _ ih =>
      rw [ofDatum_list, toDatum_array, List.map_map]
      exact congrArg Datum.list (map_eq_self ih)
  | @mapping entries hkeys _ ih =>
      rw [ofDatum_ofTexts hkeys, toDatum_dictionary, List.map_map]
      exact congrArg Datum.ofTexts (map_eq_self fun entry hentry => Prod.ext rfl (ih entry hentry))

theorem keysDistinct_ofProgression (start stop step : Int) :
    (ofProgression start stop step).KeysDistinct := by
  unfold ofProgression
  split
  · exact .range _ _
  · refine .array fun item hitem => ?_
    rcases List.mem_map.mp hitem with ⟨index, _, rfl⟩
    exact .integer _

/-- A sound datum converts to a value with distinct keys. -/
theorem keysDistinct_ofDatum {datum : Datum} (h : datum.Sound) : (ofDatum datum).KeysDistinct := by
  induction h with
  | @step datum hvalue _ ih =>
      cases datum with
      | null => exact .nil
      | bool flag => exact .bool flag
      | integer number => exact .integer number
      | decimal number => exact .decimal number
      | double number => exact .decimal _
      | text text => exact .string text
      | progression start stop step => exact keysDistinct_ofProgression start stop step
      | list items =>
          rw [ofDatum_list]
          refine .array fun item hitem => ?_
          rcases List.mem_map.mp hitem with ⟨part, hpart, rfl⟩
          exact ih part hpart
      | mapping entries =>
          rw [ofDatum_mapping]
          refine .dictionary (Table.nodup_ofEntries _) fun entry hentry => ?_
          -- Bringing entries together adds none.
          rcases List.mem_map.mp (Table.mem_of_mem_ofEntries hentry) with ⟨part, hpart, rfl⟩
          exact ih part.2 (List.mem_map_of_mem hpart)
      | value v => exact hvalue v rfl

/-- A value that goes to the host comes back as it was, and so equal. Plain data that are converted
come back as they were, with their lists and the order of their keys. What is a value already is
left alone, also inside of a list. And whatever data a host gives, their value is one that goes to
the host and comes back. -/
theorem conversions_inverse :
    (∀ v : Value, v.KeysDistinct →
        ofDatum v.toDatum = v ∧ (ofDatum v.toDatum).equals v) ∧
      (∀ datum : Datum, datum.Plain → (ofDatum datum).toDatum = datum) ∧
      (∀ v : Value, ofDatum (.value v) = v) ∧
      (∀ items : List Value, ofDatum (.list (items.map .value)) = array items) ∧
      ∀ datum : Datum, datum.Sound → (ofDatum datum).KeysDistinct ∧
        ofDatum (ofDatum datum).toDatum = ofDatum datum := by
  refine ⟨fun v hv => ?_, fun datum => toDatum_ofDatum, fun v => rfl, fun items => ?_,
    fun datum hdatum => ?_⟩
  · rw [ofDatum_toDatum hv]
    exact ⟨rfl, (equals_iff_compare v v).mpr (compare_self v)⟩
  · rw [ofDatum_list, List.map_map]
    exact congrArg array (map_eq_self fun v _ => rfl)
  -- What a datum was converted to has distinct keys, even where the datum had not.
  · have hkeys := keysDistinct_ofDatum hdatum
    exact ⟨hkeys, ofDatum_toDatum hkeys⟩

/-- The conversions at a dictionary under odd keys that holds ranges without members and decimals
that are no numbers, at plain data in which the keys are not in order, and at a mapping that has
two keys with one text. -/
theorem conversions_inverse_nested :
    ofDatum (dictionary [("", array [range 5 2, range 1 0, decimal .nan]),
        ("a.b", dictionary [("", decimal (.infinite true))])]).toDatum =
      dictionary [("", array [range 5 2, range 1 0, decimal .nan]),
        ("a.b", dictionary [("", decimal (.infinite true))])] ∧
      (ofDatum (.ofTexts [("z", .list [.bool true, .integer 1]),
        ("a", .decimal (.finite true 0 3))])).toDatum =
      .ofTexts [("z", .list [.bool true, .integer 1]), ("a", .decimal (.finite true 0 3))] ∧
      (ofDatum (.mapping [(.integer 1, .progression 3 0 (-1)), (.text "1", .null)])).KeysDistinct :=
    by
  rcases conversions_inverse with ⟨hvalue, hplain, -, -, hsound⟩
  have hinner : (dictionary [("", decimal (.infinite true))]).KeysDistinct :=
    .dictionary (by decide) (by simp [KeysDistinct.decimal])
  have hranges : (array [range 5 2, range 1 0, decimal .nan]).KeysDistinct :=
    .array (by simp [KeysDistinct.range, KeysDistinct.decimal])
  have hlist : (Datum.list [.bool true, .integer 1]).Plain :=
    .list (by simp [Datum.Plain.bool, Datum.Plain.integer])
  have hzero : (Datum.decimal (.finite true 0 3)).Plain := .decimal rfl
  have hsteps : (Datum.progression 3 0 (-1)).Sound := .step (by simp) (by simp [Datum.parts])
  have hnull : Datum.null.Sound := .step (by simp) (by simp [Datum.parts])
  refine ⟨(hvalue _ ?_).1, hplain _ ?_, (hsound _ ?_).1⟩
  · exact .dictionary (by decide) (by simp [hinner, hranges])
  · exact .mapping (by decide) (by simp [hlist, hzero])
  · exact .step (by simp) (by simp [Datum.parts, hsteps, hnull])

end Value

end Liquid
