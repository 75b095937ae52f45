import Liquid.Command.Run
import Liquid.Proofs.Settings

/-!
# Loading Settings and Data

A command reads its settings and its data from documents. What it makes of one
is told for any loader of documents, as a function of what the loader gives:
nothing if the document cannot be read, and a datum otherwise. All that is asked
of a loader is that it gives data that documents can hold.

Settings are accepted from a mapping that permits them. A document whose datum
counts as nothing serves as an empty mapping; that is so of an empty document,
but of false, zero, and the empty text and list too. Everything else is a fault
of the document, with one exception: a mapping with a key that is no text makes
the command crash, since such a key cannot be listed among the unknown ones.

## Main definitions

* `Settings.Given`: The settings that a document gives.
* `Command.ReadsSettings`, `Command.ReadsData`: The results that are right for a
  loaded document.

## Theorems

* `Command.readsSettings_settingsOf`, `Command.readsData_dataOf`: What is made of
  a loaded document is right.
* `Command.documents_accepted`: So are the settings and the data of a command,
  and the entries that give settings are read back as those.
-/

namespace Liquid

/-- The settings that a document gives: those that its entries permit if it is a mapping, and the
default ones if it counts as nothing. -/
inductive Settings.Given : Datum → Settings → Prop
  | nothing {datum : Datum} (h : Document.isNothing datum = true) : Given datum {}
  | mapping {entries : List (Datum.Key × Datum)} {settings : Settings}
      (h : Permits entries settings) : Given (.mapping entries) settings

/-- A datum is a mapping, or it counts as nothing and serves as an empty one, or it has no
entries. -/
theorem Document.entries?_cases (datum : Datum) :
    (∃ entries, datum = .mapping entries) ∨
      (∀ entries, datum ≠ .mapping entries) ∧
        (isNothing datum = true ∧ entries? datum = some [] ∨
          isNothing datum = false ∧ entries? datum = none) := by
  cases datum with
  | mapping entries => exact .inl ⟨entries, rfl⟩
  | _ =>
    refine .inr ⟨fun _ h => (nomatch h), ?_⟩
    unfold entries?
    split
    · next h => cases h
    · cases isNothing _ <;> simp

namespace Settings

variable {datum : Datum} {settings : Settings}

/-- A mapping gives the settings that its entries permit. -/
theorem given_mapping_iff {entries : List (Datum.Key × Datum)} :
    Given (.mapping entries) settings ↔ Permits entries settings := by
  constructor
  · rintro (h | h)
    · cases h
    · exact h
  · exact .mapping

/-- A datum that is no mapping gives the default settings, if it stands for nothing. -/
theorem given_iff_of_ne_mapping (h : ∀ entries, datum ≠ .mapping entries) :
    Given datum settings ↔ Document.isNothing datum = true ∧ settings = {} := by
  constructor
  · rintro (hnothing | _)
    · exact ⟨hnothing, rfl⟩
    · exact absurd rfl (h _)
  · rintro ⟨hnothing, rfl⟩
    exact .nothing hnothing

end Settings

namespace Command

/-- What the settings from a document can be, as the document was loaded. -/
structure ReadsSettings (path : String) (loaded : Option Datum) (result : Except Fault Settings) :
    Prop where
  /-- The settings are those that the document gives. -/
  ok_iff (settings : Settings) :
    result = .ok settings ↔ ∃ datum ∈ loaded, Settings.Given datum settings
  malformed_iff : result = .error (.malformedSettings path) ↔ loaded = none
  notMapping_iff : result = .error (.settingsNotMapping path) ↔
    ∃ datum ∈ loaded, Document.isNothing datum = false ∧ ∀ entries, datum ≠ .mapping entries
  /-- A mapping with a key that is no text is the one reason to crash. -/
  crashed_iff (crash : Crash) : result = .error (.settings (.crashed crash)) ↔
    crash = .unlistedKey ∧ ∃ entries, loaded = some (.mapping entries) ∧
      ∃ entry ∈ entries, ∀ text, entry.1 ≠ .text text
  error {fault : Fault} (h : result = .error fault) :
    fault = .malformedSettings path ∨ fault = .settingsNotMapping path ∨
      ∃ cause, fault = .settings cause

/-- What the data from a document can be, as the document was loaded. -/
structure ReadsData (name : String) (loaded : Option Datum) (result : Except Fault (Table Value)) :
    Prop where
  ok_iff (table : Table Value) : result = .ok table ↔
    (∃ datum ∈ loaded, Document.isNothing datum = true ∧ table = []) ∨
      ∃ entries, loaded = some (.mapping entries) ∧ table = Document.bindings entries
  malformed_iff : result = .error (.malformedData name) ↔ loaded = none
  notMapping_iff : result = .error (.dataNotMapping name) ↔
    ∃ datum ∈ loaded, Document.isNothing datum = false ∧ ∀ entries, datum ≠ .mapping entries
  error {fault : Fault} (h : result = .error fault) :
    fault = .malformedData name ∨ fault = .dataNotMapping name

/-- The settings are read as the document gives them, and every fault is one that is listed. -/
theorem readsSettings_settingsOf (path : String) {loaded : Option Datum}
    (hloaded : ∀ datum ∈ loaded, Document.Holds datum) :
    ReadsSettings path loaded (settingsOf path loaded) := by
  cases loaded with
  | none => constructor <;> simp [settingsOf]
  | some datum =>
      -- A mapping, a datum that stands for nothing, or any other.
      rcases Document.entries?_cases datum with
        ⟨entries, rfl⟩ | ⟨hne, ⟨hnothing, hentries⟩ | ⟨hnothing, hentries⟩⟩
      · have hholds : ∀ entry ∈ entries, Document.Holds entry.2 := by
          cases hloaded _ rfl with
          | mapping hholds => exact hholds
        have hof : settingsOf path (some (.mapping entries)) =
            (Settings.ofEntries entries).mapError Fault.settings := rfl
        rw [hof]
        constructor
        · simp [mapError_eq_ok_iff, Settings.ofEntries_eq_ok_iff hholds,
            Settings.given_mapping_iff]
        · simp [mapError_eq_error_iff]
        · simp [mapError_eq_error_iff]
        · simp [mapError_eq_error_iff, Settings.ofEntries_eq_crashed_iff]
        · intro fault h
          rcases mapError_eq_error_iff.mp h with ⟨cause, -, rfl⟩
          exact .inr (.inr ⟨cause, rfl⟩)
      · -- No entries permit the default settings.
        have hof : settingsOf path (some datum) = .ok {} := by
          rw [settingsOf, hentries]
          rfl
        rw [hof]
        refine ⟨fun settings => ?_, ?_, ?_, ?_, ?_⟩
        · rw [Except.ok.injEq, eq_comm]
          simp [Settings.given_iff_of_ne_mapping hne, hnothing]
        all_goals simp [hne, hnothing]
      · -- Any other datum has no entries to be looked at.
        have hof : settingsOf path (some datum) = .error (.settingsNotMapping path) := by
          rw [settingsOf, hentries]
        rw [hof]
        constructor <;> simp [Settings.given_iff_of_ne_mapping hne, hne, hnothing]

/-- The data is read as the document gives it, and every fault is one that is listed. -/
theorem readsData_dataOf (name : String) (loaded : Option Datum) :
    ReadsData name loaded (dataOf name loaded) := by
  cases loaded with
  | none => constructor <;> simp [dataOf]
  | some datum =>
      -- A mapping, a datum that stands for nothing, or any other.
      rcases Document.entries?_cases datum with
        ⟨entries, rfl⟩ | ⟨hne, ⟨hnothing, hentries⟩ | ⟨hnothing, hentries⟩⟩
      · have hof : dataOf name (some (.mapping entries)) = .ok (Document.bindings entries) := rfl
        rw [hof]
        refine ⟨fun table => ?_, ?_, ?_, ?_⟩
        · rw [Except.ok.injEq, eq_comm]
          simp [Document.isNothing]
        all_goals simp
      -- No entries bind nothing.
      · have hof : dataOf name (some datum) = .ok [] := by
          rw [dataOf, hentries]
          rfl
        rw [hof]
        refine ⟨fun table => ?_, ?_, ?_, ?_⟩
        · rw [Except.ok.injEq, eq_comm]
          simp [hne, hnothing]
        all_goals simp [hnothing]
      · have hof : dataOf name (some datum) = .error (.dataNotMapping name) := by
          rw [dataOf, hentries]
        rw [hof]
        constructor <;> simp [hne, hnothing]

section Loader

variable (load? : String → Option Datum) (host : Surroundings) {name text : String}

theorem settings_of_text (hname : name ≠ "") (htext : host.text? name = some text) :
    settings load? host (some name) = settingsOf (normalPath name) (load? text) := by
  have hsome : name.isEmpty = false := by simpa using hname
  simp [settings, hsome, htext]

theorem map_data_of_source (hname : name ≠ "") (hsource : host.source name = .ok text) :
    (data load? host (some name)).map Prod.fst = dataOf name (load? text) := by
  have hsome : name.isEmpty = false := by simpa using hname
  simp only [data, hsome, Bool.false_eq_true, if_false]
  rw [hsource]
  change ((dataOf name (load? text)).bind _).map Prod.fst = _
  cases dataOf name (load? text) <;> rfl

end Loader

/-- The settings and the data of a command are what its documents give. That is so with any loader
that gives data that documents can hold. The entries that give settings are read back as those. -/
theorem documents_accepted (load? : String → Option Datum)
    (hload : ∀ text, ∀ datum ∈ load? text, Document.Holds datum) (host : Surroundings)
    {name text : String} (hname : name ≠ "") :
    (host.text? name = some text →
      ReadsSettings (normalPath name) (load? text) (settings load? host (some name))) ∧
    (host.source name = .ok text →
      ReadsData name (load? text) ((data load? host (some name)).map Prod.fst)) ∧
    ∀ settings : Settings, Settings.ofEntries settings.toEntries = .ok settings := by
  refine ⟨fun htext => ?_, fun hsource => ?_, Settings.ofEntries_toEntries⟩
  -- Both documents are loaded before they are looked at, so only what was loaded matters.
  · rw [settings_of_text load? host hname htext]
    exact readsSettings_settingsOf (normalPath name) (hload text)
  · rw [map_data_of_source load? host hname hsource]
    exact readsData_dataOf name (load? text)

/-- A level may be written in any case. -/
theorem documents_accepted_level :
    settings Document.read? ⟨fun _ => some "log_level: Info\n", ""⟩ (some "c.yml") =
        .ok ⟨false, none, .info⟩ ∧
      ∃ datum ∈ Document.read? "log_level: Info\n", Settings.Given datum ⟨false, none, .info⟩ := by
  have hsettings : settings Document.read? ⟨fun _ => some "log_level: Info\n", ""⟩ (some "c.yml") =
      .ok ⟨false, none, .info⟩ := by
    decide +kernel
  have htext : Surroundings.text? ⟨fun _ => some "log_level: Info\n", ""⟩ "c.yml" =
      some "log_level: Info\n" := by
    rfl
  have hread := (documents_accepted Document.read? (fun _ _ => Document.holds_of_read?) _
    (by decide)).1 htext
  exact ⟨hsettings, (hread.ok_iff _).mp hsettings⟩

/-- An empty list serves as a mapping, and a key that is no text is a crash. -/
theorem documents_accepted_list :
    settings (fun _ => some (.list [])) ⟨fun _ => some "[]\n", ""⟩ (some "c.yml") = .ok {} ∧
      (data (fun _ => some (.list [])) ⟨fun _ => some "[]\n", ""⟩ (some "c.yml")).map Prod.fst =
        .ok [] ∧
      settings (fun _ => some (.mapping [(.null, .null)])) ⟨fun _ => some "~:\n", ""⟩
        (some "c.yml") = .error (.settings (.crashed .unlistedKey)) :=
  ⟨rfl, rfl, rfl⟩

end Command

end Liquid
