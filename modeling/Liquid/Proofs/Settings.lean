import Liquid.Proofs.Document
import Liquid.Proofs.Except
import Liquid.Proofs.Expr.Number
import Liquid.Settings

/-!
# Accepting Settings

The entries of a document are settings exactly if each key is known and each
value is of its kind. The format of dates may be null, which is as if it were
not there; the other two settings may be missing, but not null.

A level is given by its name in any case. Whatever stands there is turned into a
text first, so it has to be seen that nothing but a text looks like the name of
a level in the end: numbers have a digit, lists and mappings start with a
bracket, and the few words that are left are no names.

Unknown keys are listed in the complaint about them. That does not work if one of
them is no text. It is the one way for entries to cause a crash.

## Main definitions

* `Level.IsMark`: Characters that no name of a level has, in whatever case.
* `Settings.Permits`: The entries of a document permit settings.

## Theorems

* `Document.ofName?_shown_eq_none`: Of what a document holds only a text is
  shown as the name of a level.
* `Settings.checkKeys_eq_ok_iff`, `Settings.readStrict_eq_ok_iff`,
  `Settings.readDateFormat_eq_ok_iff`, `Settings.readLevel_eq_ok_iff`: What each
  of the checks accepts.
* `Settings.ofEntries_eq_ok_iff`: The settings that entries give are those that
  they permit.
* `Settings.ofEntries_eq_crashed_iff`: Entries cause a crash exactly if a key is
  no text.
* `Settings.ofEntries_toEntries`: Settings are read back from their entries.
-/

namespace Liquid

/-- The characters of ASCII that are no small letters stay as they are in upper case. -/
theorem Text.upperMap_image_of_ascii {c : Char}
    (h : c.toNat < 97 ∨ 122 < c.toNat ∧ c.toNat < 128) : upperMap.image c = [c] := by
  -- The table has no expansion in this range, and no shift but that of the small letters.
  have hexpansions : upperMap.expansions.all (fun entry => 128 ≤ entry.1) = true := by rfl
  have hshifts : upperMap.shifts.all
      (fun shift => 97 ≤ shift.1 && (shift.2.1 ≤ 122 || 128 ≤ shift.1)) = true := by
    decide +kernel
  have hlookup : upperMap.expansions.lookup c.toNat = none := by
    rw [List.lookup_eq_none_iff]
    intro entry hentry
    have hfirst := List.all_eq_true.mp hexpansions entry hentry
    simp only [decide_eq_true_eq] at hfirst
    rw [bne_iff_ne]
    omega
  have hfind : upperMap.shifts.find? (CaseMap.moves c.toNat) = none := by
    rw [List.find?_eq_none]
    rintro ⟨first, last, stride, distance⟩ hshift hmoves
    have hrange := List.all_eq_true.mp hshifts _ hshift
    simp only [CaseMap.moves, Bool.and_eq_true, Bool.or_eq_true, decide_eq_true_eq] at hrange hmoves
    omega
  rw [CaseMap.image, hlookup, hfind]

namespace Level

/-- A level is found by its name alone. -/
theorem ofName?_eq_some_iff {name : String} {level : Level} :
    ofName? name = some level ↔ level.name = name := by
  constructor
  · intro h
    have hname := List.find?_some (p := fun level : Level => level.name == name) h
    exact eq_of_beq hname
  · rintro rfl
    cases level <;> rfl

/-- The characters of ASCII that are no letters. No name of a level has one. -/
def IsMark (c : Char) : Prop :=
  (c.toNat < 65 ∨ 90 < c.toNat) ∧ (c.toNat < 97 ∨ 122 < c.toNat) ∧ c.toNat < 128

/-- A digit is in no name of a level. -/
theorem isMark_of_isDigit {c : Char} (h : c.isDigit = true) : IsMark c := by
  have hpoint := Char.isDigit_iff_toNat.mp h
  simp only [Char.reduceToNat] at hpoint
  exact ⟨.inl (by omega), .inl (by omega), by omega⟩

/-- The names of the levels are in capital letters. -/
theorem isCapital_of_mem_name {level : Level} {c : Char} (h : c ∈ level.name.toList) :
    65 ≤ c.toNat ∧ c.toNat ≤ 90 := by
  have hall : level.name.toList.all (fun c => 65 ≤ c.toNat && c.toNat ≤ 90) = true := by
    cases level <;> rfl
  simpa using List.all_eq_true.mp hall c h

theorem upper_name (level : Level) : Text.onChars Text.upper level.name = level.name := by
  have hkept : ∀ c ∈ level.name.toList, Text.upperMap.image c = [c] := fun c hc =>
    Text.upperMap_image_of_ascii (.inl (by have := isCapital_of_mem_name hc; omega))
  rw [Text.onChars, Text.upper, Text.CaseMap.apply, List.flatMap_congr hkept,
    List.flatMap_singleton', String.ofList_toList]

/-- A text with a mark names no level, in whatever case. -/
theorem ofName?_upper_eq_none {text : String} {c : Char} (hmark : IsMark c)
    (htext : c ∈ text.toList) : ofName? (Text.onChars Text.upper text) = none := by
  rw [Option.eq_none_iff_forall_ne_some]
  intro level h
  have hkept : Text.upperMap.image c = [c] :=
    Text.upperMap_image_of_ascii (hmark.2.1.imp_right fun h => ⟨h, hmark.2.2⟩)
  have hc : c ∈ level.name.toList := by
    rw [ofName?_eq_some_iff.mp h, Text.onChars, String.toList_ofList]
    exact List.mem_flatMap.mpr ⟨c, htext, by rw [hkept]; exact List.mem_singleton_self c⟩
  have hpoint := isCapital_of_mem_name hc
  rcases hmark.1 with hbefore | hbehind <;> omega

/-- A written number has a mark that no name of a level has. -/
theorem exists_mark_of_written {digits : List Char} (h : Text.Written digits) :
    ∃ c, IsMark c ∧ c ∈ digits := by
  rcases List.exists_mem_of_ne_nil digits h.ne_nil with ⟨c, hc⟩
  exact ⟨c, isMark_of_isDigit (h.digit c hc), hc⟩

/-- The digits of a number are somewhere in its text. -/
theorem exists_mark_of_shown {kind : Lexeme.Kind} {cs : List Char} (h : Lexeme.Shown kind cs) :
    ∃ c, IsMark c ∧ c ∈ cs := by
  cases h with
  | integer negative hwhole =>
      rcases exists_mark_of_written hwhole with ⟨c, hmark, hc⟩
      exact ⟨c, hmark, List.mem_append_right _ hc⟩
  | decimal negative hwhole _ =>
      rcases exists_mark_of_written hwhole with ⟨c, hmark, hc⟩
      exact ⟨c, hmark, List.mem_append_right _ (List.mem_append_left _ hc)⟩

/-- A double is shown with a digit or a minus, but for infinity and what is no number. -/
theorem exists_mark_of_double (d : Double) :
    (∃ c, IsMark c ∧ c ∈ d.text.toList) ∨ d.text ∈ ["inf", "nan"] := by
  unfold Double.text
  cases d.toDecimal with
  | infinite negative =>
      cases negative with
      | false => exact .inr (by simp [Decimal.text])
      | true => exact .inl ⟨'-', by simp [IsMark], by simp [Decimal.text]⟩
  | nan => exact .inr (by simp [Decimal.text])
  | finite negative coefficient exponent =>
      -- A number has digits, with an exponent and without one.
      left
      dsimp only
      split
      · -- With a power of ten, the digits of the power are there.
        rcases exists_mark_of_written (Text.Written.toDigits
          (Decimal.leading coefficient exponent).natAbs) with ⟨c, hmark, hc⟩
        refine ⟨c, hmark, ?_⟩
        rw [String.toList_ofList, Double.scientific]
        simp [hc]
      · rw [String.toList_ofList]
        exact exists_mark_of_shown (Value.shown_decimal negative coefficient exponent)

end Level

/-- Of what a document can hold only a text is shown as the name of a level. -/
theorem Document.ofName?_shown_eq_none {datum : Datum} (h : Document.Holds datum)
    (htext : ∀ s, datum ≠ .text s) :
    Level.ofName? (Text.onChars Text.upper datum.shown) = none := by
  -- By the kind of the datum: each shows a mark that is in no name of a level.
  cases h with
  | null => rfl
  | bool flag => cases flag <;> rfl
  | text s => exact absurd rfl (htext s)
  | integer n =>
      rcases Level.exists_mark_of_shown (Value.shown_integer n) with ⟨c, hmark, hc⟩
      exact Level.ofName?_upper_eq_none hmark hc
  | double d =>
      rcases Level.exists_mark_of_double d with ⟨c, hmark, hc⟩ | hclosed
      · exact Level.ofName?_upper_eq_none hmark hc
      · change Level.ofName? (Text.onChars Text.upper d.text) = none
        rcases List.mem_pair.mp hclosed with heq | heq
        · rw [heq]
          rfl
        · rw [heq]
          rfl
  | @list items _ =>
      refine @Level.ofName?_upper_eq_none _ '[' (by simp [Level.IsMark]) ?_
      simp [Datum.shown, Datum.written]
  | @mapping entries _ =>
      refine @Level.ofName?_upper_eq_none _ '\x7b' (by simp [Level.IsMark]) ?_
      simp [Datum.shown, Datum.written]

namespace Settings

variable {entries : List (Datum.Key × Datum)}

section Keys

theorem keyText?_eq_none_iff {key : Datum.Key} :
    keyText? key = none ↔ ∀ text, key ≠ .text text := by
  cases key <;> simp [keyText?]

theorem mem_unknownKeys_iff {key : Datum.Key} :
    key ∈ unknownKeys entries ↔
      (∃ entry ∈ entries, entry.1 = key) ∧ ∀ name ∈ keys, key ≠ .text name := by
  rw [unknownKeys, List.mem_filter, List.mem_map]
  refine and_congr_right fun _ => ?_
  cases key with
  | text name =>
      simp only [keyText?, Option.any_some, Bool.not_eq_true', List.contains_eq_mem,
        decide_eq_false_iff_not, ne_eq, Datum.Key.text.injEq]
      exact ⟨fun h other hother heq => h (heq ▸ hother), fun h hmem => h name hmem rfl⟩
  | _ => simp [keyText?]

/-- No key is unknown if each of them is the text of one of the keys. -/
theorem unknownKeys_eq_nil_iff :
    unknownKeys entries = [] ↔ ∀ entry ∈ entries, ∃ name ∈ keys, entry.1 = .text name := by
  rw [List.eq_nil_iff_forall_not_mem]
  constructor
  -- A key that is not known would be listed.
  · intro h entry hentry
    by_contra hunknown
    refine h entry.1 (mem_unknownKeys_iff.mpr ⟨⟨entry, hentry, rfl⟩, fun name hname heq => ?_⟩)
    exact hunknown ⟨name, hname, heq⟩
  · intro h key hkey
    rcases mem_unknownKeys_iff.mp hkey with ⟨⟨entry, hentry, rfl⟩, hunknown⟩
    rcases h entry hentry with ⟨name, hname, heq⟩
    exact hunknown name hname heq

/-- The keys are accepted if each is one of the known keys. -/
theorem checkKeys_eq_ok_iff :
    checkKeys entries = .ok () ↔ ∀ entry ∈ entries, ∃ name ∈ keys, entry.1 = .text name := by
  rw [← unknownKeys_eq_nil_iff]
  unfold checkKeys
  cases unknownKeys entries with
  | nil => simp
  | cons key others =>
      dsimp only
      cases (key :: others).mapM keyText? <;> simp

/-- The unknown keys cannot be listed where one is no text, and no known key is such. -/
theorem checkKeys_eq_crashed_iff {crash : Crash} :
    checkKeys entries = .error (.crashed crash) ↔
      crash = .unlistedKey ∧ ∃ entry ∈ entries, ∀ text, entry.1 ≠ .text text := by
  -- A key that is no text is not known either, so it is among those to be listed.
  have hunlisted : (unknownKeys entries).mapM keyText? = none ↔
      ∃ entry ∈ entries, ∀ text, entry.1 ≠ .text text := by
    rw [mapM_eq_none_iff]
    constructor
    · rintro ⟨key, hkey, hnone⟩
      rcases mem_unknownKeys_iff.mp hkey with ⟨⟨entry, hentry, rfl⟩, -⟩
      exact ⟨entry, hentry, keyText?_eq_none_iff.mp hnone⟩
    · rintro ⟨entry, hentry, htext⟩
      have hunknown := mem_unknownKeys_iff.mpr ⟨⟨entry, hentry, rfl⟩, fun name _ => htext name⟩
      exact ⟨entry.1, hunknown, keyText?_eq_none_iff.mpr htext⟩
  rw [← hunlisted]
  unfold checkKeys
  cases unknownKeys entries with
  | nil => simp
  | cons key others =>
      dsimp only
      cases (key :: others).mapM keyText? with
      | none => simp [eq_comm]
      | some names => simp

end Keys

section Values

variable {datum? : Option Datum}

/-- The strictness is read from a truth value, and is off if there is none. -/
theorem readStrict_eq_ok_iff {flag : Bool} :
    readStrict datum? = .ok flag ↔
      datum? = none ∧ flag = false ∨ datum? = some (.bool flag) := by
  cases datum? with
  | none => simp [readStrict, eq_comm]
  | some datum => cases datum <;> simp [readStrict]

/-- The date format is read from a text, and is none if there is none or it is null. -/
theorem readDateFormat_eq_ok_iff {format? : Option String} :
    readDateFormat datum? = .ok format? ↔
      (datum? = none ∨ datum? = some .null) ∧ format? = none ∨
        ∃ format, datum? = some (.text format) ∧ format? = some format := by
  cases datum? with
  | none => simp [readDateFormat, eq_comm]
  | some datum => cases datum <;> simp [readDateFormat, eq_comm]

/-- A level is given by its name in any case, and by nothing that is no text. -/
theorem readLevel_eq_ok_iff (hholds : ∀ datum ∈ datum?, Document.Holds datum) {level : Level} :
    readLevel datum? = .ok level ↔
      datum? = none ∧ level = .warning ∨
        ∃ text, datum? = some (.text text) ∧ Text.onChars Text.upper text = level.name := by
  cases datum? with
  | none => simp [readLevel, eq_comm]
  | some datum =>
      -- Whatever stands there is read through the text that it is shown as.
      have hname : readLevel (some datum) = .ok level ↔
          Level.ofName? (Text.onChars Text.upper datum.shown) = some level := by
        rw [readLevel]
        cases Level.ofName? (Text.onChars Text.upper datum.shown) <;> simp
      rw [hname]
      by_cases htext : ∃ text, datum = .text text
      · rcases htext with ⟨text, rfl⟩
        simp only [Datum.shown, Level.ofName?_eq_some_iff, eq_comm (a := level.name)]
        simp
      · have hnone := Document.ofName?_shown_eq_none (hholds datum rfl)
          fun text heq => htext ⟨text, heq⟩
        rw [hnone]
        constructor
        · intro h
          cases h
        · rintro (⟨h, -⟩ | ⟨text, h, -⟩)
          · cases h
          · exact absurd ⟨text, Option.some.inj h⟩ htext

end Values

/-- The entries of a document permit settings: each key is a known one, and each setting is what
stands under its key, or else the default. -/
structure Permits (entries : List (Datum.Key × Datum)) (settings : Settings) : Prop where
  known : ∀ entry ∈ entries, ∃ name ∈ keys, entry.1 = .text name
  strict : datumAt? entries "strict_delimiters" = none ∧ settings.strict = false ∨
    datumAt? entries "strict_delimiters" = some (.bool settings.strict)
  dateFormat :
    (datumAt? entries "date_format" = none ∨ datumAt? entries "date_format" = some .null) ∧
        settings.dateFormat = none ∨
      ∃ format, datumAt? entries "date_format" = some (.text format) ∧
        settings.dateFormat = some format
  level : datumAt? entries "log_level" = none ∧ settings.level = .warning ∨
    ∃ text, datumAt? entries "log_level" = some (.text text) ∧
      Text.onChars Text.upper text = settings.level.name

theorem mem_of_datumAt? {name : String} {datum : Datum} (h : datumAt? entries name = some datum) :
    (Datum.Key.text name, datum) ∈ entries := by
  rcases List.lookup_eq_some_iff.mp h with ⟨before, after, rfl, -⟩
  exact List.mem_append_right _ List.mem_cons_self

/-- Settings are read exactly from the entries that permit them. -/
theorem ofEntries_eq_ok_iff (hholds : ∀ entry ∈ entries, Document.Holds entry.2)
    {settings : Settings} : ofEntries entries = .ok settings ↔ Permits entries settings := by
  have hlevel : ∀ datum ∈ datumAt? entries "log_level", Document.Holds datum :=
    fun datum hdatum => hholds _ (mem_of_datumAt? hdatum)
  simp only [ofEntries, bind_eq_ok_iff]
  -- The four checks and readings are those of the four fields of `Permits`.
  constructor
  · rintro ⟨⟨⟩, hkeys, strict, hstrict, format, hformat, level, hread, hsettings⟩
    cases hsettings
    exact ⟨checkKeys_eq_ok_iff.mp hkeys, readStrict_eq_ok_iff.mp hstrict,
      readDateFormat_eq_ok_iff.mp hformat, (readLevel_eq_ok_iff hlevel).mp hread⟩
  · intro h
    exact ⟨(), checkKeys_eq_ok_iff.mpr h.known, _, readStrict_eq_ok_iff.mpr h.strict, _,
      readDateFormat_eq_ok_iff.mpr h.dateFormat, _, (readLevel_eq_ok_iff hlevel).mpr h.level, rfl⟩

/-- The checks of the values find faults only; a crash is due to the keys. -/
theorem ofEntries_eq_crashed_iff {crash : Crash} :
    ofEntries entries = .error (.crashed crash) ↔
      crash = .unlistedKey ∧ ∃ entry ∈ entries, ∀ text, entry.1 ≠ .text text := by
  rw [← checkKeys_eq_crashed_iff]
  -- None of the three values can crash, so it is the keys that do.
  have hstrict (datum? : Option Datum) : readStrict datum? ≠ .error (.crashed crash) := by
    unfold readStrict
    split <;> simp
  have hformat (datum? : Option Datum) : readDateFormat datum? ≠ .error (.crashed crash) := by
    unfold readDateFormat
    split <;> simp
  have hlevel (datum? : Option Datum) : readLevel datum? ≠ .error (.crashed crash) := by
    unfold readLevel
    split
    · simp
    · dsimp only
      split <;> simp
  simp [ofEntries, bind_eq_error_iff, hstrict, hformat, hlevel]

theorem permits_toEntries (settings : Settings) : Permits settings.toEntries settings := by
  rcases settings with ⟨strict, format?, level⟩
  refine ⟨?_, .inr rfl, ?_, .inr ⟨level.name, rfl, Level.upper_name level⟩⟩
  · cases format? <;> simp [toEntries, keys]
  -- A format of dates that is left out is read as none.
  · cases format? with
    | none => exact .inl ⟨.inl rfl, rfl⟩
    | some format => exact .inr ⟨format, rfl, rfl⟩

/-- The entries that give settings are read back as those. -/
theorem ofEntries_toEntries (settings : Settings) :
    ofEntries settings.toEntries = .ok settings := by
  refine (ofEntries_eq_ok_iff ?_).mpr (permits_toEntries settings)
  rcases settings with ⟨strict, format?, level⟩
  cases format? <;> simp [toEntries, Document.Holds.bool, Document.Holds.text]

end Settings

end Liquid
