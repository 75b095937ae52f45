import Liquid.Fault
import Liquid.Remark
import Liquid.Text.Case
import Liquid.Text.Search
import Liquid.Value.Notation

/-!
# Settings

What can be set about the engine, and how it is read from the entries of a
document. All keys have to be known before any entry is looked at. Then the
entries are checked in a fixed order, whatever their order in the document, so
that the first complaint does not depend on it. Missing entries have defaults.

The level goes by its name in any case. Whatever stands there is turned into a
text first; so a number is refused as the name of no level.

## Main definitions

* `Settings`: The settings.
* `Settings.Fault`: Why a document has none.
* `Settings.ofEntries`: The settings that the entries of a document give.
* `Settings.toEntries`: The entries that give the settings.
-/

namespace Liquid

/-- What can be set about the engine. -/
structure Settings where
  /-- Whether a construct that is left open is an error. -/
  strict : Bool := false
  /-- The format of dates where none is given. -/
  dateFormat : Option String := none
  /-- The lowest level of remarks that the command line shows. -/
  level : Level := .warning
deriving DecidableEq

namespace Settings

/-- Why a document has no settings. -/
inductive Fault
  | unknownKeys (names : List String)
  | strictNotBoolean
  | dateFormatNotText
  | unknownLevel (name : String)
  /-- Some unknown key is no text. -/
  | crashed (crash : Crash)
deriving DecidableEq

/-- The wording of a fault. -/
def Fault.message : Fault → String
  | unknownKeys names => "Unknown config key(s): " ++ ", ".intercalate names
  | strictNotBoolean => "strict_delimiters must be a boolean"
  | dateFormatNotText => "date_format must be a string"
  | unknownLevel name =>
    "Invalid log_level '" ++ name ++ "'. Expected one of: "
      ++ ", ".intercalate (Level.all.map Level.name)
  | crashed crash => crash.message

/-- The known keys. -/
def keys : List String :=
  ["strict_delimiters", "date_format", "log_level"]

/-- The text that a key is. -/
def keyText? : Datum.Key → Option String
  | .text s => some s
  | _ => none

/-- The keys of a document that are not known. -/
def unknownKeys (entries : List (Datum.Key × Datum)) : List Datum.Key :=
  (entries.map Prod.fst).filter fun key => !(keyText? key).any keys.contains

/-- A complaint about the unknown keys, if there are any. -/
def checkKeys (entries : List (Datum.Key × Datum)) : Except Fault Unit :=
  match unknownKeys entries with
  | [] => .ok ()
  | unknown =>
    match unknown.mapM keyText? with
    | some names => .error (.unknownKeys (names.mergeSort fun a b => (Ord.compare a b).isLE))
    | none => .error (.crashed .unlistedKey)

/-- The entry under a known key. -/
def datumAt? (entries : List (Datum.Key × Datum)) (name : String) : Option Datum :=
  entries.lookup (.text name)

/-- Whether open constructs are errors. -/
def readStrict : Option Datum → Except Fault Bool
  | none => .ok false
  | some (.bool flag) => .ok flag
  | some _ => .error .strictNotBoolean

/-- The format of dates. -/
def readDateFormat : Option Datum → Except Fault (Option String)
  | none => .ok none
  | some .null => .ok none
  | some (.text format) => .ok (some format)
  | some _ => .error .dateFormatNotText

/-- The level of remarks. -/
def readLevel : Option Datum → Except Fault Level
  | none => .ok .warning
  | some datum =>
    let name := Text.onChars Text.upper datum.shown
    match Level.ofName? name with
    | some level => .ok level
    | none => .error (.unknownLevel name)

/-- The settings that the entries of a document give. -/
def ofEntries (entries : List (Datum.Key × Datum)) : Except Fault Settings := do
  checkKeys entries
  let strict ← readStrict (datumAt? entries "strict_delimiters")
  let dateFormat ← readDateFormat (datumAt? entries "date_format")
  let level ← readLevel (datumAt? entries "log_level")
  .ok ⟨strict, dateFormat, level⟩

/-- The entries that give the settings. A format of dates is left out where there is none. -/
def toEntries (settings : Settings) : List (Datum.Key × Datum) :=
  [(.text "strict_delimiters", .bool settings.strict),
    (.text "log_level", .text settings.level.name)]
    ++ (settings.dateFormat.map fun format => (Datum.Key.text "date_format", .text format)).toList

end Settings

end Liquid
