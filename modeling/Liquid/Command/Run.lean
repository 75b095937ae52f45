import Liquid.Command
import Liquid.Document
import Liquid.Template

/-!
# Running Commands

What a command does with the files that it can see. The settings are read
first, then the data, then the template; what fails first decides. A file of
settings may be missing. Nothing is noted before the settings are known, and
after that every remark of a high enough level goes to the error output, also
when the command fails later.

The standard input can be read once. If both the data and the template come
from there, the template finds it empty.

Documents are read by a loader, which gives the datum of a text or nothing. What
a command makes of a document goes by the datum only.

## Main definitions

* `Command.Surroundings`: The files and the input that a command can see.
* `Command.Fault`: Why a command fails.
* `Command.Report`: What a command leaves behind.
* `Command.settingsOf`, `Command.dataOf`: What is made of a loaded document.
* `Command.run`: A command in its surroundings.
-/

namespace Liquid

namespace Command

/-- The files and the input that a command can see. -/
structure Surroundings where
  /-- The text of the file at a path. -/
  file? : String → Option String
  input : String

/-- Why a command fails. -/
inductive Fault
  | fileNotFound (path : String)
  | malformedSettings (path : String)
  | settingsNotMapping (path : String)
  | malformedData (name : String)
  | dataNotMapping (name : String)
  | settings (fault : Settings.Fault)
  | compile (fault : CompileFault)
  | render (fault : RenderFault)
  | crashed (crash : Crash)
deriving DecidableEq

/-- What is said of a document that cannot be read. -/
def complaint : String :=
  "malformed document"

namespace Fault

/-- The wording of a fault. -/
def message : Fault → String
  | fileNotFound path => "File not found: " ++ path
  | malformedSettings path => "Invalid YAML in " ++ path ++ ": " ++ complaint
  | settingsNotMapping path => "YAML must be a mapping: " ++ path
  | malformedData name => "Invalid data file " ++ name ++ ": " ++ complaint
  | dataNotMapping name => "Data must be a mapping: " ++ name
  | settings fault => fault.message
  | compile fault => fault.message
  | render fault => fault.fullMessage
  | crashed crash => crash.message

/-- The crash behind a fault. -/
def crash? : Fault → Option Crash
  | settings (.crashed crash) => some crash
  | compile fault => fault.crash?
  | crashed crash => some crash
  | _ => none

/-- What becomes of a render without output. Nothing but loops can be left in a template that only
has the tags of the language. -/
def ofAbort : Abort → Fault
  | .fault (.render fault) => render fault
  | .fault (.crash crash) => crashed crash
  | .broken => crashed (.host "break" "break outside of a loop")
  | .continued => crashed (.host "continue" "continue outside of a loop")

end Fault

/-- What a command leaves behind. -/
structure Report where
  exit : Nat
  output : String
  errors : String
deriving DecidableEq

/-- The parts of a path, without those that stay in place. -/
def pathParts (path : String) : List (List Char) :=
  (path.toList.splitOn '/').filter fun part => !part.isEmpty && part != ['.']

/-- A path as it is shown and looked up: without empty parts and those that stay in place. -/
def normalPath (path : String) : String :=
  let body := ['/'].intercalate (pathParts path)
  let root :=
    match path.toList with
    | '/' :: '/' :: '/' :: _ => ['/']
    | '/' :: '/' :: _ => ['/', '/']
    | '/' :: _ => ['/']
    | _ => []
  if root.isEmpty && body.isEmpty then "." else String.ofList (root ++ body)

/-- A text with each line ended by a line feed. -/
def withLineFeeds : List Char → List Char
  | [] => []
  | '\r' :: '\n' :: cs => '\n' :: withLineFeeds cs
  | c :: cs => (if c == '\r' then '\n' else c) :: withLineFeeds cs

namespace Surroundings

/-- The text of the file at a path, by lines. -/
def text? (host : Surroundings) (path : String) : Option String :=
  (host.file? (normalPath path)).map fun text => String.ofList (withLineFeeds text.toList)

/-- The text that an argument stands for: a file, or by a hyphen the standard input. -/
def source (host : Surroundings) (name : String) : Except Fault String :=
  if name == "-" then .ok host.input
  else
    match host.text? name with
    | some text => .ok text
    | none => .error (.fileNotFound (normalPath name))

/-- The same surroundings once a source has been read. -/
def after (host : Surroundings) (name : String) : Surroundings :=
  if name == "-" then { host with input := "" } else host

end Surroundings

/-- The settings of a document from a path, as it was loaded. -/
def settingsOf (path : String) : Option Datum → Except Fault Settings
  | none => .error (.malformedSettings path)
  | some datum =>
    match Document.entries? datum with
    | none => .error (.settingsNotMapping path)
    | some entries => (Settings.ofEntries entries).mapError Fault.settings

/-- The data of a document with a name, as it was loaded. -/
def dataOf (name : String) : Option Datum → Except Fault (Table Value)
  | none => .error (.malformedData name)
  | some datum =>
    match Document.entries? datum with
    | none => .error (.dataNotMapping name)
    | some entries => .ok (Document.bindings entries)

section Loader

variable (load? : String → Option Datum)

/-- The settings in a file, or the default ones if there is no such file. -/
def settings (host : Surroundings) : Option String → Except Fault Settings
  | none => .ok {}
  | some name =>
    if name.isEmpty then .ok {}
    else
      match host.text? name with
      -- Settings that are not there are no fault.
      | none => .ok {}
      | some text => settingsOf (normalPath name) (load? text)

/-- The data in a file, and the surroundings once it has been read. -/
def data (host : Surroundings) : Option String → Except Fault (Table Value × Surroundings)
  | none => .ok ([], host)
  | some name =>
    if name.isEmpty then .ok ([], host)
    else do
      let text ← host.source name
      let table ← dataOf name (load? text)
      .ok (table, host.after name)

end Loader

/-- The template of an invocation. -/
def template (host : Surroundings) (environment : Environment) (name : String) :
    Noted Fault Template := do
  let source ← Noted.ofExcept (host.source name)
  (Template.compile environment source).mapFault Fault.compile

/-- The output of an invocation. -/
def output (load? : String → Option Datum) (host : Surroundings) (environment : Environment)
    (invocation : Invocation) : Noted Fault String :=
  match invocation.verb with
  | .render => do
    let (data, host) ← Noted.ofExcept (data load? host invocation.data)
    let template ← template host environment invocation.template
    (template.output data).mapFault Fault.ofAbort
  | .check => do
    let _ ← template host environment invocation.template
    .ok ""

/-- What is said on the error output at the end. -/
def closing (invocation : Invocation) : Except Fault String → String
  | .ok _ => if invocation.verb == .check then "ok\n" else ""
  | .error fault => "error: " ++ Text.onChars Text.stripRight fault.message ++ "\n"

/-- The report on a result, whose remarks are told from a level on. A crash is no report. -/
def report (invocation : Invocation) (threshold : Level) (noted : Noted Fault String) :
    Except Crash Report :=
  let errors := Remark.log threshold noted.remarks ++ closing invocation noted.result
  match noted.result with
  | .ok output => .ok ⟨0, output, errors⟩
  | .error fault =>
    match fault.crash? with
    | some crash => .error crash
    | none => .ok ⟨2, "", errors⟩

/-- A command in its surroundings, with a loader of documents. -/
def run (host : Surroundings) (invocation : Invocation)
    (load? : String → Option Datum := Document.read?) : Except Crash Report :=
  match settings load? host invocation.config with
  -- Without settings there is no level yet, and nothing to tell either.
  | .error fault => report invocation .warning (.error fault)
  | .ok settings =>
    let settings := { settings with strict := settings.strict || invocation.strict }
    let environment := (Environment.create settings {}).1
    let threshold := if invocation.verbose then .debug else settings.level
    report invocation threshold (output load? host environment invocation)

end Command

end Liquid
