import Liquid.Command

/-!
# Arguments

How the arguments of a command line are read. Those before the verb belong to
the program, those behind it to the verb. Each of the two knows some options.
An option of two hyphens may be cut short as long as it is still the only one
it can be, and may have its argument behind an equals sign. Options of one
hyphen may be written together. Two hyphens on their own end the options; what
follows is taken as it is.

A word that could be several options is refused before anything is done, even
behind the verb. Everything else is met in turn, so that a request for help
counts if no mistake stands before it. Only words that nothing asked for wait
until the end.

## Main definitions

* `Command.Action`: What an option does.
* `Command.Word`: What an argument can be.
* `Command.words`: The arguments as words.
* `Command.readVerb`: The arguments behind a verb.
* `Command.read`: What some arguments ask for.
-/

namespace Liquid

namespace Command

/-- What an option does. -/
inductive Action
  | help
  | version
  | verbose
  | strict
  | config
  | data
deriving DecidableEq

/-- Whether an option takes an argument. -/
def Action.takesArgument : Action → Bool
  | config => true
  | data => true
  | _ => false

/-- The names of options with what they do. -/
abbrev Options := List (String × Action)

/-- The options of the program. -/
def programOptions : Options :=
  [("-h", .help), ("--help", .help), ("-v", .version), ("--version", .version),
    ("--verbose", .verbose)]

/-- The options of a verb. -/
def verbOptions (verb : Verb) : Options :=
  [("-h", .help), ("--help", .help), ("--config", .config), ("--strict", .strict)]
    ++ if verb == .render then [("--data", .data)] else []

/-- What an argument can be. -/
inductive Word
  | plain (text : String)
  /-- The mark that ends the options. -/
  | mark
  | option (action : Action) (argument : Option String)
  /-- Options of one hyphen with something behind them that cannot stand there. -/
  | garbled
  | unknown
  | ambiguous
deriving DecidableEq

/-- Whether a text is a hyphen and a number. -/
def isNegativeNumber (cs : List Char) : Bool :=
  match cs with
  | '-' :: cs =>
    let whole := cs.takeWhile Char.isDigit
    match cs.dropWhile Char.isDigit with
    | [] => !whole.isEmpty
    | '.' :: places => !places.isEmpty && places.all Char.isDigit
    | _ => false
  | _ => false

/-- The text before the first equals sign, and the one behind it if there is one. -/
def splitArgument (cs : List Char) : List Char × Option (List Char) :=
  match cs.dropWhile (· != '=') with
  | _ :: argument => (cs.takeWhile (· != '='), some argument)
  | [] => (cs, none)

/-- What an option does that has exactly this name. -/
def named? (options : Options) (name : List Char) : Option Action :=
  options.lookup (String.ofList name)

/-- The word that a text with a leading hyphen is if it is no option. -/
def unnamed (cs : List Char) : Word :=
  if isNegativeNumber cs || cs.contains ' ' then .plain (String.ofList cs) else .unknown

/-- Whether letters may follow an option of one hyphen. As soon as one of them is no option, the
rest is not looked at. -/
def mayFollow (options : Options) : List Char → Bool
  | [] => true
  | c :: cs =>
    if c == '=' || c == '-' then false
    else if (named? options ['-', c]).isSome then mayFollow options cs
    else true

/-- The word that options of one hyphen make together. All of them end the reading of arguments, so
only the first one is ever heeded. -/
def cluster (options : Options) (cs : List Char) : Word :=
  match cs.drop 1 with
  | [] => .plain (String.ofList cs)
  | first :: others =>
    match named? options ['-', first] with
    | none => unnamed cs
    | some action =>
      if mayFollow options others then .option action none else .garbled

/-- The word that a text with two leading hyphens is. -/
def long (options : Options) (cs : List Char) : Word :=
  let (name, argument) := splitArgument cs
  let argument := argument.map String.ofList
  match named? options name with
  | some action => .option action argument
  | none =>
    -- The name may be cut short as long as it starts one option only.
    match options.filter fun (full, _) => name.isPrefixOf full.toList with
    | [] => unnamed cs
    | [(_, action)] => .option action argument
    | _ => .ambiguous

/-- The word that an argument is before the options end. -/
def wordOf (options : Options) (arg : String) : Word :=
  match arg.toList with
  | '-' :: '-' :: cs =>
    match named? options ('-' :: '-' :: cs) with
    | some action => .option action none
    | none => long options ('-' :: '-' :: cs)
  | '-' :: cs => cluster options ('-' :: cs)
  | _ => .plain arg

/-- The arguments as words. -/
def words (options : Options) : List String → List Word
  | [] => []
  | arg :: args =>
    if arg == "--" then .mark :: args.map .plain else wordOf options arg :: words options args

/-- What was read behind a verb. -/
structure Draft where
  template : Option String := none
  config : Option String := none
  data : Option String := none
  strict : Bool := false
  /-- Whether there was a word that nothing asked for. -/
  surplus : Bool := false

/-- What was read with the argument of an option. -/
def Draft.withArgument (state : Draft) (argument : String) : Action → Draft
  | .config => { state with config := some argument }
  | .data => { state with data := some argument }
  | _ => state

/-- What was read with an option that takes no argument. -/
def Draft.withSwitch (state : Draft) : Action → Draft
  | .strict => { state with strict := true }
  | _ => state

/-- The words behind a verb, or the request that they make on the way. -/
def readWords (state : Draft) : List Word → Except Request Draft
  | [] => .ok state
  | .plain text :: ws =>
    if state.template.isSome then readWords { state with surplus := true } ws
    else
      -- A mark right behind the template is used up with it.
      match ws with
      | .mark :: ws => readWords { state with template := some text } ws
      | ws => readWords { state with template := some text } ws
  | .mark :: ws =>
    if state.template.isSome then readWords { state with surplus := true } ws
    else readWords state ws
  | .option action argument :: ws =>
    if action == .help && argument.isNone then .error .help
    else if action.takesArgument then
      match argument, ws with
      | some argument, ws => readWords (state.withArgument argument action) ws
      | none, .plain argument :: ws => readWords (state.withArgument argument action) ws
      | none, _ => .error .misuse
    else if argument.isSome then .error .misuse
    else readWords (state.withSwitch action) ws
  | .garbled :: _ => .error .misuse
  | .unknown :: ws => readWords { state with surplus := true } ws
  | .ambiguous :: _ => .error .misuse

/-- What the arguments behind a verb ask for. -/
def readVerb (verb : Verb) (verbose surplus : Bool) (args : List String) : Request :=
  let ws := words (verbOptions verb) args
  if ws.contains .ambiguous then .misuse
  else
    match readWords {} ws with
    | .error request => request
    | .ok state =>
      match state.template with
      | none => .misuse
      | some template =>
        -- Words that nothing asked for are found out last.
        if surplus || state.surplus then .misuse
        else .run ⟨verb, template, state.config, state.data, state.strict, verbose⟩

/-- What the arguments ask for, as far as words before the verb have not decided it. -/
def readProgram (verbose surplus : Bool) : List String → Request
  | [] => .misuse
  | arg :: args =>
    if arg == "--" then .misuse
    else
      match wordOf programOptions arg with
      | .plain name =>
        match Verb.ofName? name with
        | some verb => readVerb verb verbose surplus args
        | none => .misuse
      | .option .help none => .help
      | .option .version none => .version
      | .option .verbose none => readProgram true surplus args
      | .unknown => readProgram verbose true args
      | _ => .misuse

/-- What the arguments ask for. -/
def read (args : List String) : Request :=
  if (words programOptions args).contains .ambiguous then .misuse
  else readProgram false false args

end Command

end Liquid
