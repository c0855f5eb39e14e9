/-!
# Arguments

What the arguments of a run ask for. A subcommand comes with its own options; the settings file and
the legacy switch may stand before or after it. An option is given once in each of these places,
its value follows it or stands behind an equals sign, and a value that follows does not start with
a hyphen. A path is never empty.
-/

namespace DocIndex.CommandLine

/-- What a run is to do. -/
inductive Command where
  /-- Print a view in its normal form. -/
  | check (view : String)
  /-- Print the rows of documents from a file or from standard input. -/
  | rows (view : String) (documents : Option String)
  /-- Add a view. -/
  | add (group name view : String) (store : Option String)
  /-- Add or replace a view. -/
  | put (group name view : String) (store : Option String)
  /-- Remove a view. -/
  | remove (group name : String) (store : Option String)
  /-- List the views of a group. -/
  | list (group : String) (store : Option String)
  deriving DecidableEq

/-- A command and what goes with any command. -/
structure Invocation where
  /-- The command. -/
  command : Command
  /-- The settings file. -/
  settingsFile : Option String
  /-- Whether the transform `minute` gives the hour. -/
  legacyMinute : Bool
  deriving DecidableEq

/-- What arguments ask for. -/
inductive Request where
  /-- A command. -/
  | run (invocation : Invocation)
  /-- The name and version. -/
  | version
  /-- A help text. -/
  | help
  /-- Nothing that can be done. -/
  | invalid
  deriving DecidableEq

/-- The subcommands. -/
inductive Verb where
  /-- Print a view. -/
  | check
  /-- Print rows. -/
  | rows
  /-- Add a view. -/
  | add
  /-- Add or replace a view. -/
  | put
  /-- Remove a view. -/
  | remove
  /-- List views. -/
  | list
  deriving DecidableEq

/-- The subcommand of a name. -/
def Verb.ofName? (name : String) : Option Verb :=
  if name = "check" then some check
  else if name = "rows" then some rows
  else if name = "add" then some add
  else if name = "put" then some put
  else if name = "remove" then some remove
  else if name = "list" then some list
  else none

/-- The options with a value. -/
inductive ValueOption where
  /-- The view file. -/
  | view
  /-- The file of documents. -/
  | docs
  /-- The group. -/
  | group
  /-- The name of the view. -/
  | name
  /-- The store file. -/
  | store
  /-- The settings file. -/
  | config
  deriving DecidableEq

namespace ValueOption

/-- The option of a long name. -/
def ofName? (name : String) : Option ValueOption :=
  if name = "view" then some view
  else if name = "docs" then some docs
  else if name = "group" then some group
  else if name = "name" then some ValueOption.name
  else if name = "store" then some store
  else if name = "config" then some config
  else none

/-- Whether the value is a path, which must not be empty. -/
def isPath : ValueOption → Bool
  | view | docs | store | config => true
  | group | name => false

/-- Whether an option goes with a subcommand, or with none. -/
def goesWith : ValueOption → Option Verb → Bool
  | config, _ => true
  | view, some verb => verb = .check || verb = .rows || verb = .add || verb = .put
  | docs, some verb => verb = .rows
  | group, some verb => verb ≠ .check && verb ≠ .rows
  | name, some verb => verb = .add || verb = .put || verb = .remove
  | store, some verb => verb ≠ .check && verb ≠ .rows
  | _, none => false

end ValueOption

/-- The options given in one place. -/
structure Given where
  /-- The options with their values. -/
  values : List (ValueOption × String)
  /-- Whether the legacy switch is given. -/
  legacyMinute : Bool

/-- No options. -/
def Given.none : Given := ⟨[], false⟩

/-- The value of an option. -/
def Given.value? (given : Given) (option : ValueOption) : Option String :=
  given.values.lookup option

/-- Adds an option; it must not be there yet, and a path must not be empty. -/
def Given.add? (given : Given) (option : ValueOption) (value : String) : Option Given :=
  if (given.value? option).isSome || (option.isPath && value.isEmpty) then Option.none
  else some { given with values := (option, value) :: given.values }

/-- Adds the legacy switch, which must not be there yet. -/
def Given.addLegacy? (given : Given) : Option Given :=
  if given.legacyMinute then Option.none else some { given with legacyMinute := true }

/-- What one argument is. -/
inductive Token where
  /-- The switch of a help text. -/
  | help
  /-- The switch of the version. -/
  | version
  /-- The legacy switch. -/
  | legacyMinute
  /-- An option that takes the next argument. -/
  | option (option : ValueOption)
  /-- An option with its value. -/
  | optionWith (option : ValueOption) (value : String)
  /-- Two hyphens, after which no option comes. -/
  | endOfOptions
  /-- A word. -/
  | word (text : String)
  /-- An option that there is not. -/
  | unknown

/-- A text before and after its first equals sign. -/
def splitEquals : List Char → List Char × Option (List Char)
  | [] => ([], none)
  | c :: rest =>
    if c = '=' then ([], some rest)
    else
      let (before, after) := splitEquals rest
      (c :: before, after)

/-- The token of a long option, without its two hyphens. -/
def longToken (text : List Char) : Token :=
  let (name, value) := splitEquals text
  let name := String.ofList name
  match ValueOption.ofName? name, value with
  | some option, some value => .optionWith option (String.ofList value)
  | some option, none => .option option
  | none, some _ => .unknown
  | none, none =>
    if name = "help" then .help
    else if name = "version" then .version
    else if name = "legacy-minute" then .legacyMinute
    else .unknown

/-- The token of a short option, without its hyphen. -/
def shortToken : List Char → Token
  | ['c'] => .option .config
  | 'c' :: '=' :: value => .optionWith .config (String.ofList value)
  | 'c' :: value => .optionWith .config (String.ofList value)
  | 'h' :: _ => .help
  | 'V' :: _ => .version
  | _ => .unknown

/-- The token of an argument. -/
def tokenOf (argument : String) : Token :=
  match argument.toList with
  | ['-', '-'] => .endOfOptions
  | '-' :: '-' :: text => longToken text
  | ['-'] => .word argument
  | '-' :: text => shortToken text
  | _ => .word argument

/-- Whether an argument may follow an option as its value. -/
def isValue (argument : String) : Bool :=
  match argument.toList with
  | ['-'] => true
  | '-' :: _ => false
  | _ => true

/-- The command of a subcommand and its options, if all that it needs are there. -/
def commandOf? (verb : Verb) (given : Given) : Option Command := do
  let store := given.value? .store
  match verb with
  | .check => return .check (← given.value? .view)
  | .rows => return .rows (← given.value? .view) (given.value? .docs)
  | .add => return .add (← given.value? .group) (← given.value? .name) (← given.value? .view) store
  | .put => return .put (← given.value? .group) (← given.value? .name) (← given.value? .view) store
  | .remove => return .remove (← given.value? .group) (← given.value? .name) store
  | .list => return .list (← given.value? .group) store

/-- The options read so far. -/
structure Progress where
  /-- The options before the subcommand. -/
  outer : Given
  /-- The subcommand, if it has come already. -/
  verb : Option Verb
  /-- The options after the subcommand. -/
  inner : Given

/-- What the words after `help` ask for: the help text, or that of one subcommand. -/
def helpRequest : List String → Request
  | [] => .help
  | [name] => if name = "help" || (Verb.ofName? name).isSome then .help else .invalid
  | _ => .invalid

namespace Progress

/-- Nothing read. -/
def start : Progress := ⟨.none, none, .none⟩

/-- Changes the options of the place that is being read. -/
def update (progress : Progress) (change : Given → Option Given) : Option Progress :=
  if progress.verb.isSome then
    (change progress.inner).map fun inner => { progress with inner := inner }
  else (change progress.outer).map fun outer => { progress with outer := outer }

/-- Adds an option that goes with the subcommand. -/
def add? (progress : Progress) (option : ValueOption) (value : String) : Option Progress :=
  if option.goesWith progress.verb then progress.update fun given => given.add? option value
  else none

/-- What everything read asks for. -/
def request (progress : Progress) : Request :=
  match progress.verb with
  | none => .invalid
  | some verb =>
    match commandOf? verb progress.inner with
    | none => .invalid
    | some command =>
      .run
        { command := command
          settingsFile := (progress.inner.value? .config).or (progress.outer.value? .config)
          legacyMinute := progress.inner.legacyMinute || progress.outer.legacyMinute }

/-- Reads the arguments that are left. -/
def read (progress : Progress) : List String → Request
  | [] => progress.request
  | argument :: rest =>
    match tokenOf argument with
    | .help => .help
    | .version => if progress.verb.isSome then .invalid else .version
    | .legacyMinute =>
      match progress.update Given.addLegacy? with
      | some progress => progress.read rest
      | none => .invalid
    | .optionWith option value =>
      match progress.add? option value with
      | some progress => progress.read rest
      | none => .invalid
    | .option option =>
      match rest with
      | [] => .invalid
      | value :: rest =>
        if isValue value then
          match progress.add? option value with
          | some progress => progress.read rest
          | none => .invalid
        else .invalid
    | .endOfOptions => if rest.isEmpty then progress.request else .invalid
    | .word text =>
      match progress.verb, Verb.ofName? text with
      | none, some verb => read { progress with verb := some verb } rest
      | none, none => if text = "help" then helpRequest rest else .invalid
      | some _, _ => .invalid
    | .unknown => .invalid

end Progress

/-- What the arguments of a run ask for. -/
def Request.ofArguments (arguments : List String) : Request := Progress.start.read arguments

end DocIndex.CommandLine
