import CommentProse.Extract

/-!
The command line.

* `Setting`: the options, by their names and letters;
* `UsageError`: why arguments are no command;
* `CommandLine.parse`: the command that some arguments stand for.

An option that takes a value has it after an equals sign, behind its letter, or as the next
argument. A value is judged only when the next option or path that is known has been met, so that an
argument that is not known is reported before a bad value.
-/

namespace CommentProse

/-- Why arguments are no command. Help and version are asked for in the same way. -/
inductive UsageError where
  | help
  | helpOnMissing
  | version
  | missingCommand
  | unknownCommand
  | unknownArgument
  | missingArgument
  | invalidValue
  | tooManyValues
  | repeatedArgument
deriving DecidableEq, Repr

/-- What a command line asks for. -/
inductive Command where
  | extract (extraction : Extraction)
  | extensions
deriving DecidableEq, Repr

namespace CommandLine

/-! ### Options -/

/-- The options of all commands. -/
inductive Setting where
  | verbose
  | help
  | version
  | config
  | format
  | check
deriving DecidableEq, Repr

namespace Setting

/-- The name after two hyphens. -/
def name : Setting → String
  | .verbose => "verbose"
  | .help => "help"
  | .version => "version"
  | .config => "config"
  | .format => "format"
  | .check => "check"

/-- The letter after one hyphen. -/
def letter? : Setting → Option Char
  | .verbose => some 'v'
  | .help => some 'h'
  | .version => some 'V'
  | .config => some 'c'
  | .format => some 'f'
  | .check => none

/-- The option takes a value. -/
def takesValue : Setting → Bool
  | .config => true
  | .format => true
  | _ => false

end Setting

/-- A level of the command line: before the command, or after it. -/
inductive Level where
  | root
  | extract
  | extensions
deriving DecidableEq, Repr

namespace Level

/-- The options of a level. -/
def settings : Level → List Setting
  | .root => [.verbose, .help, .version]
  | .extract => [.verbose, .help, .config, .format, .check]
  | .extensions => [.verbose, .help]

/-- The option of a name. -/
def byName? (level : Level) (name : String) : Option Setting :=
  level.settings.find? (·.name = name)

/-- The option of a letter. -/
def byLetter? (level : Level) (c : Char) : Option Setting :=
  level.settings.find? (·.letter? = some c)

end Level

/-- The level of the command of a name. -/
def command? (name : String) : Option Level :=
  if name = "extract" then some .extract
  else if name = "extensions" then some .extensions
  else none

/-- The name of the command that explains the others. -/
def helpCommand : String := "help"

/-! ### Values -/

/-- The format of a name. -/
def format? (name : String) : Option Format :=
  if name = "pretty" then some .pretty else if name = "json" then some .json else none

/-- What has been given so far. -/
structure Given where
  verbose : Bool
  check : Bool
  config : Option String
  format : Option Format
  path : Option String
deriving DecidableEq, Repr

/-- Nothing given. -/
def Given.none : Given := ⟨false, false, .none, .none, .none⟩

/-- An argument that has been met and is not judged yet. -/
inductive Pending where
  | setting (setting : Setting) (value : Option String)
  | path (value : String)
deriving DecidableEq, Repr

namespace Given

/-- A path, which is not empty. -/
def pathValue (value : String) : Except UsageError String :=
  if value.isEmpty then .error .invalidValue else .ok value

/-- Takes an option with its value: a value must be there, an option must not come twice, and the
value must be good, in this order. -/
def take (g : Given) (setting : Setting) (value : Option String) : Except UsageError Given :=
  match setting with
  | .help => .error .help
  | .version => .error .version
  | .verbose => if g.verbose then .error .repeatedArgument else .ok { g with verbose := true }
  | .check => if g.check then .error .repeatedArgument else .ok { g with check := true }
  | .config =>
    match value with
    | .none => .error .invalidValue
    | some v =>
      if g.config.isSome then .error .repeatedArgument
      else (pathValue v).map fun v => { g with config := some v }
  | .format =>
    match value with
    | .none => .error .invalidValue
    | some v =>
      if g.format.isSome then .error .repeatedArgument
      else
        match format? v with
        | .none => .error .invalidValue
        | some f => .ok { g with format := some f }

/-- Takes what is not judged yet. -/
def settle (g : Given) : Option Pending → Except UsageError Given
  | .none => .ok g
  | some (.setting setting value) => g.take setting value
  | some (.path value) => (pathValue value).map fun v => { g with path := some v }

end Given

/-- The state of a level: what has been given, what is not judged yet, and whether two hyphens have
ended the options. -/
structure State where
  level : Level
  given : Given
  pending : Option Pending
  ended : Bool
deriving DecidableEq, Repr

namespace State

/-- The beginning of a level. -/
def init (level : Level) : State := ⟨level, Given.none, none, false⟩

/-- Judges what has not been judged. -/
def settle (s : State) : Except UsageError State := do
  let given ← s.given.settle s.pending
  pure { s with given, pending := none }

/-- Takes an option with its value. -/
def take (s : State) (setting : Setting) (value : Option String) : Except UsageError State := do
  let s ← s.settle
  let given ← s.given.take setting value
  pure { s with given }

/-- Waits for the value of an option. -/
def await (s : State) (setting : Setting) : Except UsageError State := do
  let s ← s.settle
  pure { s with pending := some (.setting setting none) }

/-- The option whose value comes next. -/
def awaited? (s : State) : Option Setting :=
  match s.pending with
  | some (.setting setting none) => some setting
  | _ => none

/-- A path has been given. -/
def hasPath (s : State) : Bool :=
  s.given.path.isSome || match s.pending with
    | some (.path _) => true
    | _ => false

/-- An argument by its name, after two hyphens. -/
def long (s : State) (text : List Char) : Except UsageError State :=
  let name := String.ofList (text.takeWhile (· ≠ '='))
  let value :=
    match text.dropWhile (· ≠ '=') with
    | [] => none
    | _ :: rest => some (String.ofList rest)
  match s.level.byName? name with
  | none => .error .unknownArgument
  | some setting =>
    if setting.takesValue then
      if value.isSome then s.take setting value else s.await setting
    else if value.isSome then .error .tooManyValues
    else s.take setting none

/-- Arguments by their letters, after one hyphen. -/
def short (s : State) : List Char → Except UsageError State
  | [] => .ok s
  | c :: cs =>
    match s.level.byLetter? c with
    | none => .error .unknownArgument
    | some setting =>
      if setting.takesValue then
        match cs with
        | [] => s.await setting
        | '=' :: rest => s.take setting (some (String.ofList rest))
        | rest => s.take setting (some (String.ofList rest))
      else
        match s.take setting none with
        | .error e => .error e
        | .ok s => s.short cs

/-- An argument that is no option. -/
def positional (s : State) (arg : String) : Except UsageError State :=
  match s.level with
  | .root =>
    if s.ended && ((command? arg).isSome || arg = helpCommand) then .error .unknownArgument
    else .error .unknownCommand
  | .extensions => .error .unknownArgument
  | .extract =>
    if s.hasPath then .error .unknownArgument
    else do
      let s ← s.settle
      pure { s with pending := some (.path arg) }

/-- One argument. -/
def argument (s : State) (arg : String) : Except UsageError State :=
  if s.ended then s.positional arg
  else
    match arg.toList with
    | ['-', '-'] => .ok { s with ended := true }
    | '-' :: '-' :: text => s.long text
    | '-' :: c :: cs => s.short (c :: cs)
    | _ =>
      match s.awaited? with
      | some setting => .ok { s with pending := some (.setting setting (some arg)) }
      | none => s.positional arg

end State

/-! ### Commands -/

/-- What is given after a command. -/
def parseLevel (level : Level) (args : List String) : Except UsageError Given := do
  let s ← args.foldlM State.argument (State.init level)
  let s ← s.settle
  pure s.given

/-- Explains commands: each name must be that of a command below the one before. -/
def explain : List String → UsageError
  | [] => .help
  | [name] => if (command? name).isSome || name = helpCommand then .help else .unknownCommand
  | _ => .unknownCommand

/-- The extraction that was given. -/
def extraction (g : Given) : Except UsageError Extraction :=
  match g.path with
  | none => .error .missingArgument
  | some path => .ok ⟨path, g.config, g.format.getD .pretty, g.check⟩

/-- The command of arguments, from a state before the command on. -/
def parseFrom (s : State) : List String → Except UsageError Command
  | [] => do
    let s ← s.settle
    if s.given.verbose then .error .missingCommand else .error .helpOnMissing
  | arg :: args =>
    if !s.ended && arg = helpCommand then .error (explain args)
    else
      match if s.ended then none else command? arg with
      | some .extract => do
        let given ← parseLevel .extract args
        let x ← extraction given
        pure (.extract x)
      | some level => do
        let _ ← parseLevel level args
        pure .extensions
      | none =>
        match s.argument arg with
        | .error e => .error e
        | .ok s => parseFrom s args

/-- The command that some arguments stand for. -/
def parse (args : List String) : Except UsageError Command := parseFrom (State.init .root) args

end CommandLine

/-- Runs a command, with configurations in YAML. -/
def Command.run (c : Command) (w : Workspace) (color : Bool) : Except CommandError Outcome :=
  match c with
  | .extract x => x.run Config.yaml w color
  | .extensions => listExtensions Registry.standard

end CommentProse
