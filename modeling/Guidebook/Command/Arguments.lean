import Guidebook.Path.Basic
import Guidebook.Text.ControlSequence

/-!
# Command Lines

Reading the arguments of the command line. Options stand before or behind the name of a command; the
value of an option follows it as the next argument, or behind `=`, or directly behind its letter.
An option takes effect when the next option comes, and it is then that a fault in its value shows.
-/

namespace Guidebook

/-- The commands, by their names. -/
inductive CommandName where
  | init
  | generate
  | classNames
  deriving DecidableEq, Repr

/-- The command with the given name. -/
def CommandName.ofText? (name : Text) : Option CommandName :=
  if name = "init".toList then some .init
  else if name = "generate".toList then some .generate
  else if name = "class-names".toList then some .classNames
  else none

/-- The options. -/
inductive CommandOption where
  | path
  | verbose
  | noColor
  | help
  | version
  | sources
  | docs
  | runnable
  | exported
  | rootUrl
  | dir
  | format
  deriving DecidableEq, Repr

namespace CommandOption

/-- The name of an option, behind two hyphens. -/
def name : CommandOption → Text
  | .path => "path".toList
  | .verbose => "verbose".toList
  | .noColor => "no-color".toList
  | .help => "help".toList
  | .version => "version".toList
  | .sources => "sources".toList
  | .docs => "docs".toList
  | .runnable => "runnable".toList
  | .exported => "export".toList
  | .rootUrl => "root-url".toList
  | .dir => "dir".toList
  | .format => "format".toList

/-- The letter of an option, behind one hyphen. -/
def letter? : CommandOption → Option Char
  | .path => some 'p'
  | .verbose => some 'v'
  | .help => some 'h'
  | .version => some 'V'
  | _ => none

/-- What stands for the value of an option that takes one. -/
def placeholder? : CommandOption → Option Text
  | .path => some "PATH".toList
  | .sources => some "SOURCES".toList
  | .docs => some "DOCS".toList
  | .runnable => some "RUNNABLE".toList
  | .exported => some "EXPORT".toList
  | .rootUrl => some "ROOT_URL".toList
  | .dir => some "DIR".toList
  | .format => some "FORMAT".toList
  | _ => none

/-- Whether an option takes a value. -/
def takesValue (option : CommandOption) : Bool :=
  option.placeholder?.isSome

/-- An option as it is written, with what stands for its value. -/
def display (option : CommandOption) : Text :=
  "--".toList ++ option.name ++
    match option.placeholder? with
    | some placeholder => " <".toList ++ placeholder ++ ['>']
    | none => []

/-- The options that can stand before the name of a command. -/
def general : List CommandOption :=
  [.path, .verbose, .noColor, .help, .version]

/-- The options that can stand behind the name of a command. -/
def ofCommand : CommandName → List CommandOption
  | .init => [.path, .verbose, .noColor, .help]
  | .generate =>
    [.sources, .docs, .runnable, .exported, .rootUrl, .path, .verbose, .noColor, .help]
  | .classNames => [.dir, .format, .path, .verbose, .noColor, .help]

end CommandOption

/-- What is wrong with a command line. -/
inductive UsageError where
  | unexpectedArgument (argument : Text)
  | unknownCommand (name : Text)
  | valueMissing (option : CommandOption)
  | valueInvalid (option : CommandOption) (value : Text)
  | valueUnexpected (option : CommandOption) (value : Text)
  | usedTwice (option : CommandOption)
  deriving DecidableEq, Repr

/-- The wording of a usage error. Of what stood on the command line it shows what is visible. -/
def UsageError.message : UsageError → Text
  | .unexpectedArgument argument =>
    "unexpected argument '".toList ++ argument.visible ++ "' found".toList
  | .unknownCommand name => "unrecognized subcommand '".toList ++ name.visible ++ ['\'']
  | .valueMissing option =>
    "a value is required for '".toList ++ option.display ++ "' but none was supplied".toList
  | .valueInvalid option value =>
    "invalid value '".toList ++ value.visible ++ "' for '".toList ++ option.display ++ ['\'']
  | .valueUnexpected option value =>
    "unexpected value '".toList ++ value.visible ++ "' for '".toList ++ option.display
      ++ "' found; no more were expected".toList
  | .usedTwice option =>
    "the argument '".toList ++ option.display ++ "' cannot be used multiple times".toList

/-- Why a command line leads to no command being run. -/
inductive Stop where
  | usage (error : UsageError)
  /-- The version is asked for. -/
  | version
  /-- Help is asked for. -/
  | help
  deriving DecidableEq, Repr

/-- The arguments on one side of the name of a command, as far as they have been read. -/
structure Arguments where
  /-- The options that can stand here. -/
  allowed : List CommandOption
  /-- The options that have taken effect, with their values. -/
  given : List (CommandOption × Text) := []
  /-- The option that has been read last, which has not taken effect, and its value if that has
  come already. -/
  pending : Option (CommandOption × Option Text) := none
  deriving DecidableEq, Repr

namespace Arguments

/-- Whether a value can be that of an option. -/
def checkValue (option : CommandOption) (value : Text) : Except Stop Unit :=
  if value = [] ∧ option ≠ .rootUrl then .error (.usage (.valueMissing option))
  else if option = .format ∧ value ≠ "text".toList ∧ value ≠ "json".toList then
    .error (.usage (.valueInvalid option value))
  else .ok ()

/-- An option takes effect. -/
def apply (args : Arguments) (option : CommandOption) (value? : Option Text) :
    Except Stop Arguments := do
  if option = .help then throw .help
  if option = .version then throw .version
  if option.takesValue ∧ value?.isNone then throw (.usage (.valueMissing option))
  if args.given.any (·.1 = option) then throw (.usage (.usedTwice option))
  if option.takesValue then checkValue option (value?.getD [])
  return { args with given := args.given ++ [(option, value?.getD [])], pending := none }

/-- The option that has been read last takes effect. -/
def settle (args : Arguments) : Except Stop Arguments :=
  match args.pending with
  | none => .ok args
  | some (option, value?) => args.apply option value?

/-- An option is read. One that takes no value, or has it with it, takes effect at once. -/
def read (args : Arguments) (option : CommandOption) (attached : Option Text) :
    Except Stop Arguments := do
  let args ← args.settle
  if option.takesValue ∧ attached.isNone then return { args with pending := some (option, none) }
  else args.apply option attached

/-- An argument that begins with two hyphens, which are followed by `body`. -/
def readLong (args : Arguments) (body : Text) : Except Stop Arguments :=
  let name := body.takeWhile (· ≠ '=')
  let attached := (body.dropWhile (· ≠ '=')).tail?
  match args.allowed.find? fun option => option.name = name with
  | none => .error (.usage (.unexpectedArgument ("--".toList ++ name)))
  | some option =>
    match attached with
    | some value =>
      if option.takesValue then args.read option attached
      else .error (.usage (.valueUnexpected option value))
    | none => args.read option none

/-- An argument that begins with one hyphen, which is followed by letters of options. Behind one
that takes a value stands its value. -/
def readLetters (args : Arguments) : Text → Except Stop Arguments
  | [] => .ok args
  | c :: rest =>
    match args.allowed.find? fun option => option.letter? = some c with
    | none => .error (.usage (.unexpectedArgument ['-', c]))
    | some option =>
      if option.takesValue then
        match rest with
        | [] => args.read option none
        | '=' :: value => args.read option (some value)
        | value => args.read option (some value)
      else do (← args.read option none).readLetters rest

/-- Whether a text is the name of a command, or `help`, which asks for help on one. -/
def isCommandWord (t : Text) : Bool :=
  (CommandName.ofText? t).isSome || t = "help".toList

/-- What is wrong with an argument that is no option and no value of one. -/
def stray (isTop : Bool) (afterEscape : Bool) (argument : Text) : UsageError :=
  if isTop && !(afterEscape && isCommandWord argument) then .unknownCommand argument
  else .unexpectedArgument argument

/-- What comes of the arguments behind `help`, which name at most one command. -/
def helpOn : List Text → Stop
  | [] => .help
  | name :: rest =>
    if isCommandWord name then
      match rest with
      | [] => .help
      | next :: _ => .usage (.unknownCommand next)
    else .usage (.unknownCommand name)

/-- Whether the option that has been read last still lacks its value. -/
def awaitsValue (args : Arguments) : Bool :=
  match args.pending with
  | some (_, none) => true
  | _ => false

/-- Reads arguments up to the name of a command, which is looked for if `isTop`, or to the end.
`escaped` tells that an argument `--` has been read, behind which there are no options. -/
def readAll (isTop escaped : Bool) (args : Arguments) :
    List Text → Except Stop (Arguments × Option (CommandName × List Text))
  | [] => .ok (args, none)
  | argument :: rest =>
    let isFree := !escaped && !args.awaitsValue
    let command? := if isTop && isFree then CommandName.ofText? argument else none
    match command? with
    | some command => .ok (args, some (command, rest))
    | none =>
      if escaped then .error (.usage (stray isTop escaped argument))
      else if isTop && isFree && argument = "help".toList then .error (helpOn rest)
      else
        match argument with
        | ['-', '-'] => readAll isTop true args rest
        | '-' :: '-' :: body => do readAll isTop escaped (← args.readLong body) rest
        | '-' :: c :: letters => do readAll isTop escaped (← args.readLetters (c :: letters)) rest
        | value =>
          match args.pending with
          | some (option, none) =>
            readAll isTop escaped { args with pending := some (option, some value) } rest
          | _ => .error (.usage (stray isTop escaped argument))

/-- The value of an option that has taken effect. -/
def value? (args : Arguments) (option : CommandOption) : Option Text :=
  (args.given.find? (·.1 = option)).map (·.2)

/-- Whether an option has taken effect. -/
def has (args : Arguments) (option : CommandOption) : Bool :=
  (args.value? option).isSome

end Arguments

/-! ### Invocations -/

/-- The settings that the options of `generate` replace. -/
structure Overrides where
  sources : Option Path := none
  pages : Option Path := none
  runnable : Option Path := none
  exported : Option Path := none
  rootUrl : Option Text := none
  deriving DecidableEq, Repr

/-- A command and its options. -/
inductive Command where
  | init
  | generate (overrides : Overrides)
  /-- Lists class names, of the programs in a given directory perhaps, as JSON perhaps. -/
  | classNames (directory : Option Path) (asJson : Bool)
  deriving DecidableEq, Repr

/-- What a command line asks for. -/
structure Invocation where
  /-- The project, if it is not the one we are in. -/
  project : Option Path
  verbose : Bool
  command : Option Command
  deriving DecidableEq, Repr

namespace Invocation

/-- The command that its name and options make up. -/
def commandOf (name : CommandName) (args : Arguments) : Command :=
  match name with
  | .init => .init
  | .generate =>
    .generate
      { sources := (args.value? .sources).map Path.mk
        pages := (args.value? .docs).map Path.mk
        runnable := (args.value? .runnable).map Path.mk
        exported := (args.value? .exported).map Path.mk
        rootUrl := args.value? .rootUrl }
  | .classNames =>
    .classNames ((args.value? .dir).map Path.mk) (args.value? .format = some "json".toList)

/-- What the arguments ask for. Of an option on both sides of a command the inner one counts. -/
def ofArguments (arguments : List Text) : Except Stop Invocation := do
  let (outer, command?) ←
    Arguments.readAll true false { allowed := CommandOption.general } arguments
  match command? with
  | none =>
    let outer ← outer.settle
    return ⟨(outer.value? .path).map Path.mk, outer.has .verbose, none⟩
  | some (name, rest) =>
    let (inner, _) ← Arguments.readAll false false { allowed := CommandOption.ofCommand name } rest
    let inner ← inner.settle
    let outer ← outer.settle
    return {
      project := ((inner.value? .path).or (outer.value? .path)).map Path.mk
      verbose := inner.has .verbose || outer.has .verbose
      command := some (commandOf name inner) }

end Invocation

end Guidebook
