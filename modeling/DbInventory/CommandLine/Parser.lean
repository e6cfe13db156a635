/-
# DbInventory.CommandLine.Parser -- reading a command line

The program has a command for the provider's service, and that has one for the listing; both
levels also have a command for help. Behind the listing command stand options, each with its
value behind an equals sign or as the next argument. An argument that starts with a dash is
never a value. A value that stands apart is taken up only when the next option comes or the
line ends, so the faults of arguments in between are found first.
-/

import DbInventory.CommandLine.Options

namespace DbInventory

/-! ## Commands -/

/-- The commands, and the two commands that show help. -/
inductive Command where
  | program
  | sqlserver
  | instances
  | programHelp
  | sqlserverHelp
  deriving DecidableEq

namespace Command

/-- The command of a name below another. -/
def sub? : Command → String → Option Command
  | .program, name =>
    if name = "sqlserver" then some .sqlserver
    else if name = "help" then some .programHelp
    else none
  | .sqlserver, name =>
    if name = "basic-instances" then some .instances
    else if name = "help" then some .sqlserverHelp
    else none
  | _, _ => none

def showsHelp : Command → Bool
  | .programHelp | .sqlserverHelp => true
  | _ => false

end Command

/-- Why a command line comes to no arguments. -/
inductive UsageError where
  | help (command : Command)
  | version
  | missingSubcommand
  | invalidSubcommand
  | unknownArgument
  | invalidValue
  | invalidNumber
  | repeatedOption
  | tooManyValues
  deriving DecidableEq

namespace UsageError

def message : UsageError → String
  | .help _ => "help was asked for"
  | .version => "the version was asked for"
  | .missingSubcommand => "a command is missing"
  | .invalidSubcommand => "there is no such command"
  | .unknownArgument => "there is no such argument"
  | .invalidValue => "a value is missing, or it is none of the possible values"
  | .invalidNumber => "a value is no whole number"
  | .repeatedOption => "an option is given twice"
  | .tooManyValues => "an option takes no value"

/-- Help and version are what was asked for; all else is a fault. -/
def exitCode : UsageError → Nat
  | .help _ | .version => 0
  | _ => 2

end UsageError

/-- The help that the names of commands ask for. -/
def helpFor : Command → List String → UsageError
  | c, [] => .help c
  | c, name :: names =>
    match c.sub? name with
    | some d => helpFor d names
    | none => .invalidSubcommand

/-! ## Single arguments -/

/-- What an argument looks like: two dashes alone, two dashes and a name, one dash and
letters, or anything else. -/
inductive ArgumentShape where
  | separator
  | long (name : String) (value : Option String)
  | short (letters : List Char)
  | plain
  deriving DecidableEq

/-- A name, and the value behind the first equals sign. -/
def splitValue (s : List Char) : String × Option String :=
  let (name, rest) := s.span (· ≠ '=')
  (String.ofList name, match rest with
    | [] => none
    | _ :: value => some (String.ofList value))

def shapeOf (arg : String) : ArgumentShape :=
  match arg.toList with
  | ['-', '-'] => .separator
  | '-' :: '-' :: s => .long (splitValue s).1 (splitValue s).2
  | '-' :: c :: s => .short (c :: s)
  | _ => .plain

/-! ## Options -/

/-- The values of options so far. -/
abbrev GivenOptions := List (CliOption × String)

/-- Whether an option takes a value. -/
def checkValue (o : CliOption) (value : String) : Except UsageError Unit :=
  match o with
  | .projectId => if (Text.int64OfDecimal? value).isSome then .ok () else .error .invalidNumber
  | .output => if (outputFormat? value).isSome then .ok () else .error .invalidValue
  | _ => .ok ()

/-- Takes an option up. -/
def giveOption (given : GivenOptions) (o : CliOption) (value : String) :
    Except UsageError GivenOptions :=
  if (given.lookup o).isSome then .error .repeatedOption
  else (checkValue o value).map fun _ => given ++ [(o, value)]

/-- An option whose value stands apart, and the value once it has come. -/
abbrev Waiting := Option (CliOption × Option String)

/-- Takes a waiting option up. -/
def settle (given : GivenOptions) : Waiting → Except UsageError GivenOptions
  | none => .ok given
  | some (_, none) => .error .invalidValue
  | some (o, some value) => giveOption given o value

/-- The options behind the listing command. -/
def readOptions : (given : GivenOptions) → Waiting → List String →
    Except UsageError GivenOptions
  | given, waiting, [] => settle given waiting
  | given, waiting, arg :: args =>
    match shapeOf arg with
    | .separator => if args.isEmpty then settle given waiting else .error .unknownArgument
    | .long name value =>
      if name = "help" then
        if value.isSome then .error .tooManyValues
        else (settle given waiting).bind fun _ => .error (.help .instances)
      else
        match CliOption.ofName? name, value with
        | none, _ => .error .unknownArgument
        | some o, some value => do
          let given ← settle given waiting
          let given ← giveOption given o value
          readOptions given none args
        | some o, none => do
          let given ← settle given waiting
          readOptions given (some (o, none)) args
    | .short letters =>
      if letters.head? = some 'h' then
        (settle given waiting).bind fun _ => .error (.help .instances)
      else .error .unknownArgument
    | .plain =>
      match waiting with
      | some (o, none) => readOptions given (some (o, some arg)) args
      | _ => .error .unknownArgument

/-- The value of an option: given, or set by its variable, or its default. -/
def optionValue (env : Environment) (given : GivenOptions) (o : CliOption) : Option String :=
  (given.lookup o).or ((o.envName?.bind env).or o.default?)

def readArguments (env : Environment) (args : List String) : Except UsageError Arguments :=
  (readOptions [] none args).map fun given => .ofValues (optionValue env given)

/-! ## Command lines -/

/-- Only the program itself has a version. -/
def readFlag (c : Command) (name : String) : UsageError :=
  if name = "help" then .help c
  else if name = "version" ∧ c = .program then .version
  else .unknownArgument

def readLetter (c : Command) : Option Char → UsageError
  | some 'h' => .help c
  | some 'V' => if c = .program then .version else .unknownArgument
  | _ => .unknownArgument

/-- An argument that is no command where one is wanted. -/
def readNonCommand (c : Command) (arg : String) (args : List String) : UsageError :=
  match shapeOf arg with
  | .separator =>
    match args with
    | [] => .missingSubcommand
    | next :: _ => if (c.sub? next).isSome then .unknownArgument else .invalidSubcommand
  | .long name value =>
    if value.isSome ∧ readFlag c name ≠ .unknownArgument then .tooManyValues
    else readFlag c name
  | .short letters => readLetter c letters.head?
  | .plain => .invalidSubcommand

/-- The arguments of a command. -/
def readCommand (env : Environment) : Command → List String → Except UsageError Arguments
  | .instances, args => readArguments env args
  | _, [] => .error .missingSubcommand
  | c, arg :: args =>
    match c.sub? arg with
    | none => .error (readNonCommand c arg args)
    | some d => if d.showsHelp then .error (helpFor c args) else readCommand env d args

/-- The arguments of a command line. -/
def Arguments.read (env : Environment) (args : List String) : Except UsageError Arguments :=
  readCommand env .program args

end DbInventory
