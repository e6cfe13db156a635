/-
# DbInventory.App -- the program

A run makes a client of the arguments, reads the listing and shows the state that results.
`Program.run` is the program from its command line to its exit code; it touches nothing but
the network and the files that it is given.
-/

import DbInventory.Api.Client
import DbInventory.CommandLine.Help
import DbInventory.Listing.Read

namespace DbInventory

/-! ## Errors -/

/-- Why a run failed. -/
inductive AppError where
  | config (text : String)
  | dataSource (error : DataSourceError)
  | render (text : String)
  deriving DecidableEq

namespace AppError

def message : AppError → String
  | .config text => "configuration error: " ++ text
  | .dataSource error => error.message
  | .render text => "failed to render output: " ++ text

end AppError

/-- The messages of an error and of the errors behind it, the outermost first. -/
def DataSourceError.chain (e : DataSourceError) : List String :=
  match e with
  | .schema error => [e.message, error.message]
  | .io fault => [e.message, fault.message]
  | _ => [e.message]

def AppError.chain (e : AppError) : List String :=
  match e with
  | .dataSource error => error.chain
  | .render text => [e.message, text]
  | .config _ => [e.message]

/-! ## Data sources -/

/-- The data source of a name, on the services of a client. -/
def Client.dataSource (c : Client) (net : Network τ) (home : Option String) (name : String) :
    Except DataSourceError (Listing τ) :=
  if name = Listing.name then
    .ok { services := c.services net, region := c.region, home }
  else .error (.unknownDataSource name)

/-! ## Runs -/

namespace Arguments

def missingSecret (what envName option : String) : AppError :=
  .config ("No " ++ what ++ " provided. Set " ++ envName ++ " or use --" ++ option ++ " flag")

/-- The client of the arguments. -/
def client (a : Arguments) : Except AppError Client :=
  match a.secretId, a.secretKey with
  | none, _ => .error (missingSecret "secret id" "TENCENTCLOUD_SECRET_ID" "secret-id")
  | some _, none => .error (missingSecret "secret key" "TENCENTCLOUD_SECRET_KEY" "secret-key")
  | some secretId, some secretKey =>
    (Client.of (.of secretId secretKey a.securityToken) a.region a.endpoint).mapError
      fun e => .config e.message

/-- Reads the listing, and shows its state. -/
def run (a : Arguments) (net : Network τ) (home : Option String) (s : τ) (files : FileTree) :
    Except AppError String × τ × FileTree :=
  match a.client with
  | .error e => (.error e, s, files)
  | .ok c =>
    match c.dataSource net home Listing.name with
    | .error e => (.error (.dataSource e), s, files)
    | .ok source =>
      match source.readConfig a.config s files with
      | (.error e, s, files) => (.error (.dataSource e), s, files)
      | (.ok state, s, files) => (.ok (Report.text (.ofDict state) a.output), s, files)

end Arguments

/-! ## The program -/

/-- How the program ends: its exit code, its output, and the messages of its error. -/
structure Outcome where
  exitCode : Nat
  output : String
  errors : List String
  deriving DecidableEq

namespace Program

/-- The end of a run whose command line was not read. -/
def usageOutcome (env : Environment) (e : UsageError) : Outcome where
  exitCode := e.exitCode
  output :=
    match e with
    | .help command => command.page env
    | .version => versionText
    | _ => ""
  errors := []

/-- The end of a run of arguments. -/
def runOutcome : Except AppError String → Outcome
  | .ok text => { exitCode := 0, output := text ++ "\n", errors := [] }
  | .error e => { exitCode := 1, output := "", errors := e.chain }

/-- Runs a command line. -/
def run (env : Environment) (home : Option String) (net : Network τ) (args : List String)
    (s : τ) (files : FileTree) : Outcome × τ × FileTree :=
  match Arguments.read env args with
  | .error e => (usageOutcome env e, s, files)
  | .ok a =>
    let (result, s, files) := a.run net home s files
    (runOutcome result, s, files)

end Program

end DbInventory
