/-
# DbInventory.CommandLine.Help -- help for the commands

Each command has a page of help. The page of the listing shows all options, with the present
values of their variables, but for those of secrets.
-/

import DbInventory.CommandLine.Parser
import DbInventory.Text.Parts

namespace DbInventory

/-! ## Options -/

namespace CliOption

/-- What an option is for. -/
def purpose : CliOption → String
  | .endpoint => "Override the API endpoint for every service"
  | .id => "ID of the SQL Server basic instance to be query"
  | .projectId => "Project ID of the SQL Server basic instance to be query"
  | .vpcId => "Vpc ID of the SQL Server basic instance to be query"
  | .subnetId => "Subnet ID of the SQL Server basic instance to be query"
  | .resultOutputFile => "Used to save results"
  | _ => ""

/-- The value of the option's variable is a secret. -/
def isSecret : CliOption → Bool
  | .secretId | .secretKey | .securityToken => true
  | _ => false

/-- How the value is called: the name in capitals. -/
def valueName (o : CliOption) : String :=
  String.ofList (o.name.toList.map fun c => if c = '-' then '_' else c.toUpper)

def variableText (env : Environment) (o : CliOption) : String :=
  match o.envName? with
  | none => ""
  | some name =>
    if o.isSecret then "[env: " ++ name ++ "]"
    else "[env: " ++ name ++ "=" ++ (env name).getD "" ++ "]"

def defaultText (o : CliOption) : String :=
  match o.default? with
  | none => ""
  | some value => "[default: " ++ value ++ "]"

def possibleText : CliOption → String
  | .output => "[possible values: json, table]"
  | _ => ""

end CliOption

/-- The blanks in front of what an option is for. -/
def helpIndent : List Char := List.replicate 10 ' '

/-- A text with blanks in front of each line. -/
def indented (s : String) : String :=
  String.ofList (Text.joinParts '\n' ((Text.parts '\n' s.toList).map (helpIndent ++ ·)))

/-- The lines of an option. -/
def optionHelp (env : Environment) (o : CliOption) : List String :=
  let notes := [o.purpose, o.variableText env, o.defaultText, o.possibleText]
  ["      --" ++ o.name ++ " <" ++ o.valueName ++ ">",
    indented (String.intercalate " " (notes.filter (· ≠ "")))]

/-! ## Pages -/

def helpPurpose : String := "Print this message or the help of the given subcommand(s)"

def listingPurpose : String := "Query SQL Server basic instances"

/-- The page of a command that shows help. -/
def helpPage (usage : String) : List String :=
  [helpPurpose, "", "Usage: " ++ usage ++ " help [COMMAND]...", "", "Arguments:",
    "  [COMMAND]...  Print help for the subcommand(s)"]

def pageLines (env : Environment) : Command → List String
  | .program =>
    ["Usage: tcsqlserver <COMMAND>", "", "Commands:", "  sqlserver  ",
      "  help       " ++ helpPurpose, "", "Options:", "  -h, --help     Print help", "  -V, --version  Print version"]
  | .sqlserver =>
    ["Usage: tcsqlserver sqlserver <COMMAND>", "", "Commands:",
      "  basic-instances  " ++ listingPurpose, "  help             " ++ helpPurpose, "",
      "Options:", "  -h, --help  Print help"]
  | .instances =>
    [listingPurpose, "", "Usage: tcsqlserver sqlserver basic-instances [OPTIONS]", "",
        "Options:"] ++
      CliOption.all.flatMap (optionHelp env) ++ ["  -h, --help", "          Print help"]
  | .programHelp => helpPage "tcsqlserver"
  | .sqlserverHelp => helpPage "tcsqlserver sqlserver"

/-- The page of a command, with a line feed behind each line. -/
def Command.page (env : Environment) (c : Command) : String :=
  String.join ((pageLines env c).map (· ++ "\n"))

def versionText : String := "tcsqlserver 0.1.0\n"

end DbInventory
