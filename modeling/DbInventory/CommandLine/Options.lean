/-
# DbInventory.CommandLine.Options -- the options of a listing

Every option of the listing command takes one value. Some options can also be set by a
variable of the environment, and some have a default. `Arguments` are the values that a
command line comes to.
-/

import DbInventory.Dict
import DbInventory.Json.Basic
import DbInventory.Report
import DbInventory.Text.Decimal

namespace DbInventory

/-- The variables of the environment. -/
abbrev Environment := String → Option String

/-- The options of the listing command. -/
inductive CliOption where
  | secretId | secretKey | securityToken | region | endpoint
  | id | projectId | vpcId | subnetId | resultOutputFile | output
  deriving DecidableEq

namespace CliOption

def all : List CliOption :=
  [.secretId, .secretKey, .securityToken, .region, .endpoint, .id, .projectId, .vpcId, .subnetId,
    .resultOutputFile, .output]

/-- The name behind the two dashes. -/
def name : CliOption → String
  | .secretId => "secret-id"
  | .secretKey => "secret-key"
  | .securityToken => "security-token"
  | .region => "region"
  | .endpoint => "endpoint"
  | .id => "id"
  | .projectId => "project-id"
  | .vpcId => "vpc-id"
  | .subnetId => "subnet-id"
  | .resultOutputFile => "result-output-file"
  | .output => "output"

/-- The variable that sets an option that is not given. -/
def envName? : CliOption → Option String
  | .secretId => some "TENCENTCLOUD_SECRET_ID"
  | .secretKey => some "TENCENTCLOUD_SECRET_KEY"
  | .securityToken => some "TENCENTCLOUD_SECURITY_TOKEN"
  | .region => some "TENCENTCLOUD_REGION"
  | .endpoint => some "TENCENTCLOUD_ENDPOINT"
  | _ => none

/-- The value of an option that is not set at all. -/
def default? : CliOption → Option String
  | .region => some "ap-guangzhou"
  | .output => some "json"
  | _ => none

/-- The option of a name. -/
def ofName? (name : String) : Option CliOption :=
  all.find? fun o => o.name = name

theorem ofName?_name (o : CliOption) : ofName? o.name = some o := by
  cases o <;> decide

end CliOption

/-- The format of a name. -/
def outputFormat? (s : String) : Option OutputFormat :=
  if s = "json" then some .json
  else if s = "table" then some .table
  else none

/-- What a command line comes to. -/
structure Arguments where
  secretId : Option String
  secretKey : Option String
  securityToken : Option String
  region : String
  endpoint : Option String
  id : Option String
  projectId : Option Int64
  vpcId : Option String
  subnetId : Option String
  resultOutputFile : Option String
  output : OutputFormat
  deriving DecidableEq

namespace Arguments

/-- The arguments of the options' values. -/
def ofValues (value : CliOption → Option String) : Arguments where
  secretId := value .secretId
  secretKey := value .secretKey
  securityToken := value .securityToken
  region := (value .region).getD ""
  endpoint := value .endpoint
  id := value .id
  projectId := (value .projectId).bind Text.int64OfDecimal?
  vpcId := value .vpcId
  subnetId := value .subnetId
  resultOutputFile := value .resultOutputFile
  output := ((value .output).bind outputFormat?).getD .json

/-- Puts a value under a name, if there is one. -/
def put (name : String) (value : Option Json) (config : Dict Json) : Dict Json :=
  match value with
  | some v => config.insert name v
  | none => config

/-- The configuration of the options that were given. -/
def config (a : Arguments) : Dict Json :=
  put "result_output_file" (a.resultOutputFile.map .string)
    (put "subnet_id" (a.subnetId.map .string)
      (put "vpc_id" (a.vpcId.map .string)
        (put "project_id" (a.projectId.map Json.int64)
          (put "id" (a.id.map .string) ∅))))

end Arguments

end DbInventory
