/-
# DbInventory.Listing.Read -- reading the listing of instances

A read takes its filter from the configured arguments, lists the instances, looks up the tags
of each instance that has an identifier, and stores the list and its identifier. If the
arguments name a result file, the list is also saved there. Nothing is stored before all
services have answered, and the first failure ends the read.
-/

import DbInventory.Instance.Flat
import DbInventory.Instance.ListingId
import DbInventory.Instance.Schema
import DbInventory.Listing.Services
import DbInventory.ResultFile
import DbInventory.Schema.ResourceData

namespace DbInventory

/-! ## Errors -/

/-- Why a data source could not be read. -/
inductive DataSourceError where
  | unknownDataSource (name : String)
  | service (error : ServiceError)
  | schema (error : SchemaError)
  | invalidArgument (key text : String)
  | output (text : String)
  | io (fault : FileFault)
  deriving DecidableEq

namespace DataSourceError

def message : DataSourceError → String
  | .unknownDataSource name => "unknown data source: " ++ name
  | .service error => error.message
  | .schema error => "schema error: " ++ error.message
  | .invalidArgument key text => "invalid " ++ key ++ ": " ++ text
  | .output text => "output error: " ++ text
  | .io fault => "I/O error: " ++ fault.message

def ofSave : SaveError → DataSourceError
  | .homeUnknown => .output "cannot resolve home directory"
  | .isDirectory path => .output (path ++ " is a directory")
  | .file fault => .io fault

end DataSourceError

/-! ## Arguments -/

/-- The project identifier that stands for any project. -/
def anyProject : Int64 := -1

/-- A string that is not empty. -/
def nonEmptyText? (v : Json) : Option String :=
  v.string?.filter (· ≠ "")

/-- The project to list; other negative identifiers than the one for any are refused. -/
def projectFilter (v : Option Json) : Except DataSourceError (Option Int64) :=
  match v.bind Json.int64? with
  | none => .ok none
  | some id =>
    if id = anyProject then .ok none
    else if id < 0 then
      .error (.invalidArgument "project_id" (toString id.toInt ++ " is not a valid project ID"))
    else .ok (some id)

/-- The filter that the arguments ask for. -/
def filterOf (d : ResourceData) : Except DataSourceError InstanceFilter := do
  let projectId ← projectFilter (d.getOk "project_id")
  .ok {
    instanceId := nonEmptyText? (d.get "id")
    projectId
    vpcId := (d.getOk "vpc_id").bind nonEmptyText?
    subnetId := (d.getOk "subnet_id").bind nonEmptyText? }

/-! ## Reading -/

/-- The identifier of an instance; one that has none counts as empty. -/
def DbInstance.idText (x : DbInstance) : String := x.instanceId.getD ""

/-- The data source: its services, the region it asks about and the home directory of result
files. -/
structure Listing (σ : Type) where
  services : Services σ
  region : String
  home : Option String

namespace Listing

/-- The name that the data source goes by. -/
def name : String := "tencentcloud_sqlserver_basic_instances"

/-- What a read changes: the data, the state of the services and the files. -/
structure World (σ : Type) where
  data : ResourceData
  services : σ
  files : FileTree

/-- The tags of an instance; without an identifier there are none to look up. -/
def tagsOf (source : Listing σ) (x : DbInstance) (s : σ) :
    Except ServiceError (Dict String) × σ :=
  if x.idText = "" then (.ok ∅, s)
  else
    source.services.tags
      { serviceType := "sqlserver", resourceType := "instance", region := source.region,
        resourceId := x.idText } s

/-- The instances with their tags, up to the first look-up that fails. -/
def collect (source : Listing σ) : List DbInstance → σ → Except ServiceError (List Json) × σ
  | [], s => (.ok [], s)
  | x :: xs, s =>
    match source.tagsOf x s with
    | (.error e, s) => (.error e, s)
    | (.ok tags, s) =>
      match source.collect xs s with
      | (.error e, s) => (.error e, s)
      | (.ok items, s) => (.ok (x.item tags :: items), s)

/-- Saves the list, if the arguments name a result file. -/
def save (source : Listing σ) (list : Json) (w : World σ) :
    Except DataSourceError Unit × World σ :=
  match w.data.getOk "result_output_file" with
  | some (.string path) =>
    match saveResult source.home w.files path list with
    | .error e => (.error (.ofSave e), w)
    | .ok (_, files) => (.ok (), { w with files })
  | _ => (.ok (), w)

/-- Stores the list and its identifier, and saves the list. -/
def store (source : Listing σ) (instances : List DbInstance) (items : List Json) (w : World σ) :
    Except DataSourceError Unit × World σ :=
  let data := w.data.setId (listingId (instances.map (·.idText)))
  match data.set "instance_list" (.array items) with
  | .error e => (.error (.schema e), { w with data })
  | .ok data => source.save (.array items) { w with data }

/-- Reads the listing. -/
def read (source : Listing σ) (w : World σ) : Except DataSourceError Unit × World σ :=
  match filterOf w.data with
  | .error e => (.error e, w)
  | .ok filter =>
    match source.services.list filter w.services with
    | (.error e, services) => (.error (.service e), { w with services })
    | (.ok instances, services) =>
      match source.collect instances services with
      | (.error e, services) => (.error (.service e), { w with services })
      | (.ok items, services) => source.store instances items { w with services }

/-- Reads the listing for a configuration, and gives the state after it. -/
def readConfig (source : Listing σ) (config : Dict Json) (services : σ) (files : FileTree) :
    Except DataSourceError (Dict Json) × σ × FileTree :=
  match ResourceData.fromConfig listingSchema config with
  | .error e => (.error (.schema e), services, files)
  | .ok data =>
    let (result, w) := source.read { data, services, files }
    (result.map fun _ => w.data.state, w.services, w.files)

end Listing

end DbInventory
