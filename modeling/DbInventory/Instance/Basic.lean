/-
# DbInventory.Instance.Basic -- database instances

A database instance as the listing reports it. The interface omits fields freely, so every
field may be missing. `Column` names the fields: an instance is the same as a value for every
column (`ofColumns_get`, `get_ofColumns`), and its JSON form is read and written column by
column, so that reading, writing and flattening share one table.
-/

import DbInventory.Json.Record

namespace DbInventory

/-- A database instance as it is listed. -/
@[ext]
structure DbInstance where
  instanceId : Option String
  name : Option String
  projectId : Option Int64
  regionId : Option Int64
  zoneId : Option Int64
  vpcId : Option Int64
  subnetId : Option Int64
  status : Option Int64
  vip : Option String
  vport : Option Int64
  createTime : Option String
  memory : Option Int64
  storage : Option Int64
  usedStorage : Option Int64
  cpu : Option Int64
  region : Option String
  zone : Option String
  payMode : Option Int64
  version : Option String
  versionName : Option String
  edition : Option String
  uniqVpcId : Option String
  uniqSubnetId : Option String
  deriving DecidableEq, Inhabited

namespace DbInstance

/-- The fields of an instance. -/
inductive Column where
  | instanceId | name | projectId | regionId | zoneId | vpcId | subnetId | status | vip | vport
  | createTime | memory | storage | usedStorage | cpu | region | zone | payMode | version
  | versionName | edition | uniqVpcId | uniqSubnetId
  deriving DecidableEq

open Json (Scalar)

namespace Column

/-- All columns, in the order of the interface. -/
def all : List Column :=
  [.instanceId, .name, .projectId, .regionId, .zoneId, .vpcId, .subnetId, .status, .vip, .vport,
    .createTime, .memory, .storage, .usedStorage, .cpu, .region, .zone, .payMode, .version,
    .versionName, .edition, .uniqVpcId, .uniqSubnetId]

/-- The name of a column in the interface. -/
def wireName : Column → String
  | .instanceId => "InstanceId"
  | .name => "Name"
  | .projectId => "ProjectId"
  | .regionId => "RegionId"
  | .zoneId => "ZoneId"
  | .vpcId => "VpcId"
  | .subnetId => "SubnetId"
  | .status => "Status"
  | .vip => "Vip"
  | .vport => "Vport"
  | .createTime => "CreateTime"
  | .memory => "Memory"
  | .storage => "Storage"
  | .usedStorage => "UsedStorage"
  | .cpu => "Cpu"
  | .region => "Region"
  | .zone => "Zone"
  | .payMode => "PayMode"
  | .version => "Version"
  | .versionName => "VersionName"
  | .edition => "Type"
  | .uniqVpcId => "UniqVpcId"
  | .uniqSubnetId => "UniqSubnetId"

def kind : Column → Scalar
  | .instanceId | .name | .vip | .createTime | .region | .zone | .version | .versionName
  | .edition | .uniqVpcId | .uniqSubnetId => .text
  | .projectId | .regionId | .zoneId | .vpcId | .subnetId | .status | .vport | .memory
  | .storage | .usedStorage | .cpu | .payMode => .integer

theorem mem_all (c : Column) : c ∈ all := by cases c <;> decide

theorem nodup_all : all.Nodup := by decide

theorem find?_wireName (c : Column) :
    all.find? (fun d => d.wireName = c.wireName) = some c := by
  have h : ∀ c ∈ all, all.find? (fun d => d.wireName = c.wireName) = some c := by decide
  exact h c (mem_all c)

end Column

/-- The value of a column. -/
def get (x : DbInstance) : (c : Column) → Option c.kind.Carrier
  | .instanceId => x.instanceId
  | .name => x.name
  | .projectId => x.projectId
  | .regionId => x.regionId
  | .zoneId => x.zoneId
  | .vpcId => x.vpcId
  | .subnetId => x.subnetId
  | .status => x.status
  | .vip => x.vip
  | .vport => x.vport
  | .createTime => x.createTime
  | .memory => x.memory
  | .storage => x.storage
  | .usedStorage => x.usedStorage
  | .cpu => x.cpu
  | .region => x.region
  | .zone => x.zone
  | .payMode => x.payMode
  | .version => x.version
  | .versionName => x.versionName
  | .edition => x.edition
  | .uniqVpcId => x.uniqVpcId
  | .uniqSubnetId => x.uniqSubnetId

/-- The instance with the given values in its columns. -/
def ofColumns (f : (c : Column) → Option c.kind.Carrier) : DbInstance where
  instanceId := f .instanceId
  name := f .name
  projectId := f .projectId
  regionId := f .regionId
  zoneId := f .zoneId
  vpcId := f .vpcId
  subnetId := f .subnetId
  status := f .status
  vip := f .vip
  vport := f .vport
  createTime := f .createTime
  memory := f .memory
  storage := f .storage
  usedStorage := f .usedStorage
  cpu := f .cpu
  region := f .region
  zone := f .zone
  payMode := f .payMode
  version := f .version
  versionName := f .versionName
  edition := f .edition
  uniqVpcId := f .uniqVpcId
  uniqSubnetId := f .uniqSubnetId

@[simp]
theorem ofColumns_get (x : DbInstance) : ofColumns x.get = x := rfl

@[simp]
theorem get_ofColumns (f : (c : Column) → Option c.kind.Carrier) : (ofColumns f).get = f := by
  funext c; cases c <;> rfl

/-- An instance without any field. -/
def blank : DbInstance := ofColumns fun _ => none

/-! ## JSON -/

/-- An instance as a record: no field is required. -/
def fields : Json.Fields Column where
  title := "struct DbInstance"
  all := Column.all
  name := Column.wireName
  kind := Column.kind
  required := fun _ => false

/-- Reads an instance off a text. -/
def reader : Json.Reader DbInstance := fun s => do
  let (f, s) ← fields.read s
  .ok (ofColumns f, s)

/-- The instance of a text. -/
def ofText (source : String) : Except Json.Fault DbInstance := Json.readAll reader source

/-- The instance of a tree. -/
def ofTree? (v : Json) : Option DbInstance := (fields.ofTree? 0 v).map ofColumns

/-- An instance with all its fields, in the order of the interface. -/
def toJson (x : DbInstance) : Json := .object (fields.members x.get)

end DbInstance

end DbInventory
