/-
# DbInventory.Instance.Flat -- instances as attributes

The list of instances in a state has one object for each instance. `flatTable` says which
column an attribute shows; the kind of charge is derived from the pay mode. Tags come from
another service and are put in beside the columns.
-/

import DbInventory.Instance.Basic
import DbInventory.Schema.Attribute

namespace DbInventory

/-! ## Charges -/

/-- The pay mode of instances that are paid in advance. -/
def prepaidMode : Int64 := 1

/-- How an instance is charged; anything but the prepaid mode is charged by the hour. -/
def chargeType (payMode : Option Int64) : String :=
  if payMode = some prepaidMode then "PREPAID" else "POSTPAID_BY_HOUR"

namespace DbInstance

/-! ## Attributes -/

/-- What an attribute shows. -/
inductive Source where
  | column (c : Column)
  | chargeType
  deriving DecidableEq

/-- The attributes of an instance in the order of their names. -/
def flatTable : List (String × Source) := [
  ("availability_zone", .column .zone),
  ("charge_type", .chargeType),
  ("cpu", .column .cpu),
  ("create_time", .column .createTime),
  ("engine_version", .column .version),
  ("id", .column .instanceId),
  ("memory", .column .memory),
  ("name", .column .name),
  ("project_id", .column .projectId),
  ("status", .column .status),
  ("storage", .column .storage),
  ("subnet_id", .column .uniqSubnetId),
  ("used_storage", .column .usedStorage),
  ("vip", .column .vip),
  ("vpc_id", .column .uniqVpcId),
  ("vport", .column .vport)]

theorem sorted_flatTable : Entries.Sorted flatTable := by decide

/-- What an attribute shows of an instance; a missing column is null. -/
def shown (x : DbInstance) : Source → Json
  | .column c => Json.optional c.kind.toJson (x.get c)
  | .chargeType => .string (DbInventory.chargeType x.payMode)

/-- The attributes of an instance, without its tags. -/
def flatten (x : DbInstance) : Dict Json :=
  (Dict.mk flatTable sorted_flatTable).map x.shown

/-- Tags as a JSON object. -/
def tagsJson (tags : Dict String) : Json := .ofDict (tags.map .string)

/-- The attributes of an instance with its tags. -/
def item (x : DbInstance) (tags : Dict String) : Json :=
  .ofDict (x.flatten.insert "tags" (tagsJson tags))

end DbInstance

end DbInventory
