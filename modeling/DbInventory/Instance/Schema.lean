/-
# DbInventory.Instance.Schema -- the schema of the instance listing

The arguments that choose instances, and the list of instances that a read computes.
-/

import DbInventory.Schema.Attribute

namespace DbInventory

namespace DbInstance

/-- The attributes of a listed instance. -/
def elementSchema : Schema where
  entries := [
    ("availability_zone", .computed .string "Availability zone."),
    ("charge_type", .computed .string
      "Pay type of the SQL Server basic instance. For now, only `POSTPAID_BY_HOUR` is valid."),
    ("cpu", .computed .int "The CPU number of the SQL Server basic instance."),
    ("create_time", .computed .string "Create time of the SQL Server basic instance."),
    ("engine_version", .computed .string
      ("Version of the SQL Server basic database engine. Allowed values are " ++
        "`2008R2`(SQL Server 2008 Enerprise), `2012SP3`(SQL Server 2012 Enterprise), " ++
        "`2016SP1` (SQL Server 2016 Enterprise), `201602`(SQL Server 2016 Standard) and " ++
        "`2017`(SQL Server 2017 Enterprise). Default is `2008R2`.")),
    ("id", .computed .string "ID of the SQL Server basic instance."),
    ("memory", .computed .int
      ("Memory size (in GB). Allowed value must be larger than `memory` that data source " ++
        "`tencentcloud_sqlserver_specinfos` provides.")),
    ("name", .computed .string "Name of the SQL Server basic instance."),
    ("project_id", .computed .int "Project ID, default value is 0."),
    ("status", .computed .int
      ("Status of the SQL Server basic instance. 1 for applying, 2 for running, " ++
        "3 for running with limit, 4 for isolated, 5 for recycling, 6 for recycled, " ++
        "7 for running with task, 8 for off-line, 9 for expanding, 10 for migrating, " ++
        "11 for readonly, 12 for rebooting.")),
    ("storage", .computed .int
      ("Disk size (in GB). Allowed value must be a multiple of 10. The storage must be set " ++
        "with the limit of `storage_min` and `storage_max` which data source " ++
        "`tencentcloud_sqlserver_specinfos` provides.")),
    ("subnet_id", .computed .string "ID of subnet."),
    ("tags", .computed .map "Tags of the SQL Server basic instance."),
    ("used_storage", .computed .int "Used storage."),
    ("vip", .computed .string "IP for private access."),
    ("vpc_id", .computed .string "ID of VPC."),
    ("vport", .computed .int "Port for private access.")]
  sorted := by decide

end DbInstance

/-- The arguments of the listing, and the list that it computes. -/
def listingSchema : Schema where
  entries := [
    ("id", .argument .string "ID of the SQL Server basic instance to be query."),
    ("instance_list", .computedList
      ("A list of SQL Server basic instances. Each element contains the following " ++
        "attributes.") DbInstance.elementSchema),
    ("project_id", .argument .int "Project ID of the SQL Server basic instance to be query."),
    ("result_output_file", .argument .string "Used to save results."),
    ("subnet_id", .argument .string "Subnet ID of the SQL Server basic instance to be query."),
    ("vpc_id", .argument .string "Vpc ID of the SQL Server basic instance to be query.")]
  sorted := by decide

end DbInventory
