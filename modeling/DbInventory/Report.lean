/-
# DbInventory.Report -- what a state is shown as

A state is shown as indented JSON text, or as a table with one row for each listed instance.
The table is made of any value: what is missing shows as a dash, and what is not a text shows
as its JSON text.
-/

import DbInventory.Json.Printer
import DbInventory.Table

namespace DbInventory

/-- How a state is shown. -/
inductive OutputFormat where
  | json
  | table
  deriving DecidableEq

namespace Report

/-- The text of a member of a listed instance. -/
def shownText (item : Json) (key : String) : String :=
  match item.member key with
  | .null => "-"
  | .string s => s
  | v => v.compactText

/-- Tags as names and values, with commas between them. -/
def tagsText (item : Json) : String :=
  let members := (item.member "tags").object?.getD []
  String.intercalate "," (members.map fun m => m.1 ++ "=" ++ (m.2.string?.getD ""))

/-- The address, with its port if both are known. -/
def addressText (item : Json) : String :=
  match item.member "vip", item.member "vport" with
  | .string vip, .number port => vip ++ ":" ++ (Json.number port).compactText
  | _, _ => shownText item "vip"

/-- Processors, memory and disk. -/
def sizeText (item : Json) : String :=
  shownText item "cpu" ++ "C/" ++ shownText item "memory" ++ "G/" ++ shownText item "storage" ++
    "G"

/-- The columns of the table: their headings, and their texts for an instance. -/
def columns : List (String × (Json → String)) := [
  ("ID", (shownText · "id")),
  ("NAME", (shownText · "name")),
  ("ZONE", (shownText · "availability_zone")),
  ("STATUS", (shownText · "status")),
  ("CHARGE TYPE", (shownText · "charge_type")),
  ("CPU/MEM/DISK", sizeText),
  ("VIP", addressText),
  ("TAGS", tagsText)]

def headings : List Table.Cell := columns.map fun c => c.1.toList

/-- The cells of an instance. -/
def row (item : Json) : List Table.Cell := columns.map fun c => (c.2 item).toList

/-- The listed instances of a state. -/
def listed (state : Json) : List Json := ((state.member "instance_list").array?).getD []

def tableText (state : Json) : String :=
  String.ofList (Table.tableText headings ((listed state).map row))

/-- The text of a state. -/
def text (state : Json) : OutputFormat → String
  | .json => state.prettyText
  | .table => tableText state

end Report

end DbInventory
