import TableShell.Json
import TableShell.Schema

/-!
# Table descriptions as JSON

A description is shown as an object. What the service did not say is left out, and so are empty
lists of indexes.
-/

namespace TableShell

/-- An attribute of a key as JSON. -/
def KeyElement.toJson (e : KeyElement) : Json :=
  .obj [("attribute_name", .str e.name), ("role", .str e.role.name)]

namespace TableDescription

/-- A field that is left out if its list is empty. -/
def namesField (name : String) (names : List String) : List (String × Json) :=
  if names.isEmpty then [] else [(name, .arr (names.map .str))]

/-- A description as JSON. -/
def toJson (d : TableDescription) : Json :=
  .obj <|
    [("attribute_definitions", .arr (d.attributes.map fun a => .arr [.str a.1, .str a.2]))] ++
    namesField "global_secondary_indexes" d.globalIndexes ++
    Json.optionalField "item_count" .int d.itemCount ++
    [("key_schema", .arr (d.keySchema.map KeyElement.toJson))] ++
    namesField "local_secondary_indexes" d.localIndexes ++
    Json.optionalField "table_arn" .str d.arn ++
    [("table_name", .str d.table)] ++
    Json.optionalField "table_status" .str d.status

end TableDescription

end TableShell
