import TableShell.Remote.AttributeValue
import TableShell.Schema

/-!
# Tables of the service

What the service is told to create a table (`TableRequest`), and what it tells about one
(`TableMessage`). Every attribute of a key is declared once in a request, and both kinds of index
hold all attributes of an item. An index that the service gives no name is not shown.
-/

namespace TableShell

/-- A request to create a table. -/
structure TableRequest where
  table : String
  /-- The attributes of all keys, and their types. -/
  attributes : List (String × String)
  keySchema : List KeyElement
  localIndexes : List (String × List KeyElement)
  globalIndexes : List (String × List KeyElement)
  deriving DecidableEq, Repr

namespace TableRequest

/-- The indexes of a scope, by name and key. -/
def indexesOf (d : TableDefinition) (scope : IndexScope) : List (String × List KeyElement) :=
  (d.indexes.filter (·.scope == scope)).map fun i => (i.name, i.keySchema)

/-- The request to create a table as it is defined. -/
def ofDefinition (d : TableDefinition) : TableRequest where
  table := d.table
  attributes := d.allAttributes.map fun a => (a.name, a.type.name)
  keySchema := d.keySchema
  localIndexes := indexesOf d .localIndex
  globalIndexes := indexesOf d .globalIndex

/-! ## As JSON -/

/-- A key as the service writes it. -/
def keyJson (schema : List KeyElement) : Json :=
  .arr (schema.map fun e => .obj [("AttributeName", .str e.name), ("KeyType", .str e.role.name)])

/-- An index as the service writes it. -/
def indexJson (index : String × List KeyElement) : Json :=
  .obj [("IndexName", .str index.1), ("KeySchema", keyJson index.2),
    ("Projection", .obj [("ProjectionType", .str "ALL")])]

/-- A field that is left out if there are no indexes. -/
def indexField (name : String) (indexes : List (String × List KeyElement)) : List (String × Json) :=
  if indexes.isEmpty then [] else [(name, .arr (indexes.map indexJson))]

/-- A request as the service reads it. -/
def toJson (r : TableRequest) : Json :=
  .obj <|
    [("AttributeDefinitions", .arr (r.attributes.map fun a =>
      .obj [("AttributeName", .str a.1), ("AttributeType", .str a.2)])),
      ("BillingMode", .str "PAY_PER_REQUEST")] ++
    indexField "GlobalSecondaryIndexes" r.globalIndexes ++
    [("KeySchema", keyJson r.keySchema)] ++
    indexField "LocalSecondaryIndexes" r.localIndexes ++
    [("TableName", .str r.table)]

end TableRequest

/-- What the service tells about a table. -/
structure TableMessage where
  table : Option String := none
  status : Option String := none
  arn : Option String := none
  /-- The attributes of the key and the names of their roles. -/
  keySchema : List (String × String) := []
  attributes : List (String × String) := []
  itemCount : Option Int := none
  localIndexes : List (Option String) := []
  globalIndexes : List (Option String) := []
  deriving DecidableEq, Repr

namespace TableMessage

/-- The role that the service names; a name that is not known counts as a hash key. -/
def roleOf (name : String) : KeyRole := if name = KeyRole.range.name then .range else .hash

/-- The description of the table. -/
def toDescription (t : TableMessage) : TableDescription where
  table := t.table.getD ""
  status := t.status
  arn := t.arn
  keySchema := t.keySchema.map fun e => ⟨e.1, roleOf e.2⟩
  attributes := t.attributes
  itemCount := t.itemCount
  localIndexes := t.localIndexes.filterMap id
  globalIndexes := t.globalIndexes.filterMap id

/-- The answer of a service that repeats what it was asked to create. -/
def ofRequest (r : TableRequest) : TableMessage where
  table := some r.table
  keySchema := r.keySchema.map fun e => (e.name, e.role.name)
  attributes := r.attributes
  localIndexes := r.localIndexes.map fun i => some i.1
  globalIndexes := r.globalIndexes.map fun i => some i.1

end TableMessage

end TableShell
