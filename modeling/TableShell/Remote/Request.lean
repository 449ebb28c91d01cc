import TableShell.Remote.Table
import TableShell.Storage

/-!
# Requests to the service

A call is sent as the name of an operation and a JSON body. The name of a table may not be empty:
such a call fails before anything is sent.
-/

namespace TableShell

/-- What is sent to the service. -/
structure Request where
  operation : String
  body : Json

namespace Request

/-- How diagnostics call the operation of a call. -/
def callName : Call → String
  | .execute .. => "execute statement"
  | .describe _ => "describe table"
  | .createTable _ => "create table"
  | .deleteTable .. => "drop table"
  | .listTables _ => "show tables"
  | .scanTable _ => "scan table"
  | .deleteItem .. => "delete item"

/-- The table that a call names. -/
def table? : Call → Option String
  | .execute .. | .listTables _ => none
  | .describe table | .deleteTable table _ | .scanTable table | .deleteItem table _ => some table
  | .createTable d => some d.table

/-- The request of a call. -/
def ofCall : Call → Request
  | .execute statement limit token =>
    ⟨"ExecuteStatement",
      .obj (Json.optionalField "Limit" .int limit ++ Json.optionalField "NextToken" .str token ++
        [("Statement", .str statement)])⟩
  | .describe table => ⟨"DescribeTable", .obj [("TableName", .str table)]⟩
  | .createTable d => ⟨"CreateTable", (TableRequest.ofDefinition d).toJson⟩
  | .deleteTable table _ => ⟨"DeleteTable", .obj [("TableName", .str table)]⟩
  | .listTables after =>
    ⟨"ListTables", .obj (Json.optionalField "ExclusiveStartTableName" .str after)⟩
  | .scanTable table => ⟨"Scan", .obj [("Limit", .int scanPageSize), ("TableName", .str table)]⟩
  | .deleteItem table key =>
    ⟨"DeleteItem", .obj [("Key", Item.toAttributeJson key), ("TableName", .str table)]⟩

/-- The request of a call, unless it names a table without a name. -/
def ofCall? (call : Call) : Except Error Request :=
  if table? call = some "" then .error (.storage (callName call) "table name is empty")
  else .ok (ofCall call)

end Request

end TableShell
