import TableShell.Remote.Request

/-!
# Replies of the service

A reply is a status and a JSON body. A field that is absent or null counts as empty. A body that is
not of the form it has to be is a failure of the service, and so is any status but 200; only a table
that does not exist is told apart, and only for the calls that name one.
-/

namespace TableShell

/-- What the service sends back. -/
structure Response where
  status : Nat
  body : Json

namespace Response

/-- A field of an object, unless it is null. -/
def field? (name : String) : Json → Option Json
  | .obj fields =>
    match Entries.find? name fields with
    | some .null => none
    | value => value
  | _ => none

/-- A field that may be absent but has to be well formed. -/
def optional {α : Type} (read : Json → Option α) (name : String) (body : Json) :
    Option (Option α) :=
  match field? name body with
  | none => some none
  | some v => some <$> read v

/-- The elements of a list that are well formed. -/
def list? {α : Type} (read : Json → Option α) : Json → Option (List α)
  | .arr items => items.mapM read
  | _ => none

/-- A list that may be absent but has to be well formed. -/
def listField {α : Type} (read : Json → Option α) (name : String) (body : Json) : Option (List α) :=
  (optional (list? read) name body).map (·.getD [])

/-- The number of a JSON integer. -/
def int? : Json → Option Int
  | .int n => some n
  | _ => none

/-- Two texts of an object. -/
def textPair? (first second : String) (v : Json) : Option (String × String) := do
  let a ← (field? first v).bind AttributeValue.string?
  let b ← (field? second v).bind AttributeValue.string?
  pure (a, b)

/-- The name of an index. -/
def indexName? (v : Json) : Option (Option String) := optional AttributeValue.string? "IndexName" v

/-- What a body tells about a table. -/
def tableMessage? (v : Json) : Option TableMessage := do
  return {
    table := ← optional AttributeValue.string? "TableName" v
    status := ← optional AttributeValue.string? "TableStatus" v
    arn := ← optional AttributeValue.string? "TableArn" v
    keySchema := ← listField (textPair? "AttributeName" "KeyType") "KeySchema" v
    attributes := ← listField (textPair? "AttributeName" "AttributeType") "AttributeDefinitions" v
    itemCount := ← optional int? "ItemCount" v
    localIndexes := ← listField indexName? "LocalSecondaryIndexes" v
    globalIndexes := ← listField indexName? "GlobalSecondaryIndexes" v }

/-- The description of a table in a field of the body. -/
def description? (name : String) (body : Json) : Option (Option TableDescription) :=
  (optional tableMessage? name body).map (·.map TableMessage.toDescription)

/-- The items of a body and the key at which its page ends. -/
def page? (body : Json) : Option (List Item × Option Item) := do
  let items ← listField Item.ofAttributeJson? "Items" body
  let lastKey ← optional Item.ofAttributeJson? "LastEvaluatedKey" body
  pure (items, lastKey)

/-- The error of a body that is not of the form it has to be. -/
def malformed (call : Call) : Error := .storage (Request.callName call) "response is malformed"

/-- The reply that a body holds, and the error if it holds none. -/
def reply (body : Json) : (call : Call) → Except Error call.Reply
  | .execute statement limit token =>
    match page? body, optional AttributeValue.string? "NextToken" body with
    | some (items, lastKey), some nextToken => .ok { items, nextToken, lastKey }
    | _, _ => .error (malformed (.execute statement limit token))
  | .describe table =>
    match description? "Table" body with
    | some (some d) => .ok d
    | some none => .error (.tableNotFound table)
    | none => .error (malformed (.describe table))
  | .createTable definition =>
    match description? "TableDescription" body with
    | some d => .ok (d.getD (.bare definition.table))
    | none => .error (malformed (.createTable definition))
  | .deleteTable table ignoreMissing =>
    match description? "TableDescription" body with
    | some d => .ok d
    | none => .error (malformed (.deleteTable table ignoreMissing))
  | .listTables after =>
    match listField AttributeValue.string? "TableNames" body,
      optional AttributeValue.string? "LastEvaluatedTableName" body with
    | some names, some next => .ok { names, next }
    | _, _ => .error (malformed (.listTables after))
  | .scanTable table =>
    match page? body with
    | some (items, lastKey) => .ok { items, lastKey }
    | none => .error (malformed (.scanTable table))
  | .deleteItem .. => .ok ()

/-! ## Refusals -/

/-- The service says that there is no such table. -/
def isNotFound (response : Response) : Bool :=
  match (field? "__type" response.body).bind AttributeValue.string? with
  | some type => "ResourceNotFoundException".toList.isSuffixOf type.toList
  | none => false

/-- The error of a call that was refused. -/
def refused (response : Response) (call : Call) : Error :=
  .storage (Request.callName call)
    (((field? "message" response.body).bind AttributeValue.string?).getD "service error")

/-- The error of a call that was refused, where the table it names may be missing. -/
def refusedFor (response : Response) (table : String) (call : Call) : Error :=
  if response.isNotFound then .tableNotFound table else refused response call

/-- The error of a call that the service did not carry out. -/
def failure (response : Response) : (call : Call) → Except Error call.Reply
  | .describe table => .error (refusedFor response table (.describe table))
  | .scanTable table => .error (refusedFor response table (.scanTable table))
  | .deleteItem table key => .error (refusedFor response table (.deleteItem table key))
  | .deleteTable table ignoreMissing =>
    if response.isNotFound then
      if ignoreMissing then .ok none else .error (.tableNotFound table)
    else .error (refused response (.deleteTable table ignoreMissing))
  | .execute statement limit token => .error (refused response (.execute statement limit token))
  | .createTable definition => .error (refused response (.createTable definition))
  | .listTables after => .error (refused response (.listTables after))

/-- What a response says to a call. -/
def toReply (response : Response) (call : Call) : Except Error call.Reply :=
  if response.status = 200 then reply response.body call else response.failure call

end Response

end TableShell
