import TableShell.Storage

/-!
# A store in memory

A service that keeps its tables in memory. Statements are not carried out: their results are queued
beforehand, and an empty queue gives empty results. The other calls work on the tables.

Any service can be made to fail (`Service.failing`): as long as a fault is set for a kind of call,
such a call fails and has no effect.
-/

namespace TableShell

/-- A table in memory. -/
structure MemoryTable where
  description : TableDescription
  items : List Item := []
  deriving DecidableEq

/-- The tables in memory and the results of the next statements. -/
structure MemoryStore where
  tables : Dictionary MemoryTable := .empty
  results : List (Except Error ResultPage) := []
  /-- The number of names in a page of a listing. -/
  pageSize : Nat := 2
  pageSize_pos : 0 < pageSize := by decide

namespace MemoryStore

/-- The result of a statement. -/
def execute (store : MemoryStore) : Except Error ResultPage × MemoryStore :=
  match store.results with
  | [] => (.ok {}, store)
  | result :: results => (result, { store with results })

/-- The table with a name. -/
def table (store : MemoryStore) (name : String) : Except Error MemoryTable :=
  match store.tables.get? name with
  | some t => .ok t
  | none => .error (.tableNotFound name)

/-- The description of a new table. -/
def newDescription (d : TableDefinition) : TableDescription :=
  { TableDescription.ofDefinition d with status := some "ACTIVE", itemCount := some 0 }

/-- Creates a table, unless there is one of its name. -/
def createTable (store : MemoryStore) (d : TableDefinition) :
    Except Error TableDescription × MemoryStore :=
  match store.tables.get? d.table with
  | some _ => (.error (.storage "create table" ("table [" ++ d.table ++ "] already exists")), store)
  | none =>
    let description := newDescription d
    (.ok description, { store with tables := store.tables.insert d.table { description } })

/-- Deletes a table. -/
def deleteTable (store : MemoryStore) (name : String) (ignoreMissing : Bool) :
    Except Error (Option TableDescription) × MemoryStore :=
  match store.tables.get? name with
  | some t =>
    (.ok (some { t.description with status := some "DELETING" }),
      { store with tables := store.tables.erase name })
  | none => (if ignoreMissing then .ok none else .error (.tableNotFound name), store)

/-- The names after a given one. -/
def namesAfter (store : MemoryStore) : Option String → List String
  | none => store.tables.names
  | some start => store.tables.names.filter (start < ·)

/-- A page of the names after a given one. -/
def listTables (store : MemoryStore) (after : Option String) : NamePage :=
  let remaining := store.namesAfter after
  let names := remaining.take store.pageSize
  { names, next := if names.length < remaining.length then names.getLast? else none }

/-- The first items of a table, and the key of the last of them if there are more. -/
def scanTable (store : MemoryStore) (name : String) : Except Error ScanPage := do
  let t ← store.table name
  let items := t.items.take scanPageSize
  if t.items.length ≤ scanPageSize then pure { items }
  else match items.getLast? with
    | none => pure { items }
    | some last =>
      let key ← last.extractKey name t.description.keySchema
      pure { items, lastKey := some key }

/-- Deletes the items of a table that have the values of the key. -/
def deleteItem (store : MemoryStore) (name : String) (key : Item) :
    Except Error Unit × MemoryStore :=
  match store.tables.get? name with
  | none => (.error (.tableNotFound name), store)
  | some t =>
    let t := { t with items := t.items.filter fun item => !item.hasKey key }
    (.ok (), { store with tables := store.tables.insert name t })

/-- Puts an item at the end of a table, if there is one of that name. -/
def putItem (store : MemoryStore) (name : String) (item : Item) : MemoryStore :=
  match store.tables.get? name with
  | none => store
  | some t =>
    { store with tables := store.tables.insert name { t with items := t.items ++ [item] } }

/-- The items of a table; none if there is no such table. -/
def items (store : MemoryStore) (name : String) : List Item :=
  ((store.tables.get? name).map (·.items)).getD []

/-- Answers a call. -/
def answer (store : MemoryStore) : (call : Call) → Except Error call.Reply × MemoryStore
  | .execute .. => store.execute
  | .describe name => ((·.description) <$> store.table name, store)
  | .createTable d => store.createTable d
  | .deleteTable name ignoreMissing => store.deleteTable name ignoreMissing
  | .listTables after => (.ok (store.listTables after), store)
  | .scanTable name => (store.scanTable name, store)
  | .deleteItem name key => store.deleteItem name key

/-- The number of tables and items. A listing gives at least one name with each page, and every page
of a scan has an item that is deleted before the next one is asked for. -/
def size (store : MemoryStore) : Nat :=
  store.tables.entries.foldr (fun e n => e.2.items.length + n) store.tables.size

/-- The store as a service, to which every connection leads. -/
def service : Service MemoryStore where
  connect _ store := (.ok (), store)
  answer _ call store := store.answer call
  pageBound := size

end MemoryStore

/-! ## Faults -/

/-- The name under which a fault is set for a kind of call. -/
def Call.name : Call → String
  | execute .. => "execute"
  | describe _ => "describe"
  | createTable _ => "create_table"
  | deleteTable .. => "delete_table"
  | listTables _ => "list_tables"
  | scanTable _ => "scan_table"
  | deleteItem .. => "delete_item"

/-- The faults that are set: names of calls and the messages with which they fail. -/
abbrev Faults := Dictionary String

/-- The error of a call for which a fault is set. -/
def Faults.error? (faults : Faults) (name : String) : Option Error :=
  (faults.get? name).map (Error.storage name)

/-- The service over a world with faults. -/
def Service.failing {W : Type} (service : Service W) : Service (W × Faults) where
  connect connection world :=
    match world.2.error? "connect" with
    | some e => (.error e, world)
    | none => let (result, w) := service.connect connection world.1; (result, w, world.2)
  answer client call world :=
    match world.2.error? call.name with
    | some e => (.error e, world)
    | none => let (result, w) := service.answer client call world.1; (result, w, world.2)
  pageBound world := service.pageBound world.1

end TableShell
