import TableShell.Connection
import TableShell.Value.Key

/-!
# The storage service

What the shell asks of the service that keeps its tables (`Call`), and what it is told
(`Call.Reply`). A `Service` answers calls over a world `W` that it may change: the tables of a store
in memory, or the answers that a remote service still has to give. It is asked through a client, and
a client is known by the connection it was built for.
-/

namespace TableShell

/-- The number of items in a page of a scan. -/
def scanPageSize : Nat := 25

/-- A page of the result of a statement. -/
structure ResultPage where
  items : List Item := []
  nextToken : Option String := none
  lastKey : Option Item := none
  deriving DecidableEq

/-- A page of the names of the tables. -/
structure NamePage where
  names : List String := []
  next : Option String := none
  deriving DecidableEq, Repr

/-- A page of the items of a table. -/
structure ScanPage where
  items : List Item := []
  lastKey : Option Item := none
  deriving DecidableEq

/-- A request to the service. -/
inductive Call where
  /-- Carries out a statement, from the place that a token stands for. -/
  | execute (statement : String) (limit : Option Int) (token : Option String)
  | describe (table : String)
  | createTable (definition : TableDefinition)
  | deleteTable (table : String) (ignoreMissing : Bool)
  /-- Lists the tables after a name. -/
  | listTables (after : Option String)
  /-- Gives the first items of a table. -/
  | scanTable (table : String)
  | deleteItem (table : String) (key : Item)
  deriving DecidableEq

namespace Call

/-- What the service answers to a call. -/
@[reducible] def Reply : Call → Type
  | execute .. => ResultPage
  | describe _ | createTable _ => TableDescription
  | deleteTable .. => Option TableDescription
  | listTables _ => NamePage
  | scanTable _ => ScanPage
  | deleteItem .. => Unit

end Call

/-- A service over a world. -/
structure Service (W : Type) where
  /-- Builds a client for a connection. -/
  connect : Connection → W → Except Error Unit × W
  /-- Answers a call made by the client of a connection. -/
  answer : Connection → (call : Call) → W → Except Error call.Reply × W
  /-- A bound on the pages, after the first one, that a listing of the tables or a scan that deletes
  what it finds has to ask for. -/
  pageBound : W → Nat

end TableShell
