import TableShell.Command.Reader

/-!
# Creating a table

The reader of `CREATE TABLE`: a name and, in parentheses, the attributes and the indexes of the
table in any order. Attributes and indexes are kept apart, each kind in the order in which it was
written.
-/

namespace TableShell.Command

/-- An entry of a `CREATE TABLE` command. -/
inductive Entry where
  | ofAttribute (a : Attribute)
  | ofIndex (i : SecondaryIndex)
  deriving DecidableEq, Repr

namespace Entry

/-- The attribute of an entry. -/
def attribute? : Entry → Option Attribute
  | ofAttribute a => some a
  | ofIndex _ => none

/-- The index of an entry. -/
def index? : Entry → Option SecondaryIndex
  | ofAttribute _ => none
  | ofIndex i => some i

end Entry

open Reader

/-- An attribute of an index, which always has a role. -/
def indexAttribute : Reader Attribute := do
  let attributeName ← name "index attribute name"
  let type ← attributeType
  let t ← token "index key type"
  match KeyRole.ofWord? t with
  | some role => pure ⟨attributeName, type, some role⟩
  | none => throw (.illegal "key type" t)

/-- An index, after its keyword. -/
def secondaryIndex : Reader SecondaryIndex := do
  let t ← token "index type"
  match IndexScope.ofWord? t with
  | none => throw (.illegal "index type" t)
  | some scope =>
    let indexName ← name "index name"
    mark "("
    return ⟨indexName, scope, ← commaList indexAttribute⟩

/-- The role of an attribute, if the next token names one. -/
def role? : Reader (Option KeyRole) := do
  match ← get with
  | [] => pure none
  | t :: ts =>
    match KeyRole.ofWord? t with
    | some role => set ts; pure (some role)
    | none => pure none

/-- An attribute or an index. -/
def entry : Reader Entry := do
  let first ← name "attribute name"
  if Text.sameLetters first "INDEX" then
    return .ofIndex (← secondaryIndex)
  else
    let type ← attributeType
    return .ofAttribute ⟨first, type, ← role?⟩

/-- The definition of a table with the given entries. -/
def definition (table : String) (entries : List Entry) : TableDefinition :=
  ⟨table, entries.filterMap Entry.attribute?, entries.filterMap Entry.index?⟩

/-- A `CREATE TABLE` command, which may end with a semicolon. -/
def createTable : Reader TableDefinition := do
  keyword "CREATE"
  keyword "TABLE"
  let table ← name "table name"
  mark "("
  let entries ← commaList entry
  finish
  pure (definition table entries)

/-- The table that a `CREATE TABLE` command defines. -/
def readCreateTable : String → Except Error TableDefinition := read .createTable createTable

end TableShell.Command
