import TableShell.Command.Reader

/-!
# Commands on a table, and assignments

The readers of `DESC`, `SHOW TABLES`, `DROP TABLE`, `TRUNCATE TABLE` and of the assignment of a
variable. Each of them ends with a semicolon; they do not look at what follows it.
-/

namespace TableShell.Command

/-- A `DROP TABLE` command. -/
structure DropTable where
  table : String
  /-- A table that does not exist is no error. -/
  ifExists : Bool
  deriving DecidableEq, Repr

/-- The assignment of a variable. -/
structure Assignment where
  name : String
  value : String
  deriving DecidableEq, Repr

open Reader

/-- The table of a `DESC` command. -/
def describe : Reader String := do
  keyword "DESC"
  let table ← name "table name"
  mark ";"
  pure table

/-- A `SHOW TABLES` command. -/
def showTables : Reader Unit := do
  keyword "SHOW"
  keyword "TABLES"
  mark ";"

/-- A `DROP TABLE` command. A table whose name reads `IF` cannot be dropped without `IF EXISTS`. -/
def dropTable : Reader DropTable := do
  keyword "DROP"
  keyword "TABLE"
  let first ← name "table name"
  if Text.sameLetters first "IF" then
    keyword "EXISTS"
    let table ← name "table name"
    mark ";"
    pure ⟨table, true⟩
  else
    mark ";"
    pure ⟨first, false⟩

/-- The table of a `TRUNCATE TABLE` command. -/
def truncateTable : Reader String := do
  keyword "TRUNCATE"
  keyword "TABLE"
  let table ← name "table name"
  mark ";"
  pure table

/-- The assignment of a variable. Its value is a single token, which may be any. -/
def assignment : Reader Assignment := do
  mark "@"
  let variableName ← name "variable name"
  mark "="
  let value ← token "variable value"
  mark ";"
  pure ⟨variableName, value⟩

/-- The table that a `DESC` command names. -/
def readDescribe : String → Except Error String := read .describe describe

/-- Whether a text is a `SHOW TABLES` command. -/
def readShowTables : String → Except Error Unit := read .showTables showTables

/-- The `DROP TABLE` command of a text. -/
def readDropTable : String → Except Error DropTable := read .dropTable dropTable

/-- The table that a `TRUNCATE TABLE` command names. -/
def readTruncateTable : String → Except Error String := read .truncateTable truncateTable

/-- The assignment of a text. -/
def readAssignment : String → Except Error Assignment := read .assignment assignment

end TableShell.Command
