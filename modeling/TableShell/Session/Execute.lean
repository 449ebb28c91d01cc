import TableShell.Command.Create
import TableShell.Command.Table
import TableShell.Query
import TableShell.Schema.Json
import TableShell.Session
import TableShell.Text.Affix
import TableShell.Value.Json

/-!
# Carrying out a command

A complete command is carried out by the first characters it was typed with, before any variable is
put in. Everything else about it is read after that. A command that is carried out is remembered in
the history as it was typed; one that fails is not.

The token of the last query is forgotten when the next query starts, and `run;` takes it along as it
repeats the latest command of the history.
-/

namespace TableShell

/-- The kinds of complete commands. -/
inductive CommandKind where
  | assignment
  | describe
  | createTable
  | dropTable
  | showTables
  | truncateTable
  /-- The latest command again. -/
  | again
  | query
  deriving DecidableEq, Repr

namespace CommandKind

/-- The command starts with a word in small letters or in capitals. -/
def startsLike (command word : String) : Bool :=
  Text.startsWith command word ||
    Text.startsWith command (String.ofList (word.toList.map Char.toUpper))

/-- The kind of a command. -/
def ofCommand (command : String) : CommandKind :=
  if Text.startsWith command "@" then assignment
  else if startsLike command "desc" then describe
  else if startsLike command "create" then createTable
  else if startsLike command "drop" then dropTable
  else if startsLike command "show" then showTables
  else if startsLike command "truncate" then truncateTable
  else if startsLike command "run" then again
  else query

end CommandKind

namespace Session

open Act

variable {W : Type}

/-- Remembers a command that was carried out. -/
def remember (command : String) : Act W Unit :=
  change fun s => { s with history := s.history.push command }

/-- Shows the description of a table. -/
def reportDescription (d : TableDescription) : Act W Unit := report (.document d.toJson)

/-- Shows a page of a result and keeps its token. -/
def reportPage (page : ResultPage) : Act W Unit := do
  report (.items page.items)
  match page.lastKey with
  | some key => report (.document (Item.toJson key))
  | none => pure ()
  match page.nextToken with
  | some token =>
    report (.message ("NextToken: " ++ token))
    change ({ · with nextToken := some token })
  | none => pure ()

/-- Carries out a query, from the place that a token stands for. -/
def query (around : Surroundings W) (command : String) (token : Option String) : Act W Unit := do
  change ({ · with nextToken := none })
  if Text.trim command = "" then fail (.unsupported "")
  let source ← substitute around command
  let q ← ofExcept (Query.ofSource source)
  let page ← call around (.execute q.statement q.effectiveLimit token)
  reportPage page
  remember command

/-- Carries out the latest command again, from the token of the last query. -/
def again (around : Surroundings W) : Act W Unit := do
  let s ← session
  match s.history.latest? with
  | none => fail .noHistory
  | some latest =>
    change ({ · with nextToken := none })
    query around latest s.nextToken

/-- Sets a variable. -/
def assign (around : Surroundings W) (command : String) : Act W Unit := do
  let a ← ofExcept (Command.readAssignment (← substitute around command))
  change fun s => { s with bindings := s.bindings.insert a.name a.value }
  remember command

/-- Describes a table. -/
def describe (around : Surroundings W) (command : String) : Act W Unit := do
  let table ← ofExcept (Command.readDescribe (← substitute around command))
  reportDescription (← call around (.describe table))
  remember command

/-- Creates a table. -/
def createTable (around : Surroundings W) (command : String) : Act W Unit := do
  let definition ← ofExcept (Command.readCreateTable (← substitute around command))
  reportDescription (← call around (.createTable definition))
  remember command

/-- Deletes a table. -/
def dropTable (around : Surroundings W) (command : String) : Act W Unit := do
  let drop ← ofExcept (Command.readDropTable (← substitute around command))
  match ← call around (.deleteTable drop.table drop.ifExists) with
  | some description => reportDescription description
  | none => pure ()
  remember command

/-! ## Page by page -/

/-- Shows the names of the tables after a given one, of at most so many pages. -/
def reportNames (around : Surroundings W) : Nat → Option String → Act W Unit
  | 0, _ => throw .unfinished
  | pages + 1, after => do
    let page ← call around (.listTables after)
    page.names.forM fun name => report (.message name)
    match page.next with
    | some next => reportNames around pages (some next)
    | none => pure ()

/-- A bound on the pages that the service can be asked for. -/
def pageLimit (around : Surroundings W) : Act W Nat := do
  return around.service.pageBound (← get).world + 1

/-- Lists the tables. -/
def showTables (around : Surroundings W) (command : String) : Act W Unit := do
  ofExcept (Command.readShowTables (← substitute around command))
  reportNames around (← pageLimit around) none
  remember command

/-- Deletes items of a table. -/
def deleteItems (around : Surroundings W) (table : String) (schema : List KeyElement) :
    List Item → Act W Unit
  | [] => pure ()
  | item :: items => do
    let key ← ofExcept (item.extractKey table schema)
    call around (.deleteItem table key)
    deleteItems around table schema items

/-- Deletes the items that scans find, of at most so many pages, and gives the number of all items
deleted, `deleted` of them before. -/
def deletePages (around : Surroundings W) (table : String) (schema : List KeyElement) :
    Nat → Nat → Act W Nat
  | 0, _ => throw .unfinished
  | pages + 1, deleted => do
    let page ← call around (.scanTable table)
    if page.items.isEmpty then pure deleted
    else
      deleteItems around table schema page.items
      let deleted := deleted + page.items.length
      report (.message ("  ... " ++ toString deleted ++ " items deleted from [" ++ table ++ "]"))
      if page.lastKey.isNone then pure deleted
      else deletePages around table schema pages deleted

/-- Deletes all items of a table. -/
def truncateTable (around : Surroundings W) (command : String) : Act W Unit := do
  let table ← ofExcept (Command.readTruncateTable (← substitute around command))
  let description ← call around (.describe table)
  let deleted ← deletePages around table description.keySchema (← pageLimit around) 0
  report (.message ("deleted " ++ toString deleted ++ " items"))
  remember command

/-! ## Any command -/

/-- Carries out a complete command. -/
def execute (around : Surroundings W) (command : String) : Act W Unit :=
  match CommandKind.ofCommand command with
  | .assignment => assign around command
  | .describe => describe around command
  | .createTable => createTable around command
  | .dropTable => dropTable around command
  | .showTables => showTables around command
  | .truncateTable => truncateTable around command
  | .again => again around
  | .query => query around command none

end Session

end TableShell
