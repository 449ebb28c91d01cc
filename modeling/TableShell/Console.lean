import TableShell.Console.Grid
import TableShell.Session
import TableShell.Value.Json

/-!
# The console

What a session reports is printed: results on the standard output, diagnostics on the standard error
output. Items are printed as one JSON text on each line, or as a table.
-/

namespace TableShell

/-- How items are printed. -/
inductive OutputFormat where
  | json
  | table
  deriving DecidableEq, Repr

/-- The text of a list of items. One that is written as JSON is written by `print`. -/
def OutputFormat.renderBy (print : Json → List Char) : OutputFormat → List Item → String
  | json, items => String.ofList (List.intercalate ['\n'] (items.map fun item => print item.toJson))
  | table, items => Grid.render items

/-- The text of a list of items. -/
def OutputFormat.render : OutputFormat → List Item → String := renderBy Json.compact

/-- What has been printed. -/
structure Printed where
  out : String := ""
  err : String := ""
  deriving DecidableEq, Repr

/-- The text of both, one after the other. -/
def Printed.append (a b : Printed) : Printed := ⟨a.out ++ b.out, a.err ++ b.err⟩

/-- How a session is printed. -/
structure Console where
  format : OutputFormat := .json
  /-- The terminal shows colours. -/
  color : Bool := false
  deriving DecidableEq, Repr

namespace Console

/-- The control characters that change how the terminal shows what follows. -/
def style (code : String) : String := "\x1b[" ++ code ++ "m"

/-- A text in the given style, if the terminal shows colours. -/
def styled (console : Console) (code text : String) : String :=
  if console.color then style code ++ text ++ style "0" else text

/-- The control characters that clear the terminal. -/
def clearScreen : String := "\x1b[2J\x1b[1;1H"

/-- What is printed for a report. Nothing is printed for no items in JSON. -/
def print (console : Console) : Report → Printed
  | .message text => { out := text ++ "\n" }
  | .warning text => { err := console.styled "1;33" "warning:" ++ " " ++ text ++ "\n" }
  | .error text => { err := console.styled "1;31" "error:" ++ " " ++ text ++ "\n" }
  | .items items =>
    if items.isEmpty && console.format == .json then {}
    else { out := console.format.render items ++ "\n" }
  | .document value => { out := value.prettyText ++ "\n" }
  | .clear => { out := clearScreen }

/-- What is printed for an event. -/
def printEvent (console : Console) : Event → Printed
  | .report r => console.print r
  | _ => {}

/-- What is printed for a trace. -/
def printAll (console : Console) (trace : List Event) : Printed :=
  trace.foldl (fun printed event => printed.append (console.printEvent event)) {}

end Console

end TableShell
