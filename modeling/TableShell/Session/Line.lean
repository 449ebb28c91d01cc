import TableShell.Session.Execute
import TableShell.Verb

/-!
# Carrying out a line

A line is read without the blanks around it. An empty line and a line that starts with a number sign
or a hyphen are comments. A line that starts with a verb is carried out at once. Any other line is a
part of a command, and the command is complete when a line ends with a semicolon.

A line that fails leaves no command begun behind it.
-/

namespace TableShell

/-- Whether more lines are read after a line. -/
inductive Flow where
  | next
  | exit
  deriving DecidableEq, Repr

namespace Session

open Act

variable {W : Type}

/-- Forgets the lines of the command that has been begun. -/
def dropBuffer : Act W Unit := change ({ · with buffer := "" })

/-! ## Verbs -/

/-- Waits for the milliseconds that a line gives. -/
def sleep (line : String) : Act W Unit := do
  let tokens := tokensOf line
  let word := tokens[0]?.getD ""
  if word ≠ "sleep" then fail (.ofFault .sleep line (.unknownFunction word))
  let value := tokens[1]?.getD ""
  match Number.readNat64 value.toList with
  | none => fail (.ofFault .sleep line (.notInteger "sleep function" value))
  | some milliseconds =>
    match tokens[2]?.filter (· ≠ ";") with
    | some extra => report (.warning ("unknown option in sleep function [" ++ extra ++ "]"))
    | none => pure ()
    emit (.sleep milliseconds)

/-- The lines that show a history. -/
def historyLines : Nat → List String → List String
  | _, [] => []
  | n, command :: rest => ("[" ++ toString n ++ "]: " ++ command) :: historyLines (n + 1) rest

/-- The line that shows a variable. -/
def variableLine (entry : String × String) : String := "[" ++ entry.1 ++ "] = " ++ entry.2

/-- Shows what a line asks for. -/
def inspect (line : String) : Act W Unit := do
  let s ← session
  match Inspection.ofLine? line with
  | some .history => (historyLines 0 s.history.entries).forM fun t => report (.message t)
  | some .pending => report (.message (Text.trimEnd s.buffer))
  | some .values => (s.bindings.entries.map variableLine).forM fun t => report (.message t)
  | some .help => report (.message Inspection.helpText)
  | none => report (.warning ("unknown command [" ++ line ++ "], type !? for help"))

/-- The text of a line after its first token and the spaces that follow it, without quotes. -/
def echoed (line : String) : String :=
  String.ofList <| (((lexemes true line.toList).drop 1).dropWhile fun l =>
    l.token false == Lexeme.spaceToken).flatMap (Lexeme.text false)

/-- Shows the text of a line. -/
def echo (around : Surroundings W) (line : String) : Act W Unit := do
  report (.message (← substitute around (echoed line)))

/-- Puts the settings of a line over those in use and builds a client, if there are any. -/
def connect (around : Surroundings W) (line : String) : Act W Unit := do
  let changes ← ofExcept (Connection.ofCommand line)
  if changes.isGiven then
    change fun s =>
      { s with connection := s.connection.overlay changes, buffer := "", nextToken := none }
    Act.connect around

/-- Reads the script at a path before anything else. -/
def loadScript (around : Surroundings W) (path : String) : Act W Unit := do
  let script ← ofExcept (Script.load around.file? path)
  change fun s => { s with scripts := script :: s.scripts }

/-- Loads the script that a line names. -/
def load (around : Surroundings W) (line : String) : Act W Unit :=
  match (Text.words line.toList)[1]? with
  | none => fail (.ofFault .loadScript line .noScript)
  | some path => loadScript around (String.ofList path)

/-- Carries out a line with a verb. -/
def perform (around : Surroundings W) (verb : Verb) (line : String) : Act W Flow :=
  match verb with
  | .sleep => do sleep line; pure .next
  | .clear => do report .clear; dropBuffer; pure .next
  | .exit => pure .exit
  | .inspect => do inspect line; pure .next
  | .connect => do connect around line; pure .next
  | .load => do load around line; pure .next
  | .echo => do echo around line; pure .next

/-! ## Any line -/

/-- A line without anything to carry out, given without the blanks around it. -/
def isComment (line : String) : Bool :=
  line == "" || Text.startsWith line "#" || Text.startsWith line "-"

/-- Carries out a line. -/
def feed (around : Surroundings W) (line : String) : Act W Flow := do
  let line := Text.trim line
  if isComment line then pure .next
  else match Verb.ofLine? line with
    | some verb =>
      tryCatch (perform around verb line) fun halt => do
        dropBuffer
        throw halt
    | none =>
      change fun s => { s with buffer := s.buffer ++ line ++ " " }
      if Text.endsWith line ';' then
        let s ← session
        dropBuffer
        execute around (Text.trim s.buffer)
      pure .next

end Session

end TableShell
