import TableShell.History
import TableShell.Json
import TableShell.Script
import TableShell.Storage
import TableShell.Template

/-!
# Sessions

A `Session` is what the shell remembers between two lines. A `Machine` is a session together with
the world of its service and with the trace of everything it has done there: what it reported, which
calls it made, and with what outcome.

Lines are carried out by actions (`Act`). An action that fails keeps what it did before.
-/

namespace TableShell

/-- Something shown to the user. -/
inductive Report where
  | message (text : String)
  | warning (text : String)
  | error (text : String)
  /-- The rows of a result. -/
  | items (items : List Item)
  | document (value : Json)
  | clear

/-- Something that a session did. -/
inductive Event where
  | report (report : Report)
  /-- It built a client for a connection. -/
  | connect (connection : Connection) (outcome : Except Error Unit)
  /-- It made a call with the client of a connection. -/
  | call (client : Connection) (call : Call) (outcome : Except Error call.Reply)
  /-- It waited, for so many milliseconds. -/
  | sleep (milliseconds : Nat)
  /-- It asked for a line and showed a prompt. -/
  | prompt (text : String)

/-- The settings with which a session starts. -/
structure Config where
  connection : Connection := {}
  /-- A script goes on after a line that failed. -/
  noStop : Bool := false
  historyCapacity : Nat := History.defaultCapacity
  deriving DecidableEq, Repr

/-- The error of a configuration, if it has one. -/
def Config.error? (config : Config) : Option Error :=
  if config.historyCapacity = 0 then some .noCapacity else none

/-- What the shell remembers between two lines. -/
structure Session where
  /-- The connection asked for last. -/
  connection : Connection
  /-- The connection that the client in use was built for. -/
  client : Connection
  noStop : Bool
  bindings : Variables := .empty
  history : History
  scripts : Script.Stack := []
  /-- The lines of a command that has not been closed yet, each with a space after it. -/
  buffer : String := ""
  /-- The place at which the last query goes on. -/
  nextToken : Option String := none

/-- The prompt in front of a new command. -/
def Session.newPrompt : String := "ddbql> "

/-- The prompt in front of a further line of a command. -/
def Session.continuationPrompt : String := "...> "

/-- The prompt in front of the next line. -/
def Session.prompt (session : Session) : String :=
  if session.buffer = "" then newPrompt else continuationPrompt

/-- A session in the world of its service, and what it has done. -/
structure Machine (W : Type) where
  session : Session
  world : W
  /-- The number of fresh texts drawn. -/
  drawn : Nat := 0
  trace : List Event := []

/-- What a session finds around it. -/
structure Surroundings (W : Type) where
  service : Service W
  /-- What the file at a path holds. -/
  file? : String → Option FileContent := fun _ => none
  supply : Supply

/-- Why an action stopped. -/
inductive Halt where
  | failed (e : Error)
  /-- More steps were needed than it was given. -/
  | unfinished
  deriving DecidableEq, Repr

/-- An action of a session, which may stop. -/
abbrev Act (W : Type) := ExceptT Halt (StateM (Machine W))

namespace Act

variable {W : Type}

/-- Stops with an error. -/
def fail {α : Type} (e : Error) : Act W α := throw (.failed e)

/-- The value, unless it is an error. -/
def ofExcept {α : Type} : Except Error α → Act W α
  | .ok a => pure a
  | .error e => fail e

/-- Adds to the trace. -/
def emit (event : Event) : Act W Unit := modify fun m => { m with trace := m.trace ++ [event] }

/-- Shows something to the user. -/
def report (r : Report) : Act W Unit := emit (.report r)

/-- The session as it is. -/
def session : Act W Session := do return (← get).session

/-- Changes the session. -/
def change (f : Session → Session) : Act W Unit := modify fun m => { m with session := f m.session }

/-- Makes a call. -/
def call (around : Surroundings W) (c : Call) : Act W c.Reply := do
  let m ← get
  let (outcome, world) := around.service.answer m.session.client c m.world
  set { m with world }
  emit (.call m.session.client c outcome)
  ofExcept outcome

/-- Builds a client for the connection asked for. -/
def connect (around : Surroundings W) : Act W Unit := do
  let m ← get
  let connection := m.session.connection
  let (outcome, world) := around.service.connect connection m.world
  set { m with world }
  emit (.connect connection outcome)
  ofExcept outcome
  change ({ · with client := connection })

/-- The text with the values of its variables. -/
def substitute (around : Surroundings W) (text : String) : Act W String := do
  let m ← get
  let (text, drawn) := m.session.bindings.substitute around.supply m.drawn text
  set { m with drawn }
  pure text

end Act

/-- A session that starts in a world, and the error if it cannot. -/
def Machine.start {W : Type} (around : Surroundings W) (config : Config) (world : W) :
    Except Error (Machine W) :=
  match config.error? with
  | some e => .error e
  | none =>
    match around.service.connect config.connection world with
    | (.error e, _) => .error e
    | (.ok (), world) =>
      .ok {
        session := {
          connection := config.connection, client := config.connection, noStop := config.noStop,
          history := .withCapacity config.historyCapacity }
        world
        trace := [.connect config.connection (.ok ())] }

end TableShell
