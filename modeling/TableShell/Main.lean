import Std.Time.DateTime.Timestamp
import TableShell.Input
import TableShell.Remote
import TableShell.Program
import TableShell.Supply

/-!
# The command line

The outer layer of the program. It reads lines and files, prints what a session reports, and waits
where a session waits; what a line means is said in `TableShell.Session`. It has no way to the
remote service, so every call to it fails.
-/

namespace TableShell.Main

/-- The part of the program that does not change. -/
structure Terminal where
  console : Console
  /-- A user reads the prompts. -/
  prompts : Bool
  supply : Supply

/-- What the file at a path holds. -/
def readContent (path : String) : IO (Option FileContent) := do
  try
    let bytes ← IO.FS.readBinFile path
    match String.fromUTF8? bytes with
    | some content => pure (some (.text content))
    | none => pure (some .binary)
  catch _ => pure none

/-- What a session finds around it when the file at one path has been read. -/
def surroundings (terminal : Terminal) (path : String) (content : Option FileContent) :
    Surroundings Remote where
  service := Remote.service
  file? p := if p = path then content else none
  supply := terminal.supply

/-- What a session finds around it when it carries out a line. -/
def surroundingsOf (terminal : Terminal) (line : String) : IO (Surroundings Remote) := do
  let line := Text.trim line
  match Verb.ofLine? line, (Text.words line.toList)[1]? with
  | some .load, some path =>
    let path := String.ofList path
    return surroundings terminal path (← readContent path)
  | _, _ => return surroundings terminal "" none

/-- Prints an event, or waits. -/
def showEvent (terminal : Terminal) (event : Event) : IO Unit := do
  let printed := terminal.console.printEvent event
  IO.print printed.out
  IO.eprint printed.err
  match event with
  | .sleep milliseconds => IO.sleep milliseconds.toUInt32
  | .prompt text => if terminal.prompts then IO.print text
  | _ => pure ()
  (← IO.getStdout).flush

/-- Carries out an action and shows what it did. -/
def perform {α : Type} (terminal : Terminal) (action : Act Remote α) (m : Machine Remote) :
    IO (Except Halt α × Machine Remote) := do
  let (result, m) := action.run m
  m.trace.forM (showEvent terminal)
  pure (result, { m with trace := [] })

/-- Reads the next line from the user, after the prompt. -/
def readLine (terminal : Terminal) (m : Machine Remote) : IO Input := do
  showEvent terminal (.prompt m.session.prompt)
  return Input.ofText (← (← IO.getStdin).getLine)

/-- Carries out the lines of the scripts, and those of the user unless `batch` says that there is
none. -/
partial def runLines (terminal : Terminal) (batch : Bool) (m : Machine Remote) : IO UInt32 := do
  let (next, m) ← perform terminal Session.nextLine m
  let input ← match next with
    | .ok (some line) => pure { lines := [line] }
    | _ => if batch then pure {} else readLine terminal m
  match input.lines with
  | [] =>
    if input.isCut then
      IO.eprintln "error: a backspace ends inside a character"
      return 101
    return 0
  | line :: _ =>
    let around ← surroundingsOf terminal line
    let stops := batch && !m.session.noStop
    let (result, m) ← perform terminal (Session.feedReporting around stops line) m
    match result with
    | .ok .next => runLines terminal batch m
    | .ok .exit => pure 0
    | .error _ => pure 1

/-- Runs the script, or what the user enters. -/
def start (terminal : Terminal) (script : Option String) (m : Machine Remote) : IO UInt32 := do
  match script with
  | none =>
    IO.print (Program.banner terminal.console)
    runLines terminal false m
  | some path =>
    let around := surroundings terminal path (← readContent path)
    let (result, m) ← perform terminal (Session.loadScript around path) m
    match result with
    | .ok () => runLines terminal true m
    | .error (.failed e) => IO.eprint (Program.failureText e); pure 1
    | .error .unfinished => pure 1

/-- A supply of fresh texts from now on. -/
def freshSupply : IO Supply := do
  let bytes ← IO.getRandomBytes 16
  let now ← Std.Time.Timestamp.now
  let seed := bytes.toList.foldl (fun n b => n * 256 + b.toNat) 0
  return Supply.seeded seed (now.toMillisecondsSinceUnixEpoch.toInt / 100).toNat

end TableShell.Main

open TableShell in
/-- The program. -/
def main (args : List String) : IO UInt32 := do
  match Options.ofWords args with
  | .error stop =>
    let outcome := Program.stopOutcome stop
    IO.print outcome.out
    match stop with
    | .fault fault => IO.eprintln ("error: " ++ fault.reason)
    | .atFlag .. => pure ()
    return outcome.code.toUInt32
  | .ok options =>
    let prompts ← (← IO.getStdin).isTty
    let color ← (← IO.getStdout).isTty
    let terminal : Main.Terminal := ⟨⟨options.format, color⟩, prompts, ← Main.freshSupply⟩
    let config : Config := { connection := options.connection, noStop := options.noStop }
    match Machine.start (Main.surroundings terminal "" none) config {} with
    | .error e =>
      IO.eprint (Program.failureText e)
      return 1
    | .ok m => Main.start terminal options.script { m with trace := [] }
