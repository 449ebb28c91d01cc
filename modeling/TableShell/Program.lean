import TableShell.Console
import TableShell.Input
import TableShell.Session.Run

/-!
# The program

The program takes its settings from the command line and then runs a script, or reads lines from the
user. What it prints and its exit code are an `Outcome`: 0 if all went well, 1 after a failure, 2 if
the command line is wrong and 101 if it came to where the input is cut. In the last two cases the
text of the diagnostic is left to the outer layer.
-/

namespace TableShell

/-- The settings that the command line gives. -/
structure Options where
  connection : Connection := {}
  format : OutputFormat := .json
  verbose : Bool := false
  noStop : Bool := false
  script : Option String := none
  deriving DecidableEq, Repr

namespace Options

/-- The format with a name. -/
def format? (name : String) : Option OutputFormat :=
  if name = "json" then some .json else if name = "table" then some .table else none

/-- What may be given on the command line: one word, the path of a script, besides the flags. -/
def grammar : FlagGrammar where
  flags := Connection.flags ++
    [⟨"format", some 'F', .value⟩, ⟨"verbose", some 'v', .switch⟩, ⟨"no-stop", none, .switch⟩,
      ⟨"help", some 'h', .stop⟩, ⟨"version", some 'V', .stop⟩]
  maxWords := some 1
  allowsValue flag value := flag != "format" || (format? value).isSome
  allowsWord word := word != ""

/-- The settings that were given. -/
def ofFlags (given : GivenFlags) : Options where
  connection := Connection.ofFlags given.value?
  format := ((given.value? "format").bind format?).getD .json
  verbose := given.switches.contains "verbose"
  noStop := given.switches.contains "no-stop"
  script := given.words.head?

/-- The settings that the words of a command line give. -/
def ofWords (words : List String) : Except FlagStop Options := ofFlags <$> grammar.read words

end Options

namespace Program

/-- The version. -/
def versionText : String := "ddbql 0.2.0\n"

/-- The help in full. -/
def helpText : String :=
  "Interactive PartiQL shell for Amazon DynamoDB\n" ++
  "\n" ++
  "Usage: ddbql [OPTIONS] [SCRIPT]\n" ++
  "\n" ++
  "Arguments:\n" ++
  "  [SCRIPT]\n" ++
  "          Script file to run instead of the interactive prompt\n" ++
  "\n" ++
  "Options:\n" ++
  "  -p, --profile <PROFILE>\n" ++
  "          AWS profile name\n" ++
  "\n" ++
  "  -r, --region <REGION>\n" ++
  "          AWS region name\n" ++
  "\n" ++
  "  -E, --endpoint <URL>\n" ++
  "          Endpoint URL\n" ++
  "\n" ++
  "      --access_key <VALUE>\n" ++
  "          AWS credential access key id\n" ++
  "\n" ++
  "      --secret_access_key <VALUE>\n" ++
  "          AWS credential secret access key\n" ++
  "\n" ++
  "  -F, --format <FORMAT>\n" ++
  "          Output format for query results\n" ++
  "\n" ++
  "          Possible values:\n" ++
  "          - json:  One JSON document per item (default)\n" ++
  "          - table: Bordered table\n" ++
  "          \n" ++
  "          [default: json]\n" ++
  "\n" ++
  "  -v, --verbose\n" ++
  "          Log complemented statements and requests\n" ++
  "\n" ++
  "      --no-stop\n" ++
  "          Keep running a script after a failed command\n" ++
  "\n" ++
  "  -h, --help\n" ++
  "          Print help (see a summary with '-h')\n" ++
  "\n" ++
  "  -V, --version\n" ++
  "          Print version\n"

/-- The help in brief. -/
def summaryText : String :=
  "Interactive PartiQL shell for Amazon DynamoDB\n" ++
  "\n" ++
  "Usage: ddbql [OPTIONS] [SCRIPT]\n" ++
  "\n" ++
  "Arguments:\n" ++
  "  [SCRIPT]  Script file to run instead of the interactive prompt\n" ++
  "\n" ++
  "Options:\n" ++
  "  -p, --profile <PROFILE>          AWS profile name\n" ++
  "  -r, --region <REGION>            AWS region name\n" ++
  "  -E, --endpoint <URL>             Endpoint URL\n" ++
  "      --access_key <VALUE>         AWS credential access key id\n" ++
  "      --secret_access_key <VALUE>  AWS credential secret access key\n" ++
  "  -F, --format <FORMAT>            Output format for query results" ++
  " [default: json] [possible values: json, table]\n" ++
  "  -v, --verbose                    Log complemented statements and requests\n" ++
  "      --no-stop                    Keep running a script after a failed command\n" ++
  "  -h, --help                       Print help (see more with '--help')\n" ++
  "  -V, --version                    Print version\n"

/-- The line that greets a user. -/
def banner (console : Console) : String :=
  console.styled "1;36" "ddbql" ++ " " ++
    console.styled "2" "- type !? for help, exit to quit" ++ "\n"

/-- What the program leaves behind. -/
structure Outcome where
  code : Nat
  out : String := ""
  /-- The diagnostics, unless the command line is wrong. -/
  err : Option String := some ""
  deriving DecidableEq, Repr

/-- The diagnostic of a program that ends with an error, and under it what caused the error. -/
def failureText (e : Error) : String :=
  let cause := match e with
    | .notText => "\n\nCaused by:\n    stream did not contain valid UTF-8"
    | _ => ""
  "Error: " ++ e.message ++ cause ++ "\n"

/-- The outcome of a command line that ends the program by itself. -/
def stopOutcome : FlagStop → Outcome
  | .fault _ => { code := 2, err := none }
  | .atFlag name byLetter =>
    if name = "version" then { code := 0, out := versionText }
    else { code := 0, out := if byLetter then summaryText else helpText }

/-- The outcome of a run that printed something. -/
def printedOutcome (console : Console) (trace : List Event) (code : Nat) (failure : String) :
    Outcome :=
  let printed := console.printAll trace
  { code, out := printed.out, err := some (printed.err ++ failure) }

variable {W : Type}

/-- Runs a script from the start. -/
def runScript (around : Surroundings W) (console : Console) (steps : Nat) (path : String)
    (m : Machine W) : Outcome × W :=
  match (Session.loadScript around path).run m with
  | (.error (.failed e), m) => (printedOutcome console m.trace 1 (failureText e), m.world)
  | (.error .unfinished, m) => (printedOutcome console m.trace 1 "", m.world)
  | (.ok (), m) =>
    match (Session.runScripts around steps).run m with
    | (.ok (), m) => (printedOutcome console m.trace 0 "", m.world)
    | (.error _, m) => (printedOutcome console m.trace 1 "", m.world)

/-- The number of lines that a session has asked the user for. -/
def linesAsked (trace : List Event) : Nat :=
  trace.countP fun event => match event with
    | .prompt _ => true
    | _ => false

/-- Reads lines from the user. -/
def runUser (around : Surroundings W) (console : Console) (steps : Nat) (input : Input)
    (m : Machine W) : Outcome × W :=
  let (_, m) := (Session.runReads around steps (input.lines.map .line)).run m
  let cameToCut := input.isCut && input.lines.length < linesAsked m.trace
  let outcome := printedOutcome console m.trace (if cameToCut then 101 else 0) ""
  ({ outcome with out := banner console ++ outcome.out }, m.world)

/-- Runs the program with the words of its command line and what the user enters, for at most so
many lines. -/
def run (around : Surroundings W) (color : Bool) (steps : Nat) (words : List String)
    (input : Input) (world : W) : Outcome × W :=
  match Options.ofWords words with
  | .error stop => (stopOutcome stop, world)
  | .ok options =>
    let console : Console := ⟨options.format, color⟩
    let config : Config := { connection := options.connection, noStop := options.noStop }
    match Machine.start around config world with
    | .error e => ({ code := 1, err := some (failureText e) }, world)
    | .ok m =>
      match options.script with
      | some path => runScript around console steps path m
      | none => runUser around console steps input m

end Program

end TableShell
