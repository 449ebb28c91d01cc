import TableShell.Text.Affix

/-!
# Verbs

Some lines are carried out by the shell itself, at once and without a semicolon. Such a line is
known by the characters it starts with, and no blank has to follow them. Letter case counts.
-/

namespace TableShell

/-- What a line asks of the shell itself. -/
inductive Verb where
  | sleep
  | clear
  | exit
  | inspect
  | connect
  | load
  | echo
  deriving DecidableEq, Repr

namespace Verb

/-- The verbs and what a line of theirs starts with; the first one that fits counts. -/
def table : List (String × Verb) :=
  [("sleep", sleep), ("clear", clear), ("exit", exit), ("!", inspect), ("connect", connect),
    (".", load), ("echo", echo)]

/-- The verb of a line. -/
def ofLine? (line : String) : Option Verb :=
  (table.find? fun entry => Text.startsWith line entry.1).map (·.2)

end Verb

/-- What a line that starts with an exclamation mark asks for. -/
inductive Inspection where
  | history
  | pending
  | values
  | help
  deriving DecidableEq, Repr

namespace Inspection

/-- What a line asks for with its second character. -/
def ofLine? (line : String) : Option Inspection :=
  match line.toList[1]? with
  | some 'h' => some history
  | some 'c' => some pending
  | some 'v' => some values
  | some '?' => some help
  | _ => none

/-- The help. -/
def helpText : String :=
  "\n" ++
  "  !?             show help message\n" ++
  "  !h             show execute query history\n" ++
  "  !c             show the command being entered\n" ++
  "  !v             show variables and values\n" ++
  "  @name = value; set a variable, referenced as $\x7bname\x7d\n" ++
  "  . <file>       run a script file\n" ++
  "  echo <text>    print text after variable substitution\n" ++
  "  sleep <ms>     wait for the given milliseconds\n" ++
  "  connect [-p profile] [-r region] [-E endpoint] [--access_key key]" ++
  " [--secret_access_key secret]\n" ++
  "                 reconnect with new settings\n" ++
  "  run;           fetch the next page of the last query\n" ++
  "  clear          clear console\n" ++
  "  exit           exit ddbql cli\n"

end Inspection

end TableShell
