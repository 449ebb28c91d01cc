import TableShell.Text.Blank

/-!
# Errors

An `Error` is the reason why a line could not be carried out. A command that is wrong in itself has
a `Fault`, and the error then says which kind of command it was and how the command read, without
the blanks around it. `Error.message` is the one place that words them.
-/

namespace TableShell

/-- The kind of command that a diagnostic is about. -/
inductive Subject where
  | select
  | insert
  | update
  | delete
  | createTable
  | dropTable
  | describe
  | showTables
  | truncateTable
  | assignment
  | sleep
  | loadScript
  deriving DecidableEq, Repr

/-- How a diagnostic calls a kind of command. -/
def Subject.name : Subject → String
  | select => "select"
  | insert => "insert"
  | update => "update"
  | delete => "delete"
  | createTable => "create table"
  | dropTable => "drop table"
  | describe => "desc"
  | showTables => "show tables"
  | truncateTable => "truncate table"
  | assignment => "variable"
  | sleep => "sleep"
  | loadScript => "load script"

/-- What is wrong with the text of a command. -/
inductive Fault where
  /-- A part of a query that is not there. -/
  | notFound (what : String)
  /-- A part of a definition that is not there, or is punctuation. -/
  | undefined (what : String)
  /-- Another token stands where `what` has to. -/
  | expected (what found : String)
  /-- A token follows where a space has to. -/
  | expectedSpace (found : String)
  /-- The command ends where a space has to follow. -/
  | endOfStatement
  /-- The command ends with its table. -/
  | endAfterTable
  /-- A token after the end of a definition. -/
  | unexpected (found : String)
  /-- The name of a script is missing. -/
  | noScript
  /-- A word that only starts like a verb. -/
  | unknownFunction (name : String)
  /-- A value that is no integer, in the place so named. -/
  | notInteger (place value : String)
  /-- A word that names no attribute type, key type or index type. -/
  | illegal (what word : String)
  deriving DecidableEq, Repr

namespace Fault

/-- The text has the right form, but a value in it is not allowed. -/
def isIllegalValue : Fault → Bool
  | notInteger .. | illegal .. => true
  | _ => false

/-- What a diagnostic says about the fault. -/
def reason : Fault → String
  | notFound what => what ++ " not found"
  | undefined what => "undefined " ++ what
  | expected what found => "expected " ++ what ++ " but found '" ++ found ++ "'"
  | expectedSpace found => "expected a space before '" ++ found ++ "'"
  | endOfStatement => "unexpected end of statement"
  | endAfterTable => "unexpected end after table name"
  | unexpected found => "unexpected '" ++ found ++ "'"
  | noScript => "script file name is missing"
  | unknownFunction name => "unknown function name [" ++ name ++ "]"
  | notInteger place value => "not integer value in " ++ place ++ " (" ++ value ++ ")"
  | illegal what word => "illegal " ++ what ++ " '" ++ word ++ "'"

end Fault

/-- What is wrong with a list of flags. -/
inductive FlagFault where
  /-- A word that is no flag, or one word too many. -/
  | unknown
  /-- A value that is missing or not allowed. -/
  | badValue
  /-- A flag given twice. -/
  | repeated
  /-- A value given to a flag that takes none. -/
  | unwantedValue
  deriving DecidableEq, Repr

/-- What a diagnostic says about the flags. -/
def FlagFault.reason : FlagFault → String
  | unknown => "unexpected argument found"
  | badValue => "one of the values isn't valid for an argument"
  | repeated => "an argument cannot be used with one or more of the other specified arguments"
  | unwantedValue => "unexpected value for an argument found"

/-- Why a line could not be carried out. -/
inductive Error where
  /-- The command, given without the blanks around it, has a fault. -/
  | faulty (subject : Subject) (command : String) (fault : Fault)
  /-- No kind of command starts like this one. -/
  | unsupported (command : String)
  | tableNotFound (table : String)
  /-- The service failed. -/
  | storage (operation message : String)
  | scriptNotFound (path : String)
  /-- The flags of a connect command are wrong. -/
  | connectFlags (fault : FlagFault) (command : String)
  | noHistory
  /-- A history that can hold nothing was asked for. -/
  | noCapacity
  /-- A script is not text. -/
  | notText
  deriving DecidableEq, Repr

/-- How far an error reaches. -/
inductive Category where
  /-- A keyword, a delimiter or a value is missing or malformed. -/
  | structural
  /-- A well-formed value is not allowed. -/
  | semantic
  /-- The service reported a failure. -/
  | collaborator
  /-- The failure lies outside any single command. -/
  | fatal
  deriving DecidableEq, Repr

namespace Error

/-- The error of a fault in a command. -/
def ofFault (subject : Subject) (command : String) (fault : Fault) : Error :=
  faulty subject (Text.trim command) fault

/-- What is wrong with a configuration whose history can hold nothing. -/
def noCapacityText : String := "history_capacity must be greater than 0"

/-- The diagnostic. -/
def message : Error → String
  | faulty subject command fault =>
    subject.name ++ (if fault.isIllegalValue then " error: " else " syntax error: ") ++
      fault.reason ++ " [" ++ command ++ "]"
  | unsupported command => "unsupported statement [" ++ command ++ "]"
  | tableNotFound table => "table [" ++ table ++ "] not found"
  | storage operation message => operation ++ " failed: " ++ message
  | scriptNotFound path => "error load script (not found " ++ path ++ ")"
  | connectFlags fault command =>
    "connect argument error: " ++ fault.reason ++ " [" ++ command ++ "]"
  | noHistory => "no statement in history to run"
  | noCapacity => "invalid configuration: " ++ noCapacityText
  | notText => "IO error: stream did not contain valid UTF-8"

/-- A name for the kind of error that stays the same when the wording changes. -/
def code : Error → String
  | faulty _ _ fault => if fault.isIllegalValue then "VALIDATION_ERROR" else "SYNTAX_ERROR"
  | unsupported _ => "UNSUPPORTED_STATEMENT"
  | tableNotFound _ => "TABLE_NOT_FOUND"
  | storage .. => "STORAGE_ERROR"
  | scriptNotFound _ => "SCRIPT_NOT_FOUND"
  | connectFlags .. => "CONNECT_ARGUMENTS"
  | noHistory => "NO_HISTORY"
  | noCapacity => "INVALID_CONFIG"
  | notText => "IO_ERROR"

/-- How far the error reaches. -/
def category : Error → Category
  | faulty _ _ fault => if fault.isIllegalValue then .semantic else .structural
  | unsupported _ | noHistory => .structural
  | connectFlags .. | scriptNotFound _ => .semantic
  | tableNotFound _ | storage .. => .collaborator
  | noCapacity | notText => .fatal

/-- The command at fault, where the error carries it. -/
def command? : Error → Option String
  | faulty _ command _ | unsupported command => some command
  | _ => none

end Error

/-! ## Outcomes -/

section Outcome

variable {ε α β : Type} {x : Except ε α}

/-- Two steps succeed exactly if the first does and the second does with its value. -/
theorem bind_eq_ok {f : α → Except ε β} {b : β} :
    (x >>= f) = .ok b ↔ ∃ a, x = .ok a ∧ f a = .ok b := by
  cases x with
  | error e => exact ⟨nofun, nofun⟩
  | ok a => exact ⟨fun h => ⟨a, rfl, h⟩, fun ⟨_, ha, h⟩ => by cases ha; exact h⟩

/-- Two steps fail exactly if the first does or the second does after it. -/
theorem bind_eq_error {f : α → Except ε β} {e : ε} :
    (x >>= f) = .error e ↔ x = .error e ∨ ∃ a, x = .ok a ∧ f a = .error e := by
  constructor
  · intro h
    cases x with
    | error e' =>
      cases h
      exact .inl rfl
    | ok a => exact .inr ⟨a, rfl, h⟩
  · rintro (rfl | ⟨a, rfl, h⟩)
    · rfl
    · exact h

/-- What can be decided of an outcome is its value. -/
theorem eq_ok_of_toOption {a : α} (h : x.toOption = some a) : x = .ok a := by
  cases x with
  | error e => cases h
  | ok b => cases h; rfl

end Outcome

end TableShell
