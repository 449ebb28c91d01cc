import TableShell.Session.Line

/-!
# Running a session

A run carries out line after line: those of the scripts first, and when there is none left, what it
reads from the user. A run without a user ends with the scripts, or at the first line that fails if
the session does not go on after failures. A run with a user reports failures and goes on until the
input ends. Either one ends at `exit`.

Scripts can load one another without end, so a run is given a number of steps.
-/

namespace TableShell

/-- What is read from the user. The input ends after the last one. -/
inductive Read where
  | line (text : String)
  /-- The user gives up the command that has been begun. -/
  | interrupt
  | ended
  deriving DecidableEq, Repr

namespace Session

open Act

variable {W : Type}

/-- The next line of the scripts. -/
def nextLine : Act W (Option String) := do
  let (line, scripts) := (← session).scripts.nextLine?
  change ({ · with scripts })
  pure line

/-- Carries out a line and reports its failure, which stops the run if `stops` says so. -/
def feedReporting (around : Surroundings W) (stops : Bool) (line : String) : Act W Flow :=
  tryCatch (feed around line) fun halt =>
    match halt with
    | .failed e => do
      report (.error e.message)
      if stops then throw halt else pure .next
    | .unfinished => throw halt

/-- Runs the scripts. -/
def runScripts (around : Surroundings W) : Nat → Act W Unit
  | 0 => throw .unfinished
  | steps + 1 => do
    match ← nextLine with
    | none => pure ()
    | some line =>
      match ← feedReporting around (!(← session).noStop) line with
      | .next => runScripts around steps
      | .exit => pure ()

/-- Runs the scripts and what is read from the user. -/
def runReads (around : Surroundings W) : Nat → List Read → Act W Unit
  | 0, _ => throw .unfinished
  | steps + 1, reads => do
    match ← nextLine with
    | some line =>
      match ← feedReporting around false line with
      | .next => runReads around steps reads
      | .exit => pure ()
    | none =>
      emit (.prompt (← session).prompt)
      match reads with
      | [] | .ended :: _ => pure ()
      | .interrupt :: reads => do
        dropBuffer
        runReads around steps reads
      | .line text :: reads =>
        match ← feedReporting around false text with
        | .next => runReads around steps reads
        | .exit => pure ()

end Session

end TableShell
