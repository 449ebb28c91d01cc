import TableShell.Error

/-!
# Flags

The words of a command line are flags, their values, and other words. A flag is written with one
hyphen and its letter or with two and its name. The value of a flag follows it as a word of its own,
or is attached to it: behind the letter, with an equals sign before it or not, or behind the name
and an equals sign. A word of its own may not start with a hyphen unless it is nothing but a hyphen.
The word `--` ends the flags.

A library that reads command lines is a `FlagParser`. In the one that is used here,
`FlagParser.standard`, the words are read from left to right and the first fault counts. A value in
a word of its own is looked at only when the next known flag, the next word or the end is reached:
until then it is pending, and the fault of an unknown flag comes first.
-/

namespace TableShell

/-- What a flag does. -/
inductive FlagKind where
  /-- It takes a value. -/
  | value
  /-- It is on or off. -/
  | switch
  /-- It ends the reading. -/
  | stop
  deriving DecidableEq, Repr

/-- A flag that may be given. -/
structure Flag where
  name : String
  letter : Option Char
  kind : FlagKind
  deriving DecidableEq, Repr

/-- What may be given on a command line. -/
structure FlagGrammar where
  flags : List Flag
  /-- The number of other words allowed, if there is a limit. -/
  maxWords : Option Nat
  /-- The values that a flag allows. -/
  allowsValue : (flag value : String) → Bool
  /-- The other words that are allowed. -/
  allowsWord : String → Bool

/-- Why the reading of a command line ended early. -/
inductive FlagStop where
  | fault (fault : FlagFault)
  /-- The flag of this name ends the reading, written with its letter or with its name. -/
  | atFlag (name : String) (byLetter : Bool)
  deriving DecidableEq, Repr

/-- A library that reads command lines. The first word of a line is the name of the program. -/
structure FlagParser where
  /-- What has been found in a line. -/
  Found : Type
  parse : FlagGrammar → (words : List String) → Except FlagStop Found
  /-- The value of the flag with the name. -/
  value? : Found → (name : String) → Option String

/-- A part of a command line that is still to be looked at. -/
inductive PendingFlag where
  /-- A flag, and its value once it has been read. -/
  | flag (name : String) (value : Option String)
  | word (text : String)
  deriving DecidableEq, Repr

/-- What has been read of a command line. -/
structure GivenFlags where
  values : List (String × String) := []
  switches : List String := []
  words : List String := []
  pending : Option PendingFlag := none
  deriving DecidableEq, Repr

namespace GivenFlags

/-- The value of a flag. -/
def value? (given : GivenFlags) (name : String) : Option String := given.values.lookup name

/-- The number of other words, a pending one included. -/
def wordCount (given : GivenFlags) : Nat :=
  given.words.length + match given.pending with
    | some (.word _) => 1
    | _ => 0

end GivenFlags

namespace FlagGrammar

/-- A reading that may end early. -/
abbrev Step := Except FlagStop GivenFlags

/-- The value of a flag, read at last. -/
def addValue (g : FlagGrammar) (given : GivenFlags) (name value : String) : Step :=
  if (given.value? name).isSome then throw (.fault .repeated)
  else if g.allowsValue name value then
    pure { given with values := given.values ++ [(name, value)] }
  else throw (.fault .badValue)

/-- Looks at what is pending. -/
def settle (g : FlagGrammar) (given : GivenFlags) : Step :=
  let rest := { given with pending := none }
  match given.pending with
  | none => pure given
  | some (.flag _ none) => throw (.fault .badValue)
  | some (.flag name (some value)) => g.addValue rest name value
  | some (.word text) =>
    if g.allowsWord text then pure { rest with words := rest.words ++ [text] }
    else throw (.fault .badValue)

/-- A flag without an attached value. -/
def addFlag (g : FlagGrammar) (given : GivenFlags) (flag : Flag) (byLetter : Bool) : Step := do
  let given ← g.settle given
  match flag.kind with
  | .value => pure { given with pending := some (.flag flag.name none) }
  | .switch =>
    if flag.name ∈ given.switches then throw (.fault .repeated)
    else pure { given with switches := given.switches ++ [flag.name] }
  | .stop => throw (.atFlag flag.name byLetter)

/-- A flag with the value attached to it. -/
def addAttached (g : FlagGrammar) (given : GivenFlags) (flag : Flag) (value : String) : Step := do
  match flag.kind with
  | .value => g.addValue (← g.settle given) flag.name value
  | .switch | .stop => throw (.fault .unwantedValue)

/-- A word with two hyphens, given without them. -/
def addLong (g : FlagGrammar) (given : GivenFlags) (word : List Char) : Step :=
  let name := String.ofList (word.takeWhile (· != '='))
  match g.flags.find? (·.name == name) with
  | none => throw (.fault .unknown)
  | some flag =>
    match word.dropWhile (· != '=') with
    | [] => g.addFlag given flag false
    | _ :: value => g.addAttached given flag (String.ofList value)

/-- A word with one hyphen, given without it: letters of switches and, last, of a flag whose value
may be attached. -/
def addLetters (g : FlagGrammar) (given : GivenFlags) : List Char → Step
  | [] => pure given
  | c :: cs =>
    match g.flags.find? (·.letter == some c) with
    | none => throw (.fault .unknown)
    | some flag =>
      match flag.kind, cs with
      | .value, '=' :: value => g.addAttached given flag (String.ofList value)
      | .value, _ :: _ => g.addAttached given flag (String.ofList cs)
      | _, _ => do g.addLetters (← g.addFlag given flag true) cs

/-- A word that is neither flag nor value. -/
def addWord (g : FlagGrammar) (given : GivenFlags) (word : String) : Step :=
  if g.maxWords.any (· ≤ given.wordCount) then throw (.fault .unknown)
  else return { (← g.settle given) with pending := some (.word word) }

/-- A word before the end of the flags that is not `--`. -/
def addAny (g : FlagGrammar) (given : GivenFlags) (word : String) : Step :=
  match word.toList with
  | '-' :: '-' :: cs => g.addLong given cs
  | '-' :: c :: cs => g.addLetters given (c :: cs)
  | _ =>
    match given.pending with
    | some (.flag name none) => pure { given with pending := some (.flag name (some word)) }
    | _ => g.addWord given word

/-- Reads the words, all of them as other words once the flags have ended. -/
def readFrom (g : FlagGrammar) (ended : Bool) (given : GivenFlags) : List String → Step
  | [] => g.settle given
  | word :: rest => do
    if ended then g.readFrom true (← g.addWord given word) rest
    else if word = "--" then g.readFrom true given rest
    else g.readFrom false (← g.addAny given word) rest

/-- What a command line gives. -/
def read (g : FlagGrammar) (words : List String) : Step := g.readFrom false {} words

end FlagGrammar

/-- The words behind the name of the program, read from left to right. -/
def FlagParser.standard : FlagParser where
  Found := GivenFlags
  parse g words := g.read words.tail
  value? := GivenFlags.value?

end TableShell
