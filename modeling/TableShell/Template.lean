import TableShell.Dictionary

/-!
# Templates

A text may refer to variables: a reference starts with a dollar sign and an opening brace and goes
on to the brace that closes it, or to the end of the text. Braces inside the name of a reference
nest. `Template.pieces` takes a text apart into characters and references, and `Template.expand`
puts the values in. A value is put in as it is: references in it are not expanded.

Two names are reserved. Each reference to one of them draws a fresh text from a `Supply`, whatever
value the name may have been given.
-/

namespace TableShell

/-- Fresh texts, for the first reserved reference, the second one, and so on. -/
structure Supply where
  /-- A universally unique identifier. -/
  uuid : Nat → String
  /-- The time in tenths of a second. -/
  now : Nat → String

/-- Variables and their values. -/
abbrev Variables := Dictionary String

namespace Template

/-- A part of a template. -/
inductive Piece where
  | char (c : Char)
  | reference (name : List Char)
  deriving DecidableEq, Repr

/-- Where the reading of a template stands. -/
inductive Place where
  /-- Outside of any reference. -/
  | outside
  /-- Inside a reference, with the number of open braces of its name and, latest first, the name. -/
  | inside (depth : Nat) (name : List Char)
  deriving DecidableEq, Repr

/-- The pieces of a text that is read from the given place on. -/
def piecesFrom : Place → List Char → List Piece
  | .outside, [] => []
  | .outside, [c] => [.char c]
  | .outside, c :: d :: cs =>
    if c = '$' ∧ d = '{' then piecesFrom (.inside 0 []) cs
    else .char c :: piecesFrom .outside (d :: cs)
  | .inside _ name, [] => [.reference name.reverse]
  | .inside depth name, c :: cs =>
    if c = '{' then piecesFrom (.inside (depth + 1) (c :: name)) cs
    else if c = '}' then
      match depth with
      | 0 => .reference name.reverse :: piecesFrom .outside cs
      | depth + 1 => piecesFrom (.inside depth (c :: name)) cs
    else piecesFrom (.inside depth (c :: name)) cs

/-- The pieces of a text. -/
def pieces (s : List Char) : List Piece := piecesFrom .outside s

/-- The name whose references are identifiers. -/
def uuidName : List Char := ['U', 'U', 'I', 'D']

/-- The name whose references are times. -/
def nowName : List Char := ['N', 'O', 'W']

/-- The text of a reference and the number of fresh texts drawn, `drawn` of them before. A name
without a value stands for nothing, and so does the empty name. -/
def resolve (vars : Variables) (supply : Supply) (drawn : Nat) (name : List Char) :
    List Char × Nat :=
  if name = [] then ([], drawn)
  else if name = uuidName then ((supply.uuid drawn).toList, drawn + 1)
  else if name = nowName then ((supply.now drawn).toList, drawn + 1)
  else (((vars.get? (String.ofList name)).getD "").toList, drawn)

/-- The text of a list of pieces, and the number of fresh texts drawn. -/
def expand (vars : Variables) (supply : Supply) : Nat → List Piece → List Char × Nat
  | drawn, [] => ([], drawn)
  | drawn, .char c :: ps =>
    let (text, drawn) := expand vars supply drawn ps
    (c :: text, drawn)
  | drawn, .reference name :: ps =>
    let (value, drawn) := resolve vars supply drawn name
    let (text, drawn) := expand vars supply drawn ps
    (value ++ text, drawn)

end Template

/-- The text with the values of its references, and the number of fresh texts drawn. -/
def Variables.substitute (vars : Variables) (supply : Supply) (drawn : Nat) (source : String) :
    String × Nat :=
  let (text, drawn) := Template.expand vars supply drawn (Template.pieces source.toList)
  (String.ofList text, drawn)

end TableShell
