import TableShell.Number.Decimal
import TableShell.Text.Base64
import TableShell.Text.Hex

/-!
# JSON

A JSON value, its text on one line (`Json.compact`) and its text over indented lines
(`Json.pretty`). Strings are written with the short escapes where there are any, and with `\u00xx`
for the other characters below U+0020; all other characters stand for themselves.
-/

namespace TableShell

/-- A JSON value. The fields of an object are written in the order in which they are given. -/
inductive Json where
  | null
  | bool (b : Bool)
  | int (n : Int)
  | float (x : Number.Binary64)
  | str (s : String)
  | arr (items : List Json)
  | obj (fields : List (String × Json))
  deriving Repr

namespace Json

/-! ## Building values -/

/-- The string with the Base64 form of bytes. -/
def ofBytes (bytes : List UInt8) : Json := str (String.ofList (Text.Base64.encode bytes))

/-- A field of an object that is left out if it has no value. -/
def optionalField {α : Type} (name : String) (f : α → Json) (value : Option α) :
    List (String × Json) :=
  (value.map fun a => (name, f a)).toList

/-! ## Strings -/

/-- A character as it is written in a string. -/
def escape (c : Char) : List Char :=
  if c = '"' then ['\\', '"']
  else if c = '\\' then ['\\', '\\']
  else if c.toNat = 8 then ['\\', 'b']
  else if c.toNat = 12 then ['\\', 'f']
  else if c = '\n' then ['\\', 'n']
  else if c = '\r' then ['\\', 'r']
  else if c = '\t' then ['\\', 't']
  else if c.toNat < 32 then
    ['\\', 'u', '0', '0', Text.hexDigit (c.toNat / 16), Text.hexDigit (c.toNat % 16)]
  else [c]

/-- A string in quotes. -/
def quote (s : String) : List Char := '"' :: s.toList.flatMap escape ++ ['"']

/-- The text of an integer. -/
def intText (n : Int) : List Char :=
  if n < 0 then '-' :: Nat.toDigits 10 n.natAbs else Nat.toDigits 10 n.natAbs

/-! ## On one line -/

mutual

/-- The text of a value without blanks. -/
def compact : Json → List Char
  | null => "null".toList
  | bool b => (if b then "true" else "false").toList
  | int n => intText n
  | float x => x.text
  | str s => quote s
  | arr items => '[' :: compactItems items ++ [']']
  | obj fields => '{' :: compactFields fields ++ ['}']

/-- The texts of values with commas between them. -/
def compactItems : List Json → List Char
  | [] => []
  | [v] => compact v
  | v :: vs => compact v ++ ',' :: compactItems vs

/-- The texts of fields with commas between them. -/
def compactFields : List (String × Json) → List Char
  | [] => []
  | [(name, v)] => quote name ++ ':' :: compact v
  | (name, v) :: es => quote name ++ ':' :: compact v ++ ',' :: compactFields es

end

/-! ## Over several lines -/

/-- The start of a line at a depth. -/
def newLine (depth : Nat) : List Char := '\n' :: List.replicate (2 * depth) ' '

mutual

/-- The text of a value with every item and every field on a line of its own, two blanks further to
the right than the value they belong to. -/
def prettyAt (depth : Nat) : Json → List Char
  | null => "null".toList
  | bool b => (if b then "true" else "false").toList
  | int n => intText n
  | float x => x.text
  | str s => quote s
  | arr [] => ['[', ']']
  | arr (v :: vs) => '[' :: prettyItems (depth + 1) (v :: vs) ++ newLine depth ++ [']']
  | obj [] => ['{', '}']
  | obj (e :: es) => '{' :: prettyFields (depth + 1) (e :: es) ++ newLine depth ++ ['}']

/-- The lines of values. -/
def prettyItems (depth : Nat) : List Json → List Char
  | [] => []
  | [v] => newLine depth ++ prettyAt depth v
  | v :: vs => newLine depth ++ prettyAt depth v ++ ',' :: prettyItems depth vs

/-- The lines of fields. -/
def prettyFields (depth : Nat) : List (String × Json) → List Char
  | [] => []
  | [(name, v)] => newLine depth ++ quote name ++ ':' :: ' ' :: prettyAt depth v
  | (name, v) :: es =>
    newLine depth ++ quote name ++ ':' :: ' ' :: prettyAt depth v ++ ',' :: prettyFields depth es

end

/-- The text of a value over several lines. -/
def pretty (v : Json) : List Char := prettyAt 0 v

/-- The text of a value on one line. -/
def compactText (v : Json) : String := String.ofList v.compact

/-- The text of a value over several lines. -/
def prettyText (v : Json) : String := String.ofList v.pretty

end Json

end TableShell
