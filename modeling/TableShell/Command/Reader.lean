import TableShell.Error
import TableShell.Lexer
import TableShell.Schema

/-!
# Reading a command token by token

A `Reader` takes tokens off the front of a list and stops at the first fault. Quotes do not show in
tokens, so a quoted literal is read like the word, or the mark, that it contains. `Reader.read`
reads a command's tokens from the first one; what a reader leaves over is not looked at.
-/

namespace TableShell

/-- A computation that takes tokens off the front of a list. -/
abbrev Reader := StateT (List String) (Except Fault)

namespace Reader

/-- The next token. -/
def token (what : String) : Reader String := do
  match ← get with
  | [] => throw (.undefined what)
  | t :: ts => set ts; pure t

/-- The marks that no name is spelled like. -/
def marks : List String := ["(", ")", ",", ";", "="]

/-- The next token, as the name of something. -/
def name (what : String) : Reader String := do
  let t ← token what
  if t ∈ marks then throw (.undefined what) else pure t

/-- A keyword in any case of its letters. -/
def keyword (word : String) : Reader Unit := do
  let t ← token word
  if Text.sameLetters t word then pure () else throw (.expected word t)

/-- A token in single quotes. -/
def inQuotes (t : String) : String := "'" ++ t ++ "'"

/-- A mark. -/
def mark (m : String) : Reader Unit := do
  let t ← token (inQuotes m)
  if t = m then pure () else throw (.expected (inQuotes m) t)

/-- The type of an attribute. -/
def attributeType : Reader AttributeType := do
  let t ← token "attribute type"
  match AttributeType.ofWord? t with
  | some type => pure type
  | none => throw (.illegal "attribute type" t)

/-- How the end of a list element is called. -/
def separatorName : String := "',' or ')'"

/-- The end of a list element: `true` if it ends the list too. -/
def closes : Reader Bool := do
  let t ← token separatorName
  if t = ")" then pure true
  else if t = "," then pure false
  else throw (.expected separatorName t)

/-- A list of at most `n + 1` elements with commas between them, and the mark that closes it. -/
def separated {α : Type} (element : Reader α) : Nat → Reader (List α)
  | 0 => do
    let a ← element
    if ← closes then pure [a] else throw (.undefined separatorName)
  | n + 1 => do
    let a ← element
    if ← closes then pure [a] else return a :: (← separated element n)

/-- A list with commas between its elements, and the mark that closes it. Each element takes a
token, so there are not more of them than tokens. -/
def commaList {α : Type} (element : Reader α) : Reader (List α) := do
  separated element (← get).length

/-- Nothing is left, or one semicolon. -/
def finish : Reader Unit := do
  match ← get with
  | [] | [";"] => pure ()
  | ";" :: t :: _ => throw (.unexpected t)
  | t :: _ => throw (.unexpected t)

/-- What a reader makes of a command. -/
def read {α : Type} (subject : Subject) (reader : Reader α) (command : String) : Except Error α :=
  match StateT.run reader (tokensOf command) with
  | .ok (a, _) => .ok a
  | .error fault => .error (.ofFault subject command fault)

end Reader

end TableShell
