import TableShell.Lexeme

/-!
# A lexer whose reader changes its mind

A `Lexer` hands out the tokens of a text one by one. Between two tokens its reader may ask for
literals with or without their quotes and for spaces or none. The token handed out last stays
readable (`current`) until the next one is.
-/

namespace TableShell

/-- A text that is being read token by token. -/
structure Lexer where
  /-- The part of the text not read yet. -/
  rest : List Char
  /-- The token handed out last. -/
  current : Option String
  /-- Literals keep their quotes. -/
  keepQuotes : Bool
  /-- Runs of spaces are tokens. -/
  keepSpaces : Bool
  deriving DecidableEq, Repr

namespace Lexer

/-- A lexer at the start of a text, in neither mode. -/
def ofText (s : String) : Lexer := ⟨s.toList, none, false, false⟩

/-- The next token, if there is one, and the lexer after it. -/
def next (lexer : Lexer) : Option String × Lexer :=
  match Lexeme.scan lexer.keepSpaces lexer.rest with
  | none => (none, { lexer with rest := [] })
  | some (l, rest) =>
    let token := l.token lexer.keepQuotes
    (some token, { lexer with rest, current := some token })

/-- A lexer that finds no further lexeme gives no token and has read everything. -/
theorem next_of_scan_none {lexer : Lexer}
    (h : Lexeme.scan lexer.keepSpaces lexer.rest = none) :
    lexer.next = (none, { lexer with rest := [] }) := by
  rw [next, h]

/-- A lexer that finds a lexeme gives its token, keeps it as the current one and goes on behind it.
-/
theorem next_of_scan_some {lexer : Lexer} {l : Lexeme} {r : List Char}
    (h : Lexeme.scan lexer.keepSpaces lexer.rest = some (l, r)) :
    lexer.next = (some (l.token lexer.keepQuotes),
      { lexer with rest := r, current := some (l.token lexer.keepQuotes) }) := by
  rw [next, h]

/-- The remaining tokens in the lexer's present modes. -/
def tokens (lexer : Lexer) : List String :=
  (lexemes lexer.keepSpaces lexer.rest).map (Lexeme.token lexer.keepQuotes)

/-- The lexer after its last token. -/
def finish (lexer : Lexer) : Lexer :=
  { lexer with rest := [], current := lexer.tokens.getLast?.or lexer.current }

end Lexer

/-- The tokens of a command as its parsers read them: no spaces, and literals without quotes. -/
def tokensOf (s : String) : List String := (Lexer.ofText s).tokens

/-- The tokens of a command are those of its lexemes, without blanks and without quotes. -/
theorem tokensOf_eq (s : String) :
    tokensOf s = (lexemes false s.toList).map (Lexeme.token false) := rfl

end TableShell
