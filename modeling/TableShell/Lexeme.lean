/-!
# Lexemes

A command is a sequence of lexemes: runs of spaces, words, quoted literals and single marks.
`Lexeme.scan` takes the first lexeme off a text and leaves a shorter rest (`scan_length_lt`);
`lexemes` takes them all.

Carriage return, tab and line feed separate lexemes and belong to none. A run of U+0020 is one
lexeme, which a reader may ask to be left out. How a literal was written and what it contains are
kept apart, so that each reader decides whether to see its quotes (`Lexeme.text`).
-/

namespace TableShell

/-- A piece of a command. -/
inductive Lexeme where
  /-- A run of U+0020. -/
  | space
  /-- A run of word characters. -/
  | word (letters : List Char)
  /-- The decoded content of a quoted literal, which is closed if its second quote was found. -/
  | literal (quote : Char) (content : List Char) (closed : Bool)
  /-- Any other character. -/
  | mark (c : Char)
  deriving DecidableEq, Repr

namespace Lexeme

/-! ## Characters -/

/-- A character of words: an ASCII letter or digit, a low line or a hyphen. -/
def isWordChar (c : Char) : Bool := c.isAlphanum || c == '_' || c == '-'

/-- A character that separates lexemes and is never part of one. -/
def isLayout (c : Char) : Bool := c == '\r' || c == '\t' || c == '\n'

/-- A character that opens a literal. -/
def isQuote (c : Char) : Bool := c == '\'' || c == '"'

/-- What a character stands for after a backslash. -/
def unescape : Char → Char
  | 'n' => '\n'
  | 'r' => '\r'
  | 't' => '\t'
  | c => c

/-! ## Scanning -/

/-- The content of a literal whose opening quote has been read, whether its closing quote was found,
and what follows. A backslash that ends the text stands for nothing. -/
def scanLiteral (quote : Char) : List Char → List Char × Bool × List Char
  | [] => ([], false, [])
  | c :: cs =>
    if c = '\\' then
      match cs with
      | [] => ([], false, [])
      | e :: cs =>
        let (content, closed, rest) := scanLiteral quote cs
        (unescape e :: content, closed, rest)
    else if c = quote then ([], true, cs)
    else
      let (content, closed, rest) := scanLiteral quote cs
      (c :: content, closed, rest)

/-- The first lexeme of a text and the rest of the text; spaces are lexemes only if asked for. -/
def scan (spaces : Bool) : List Char → Option (Lexeme × List Char)
  | [] => none
  | c :: cs =>
    if isLayout c then scan spaces cs
    else if c = ' ' then
      if spaces then some (.space, cs.dropWhile (· == ' ')) else scan spaces cs
    else if isQuote c then
      let (content, closed, rest) := scanLiteral c cs
      some (.literal c content closed, rest)
    else if isWordChar c then
      some (.word (c :: cs.takeWhile isWordChar), cs.dropWhile isWordChar)
    else some (.mark c, cs)

/-- What a literal leaves to read is no longer than what it was read from. -/
theorem length_scanLiteral_le (quote : Char) (s : List Char) :
    (scanLiteral quote s).2.2.length ≤ s.length := by
  fun_induction scanLiteral quote s <;> simp_all <;> omega

/-- Taking a lexeme off a text makes it shorter. -/
theorem scan_length_lt {spaces : Bool} {s r : List Char} {l : Lexeme}
    (h : scan spaces s = some (l, r)) : r.length < s.length := by
  have drop_le (p : Char → Bool) (t : List Char) : (t.dropWhile p).length ≤ t.length :=
    (List.dropWhile_suffix p).length_le
  induction s with
  | nil => simp [scan] at h
  | cons c cs ih =>
    rw [scan] at h
    split at h
    · exact Nat.lt_succ_of_lt (ih h)
    · split at h
      · split at h
        · obtain ⟨-, rfl⟩ := by simpa using h
          exact Nat.lt_succ_of_le (drop_le _ cs)
        · exact Nat.lt_succ_of_lt (ih h)
      · split at h
        · obtain ⟨-, rfl⟩ := by simpa using h
          exact Nat.lt_succ_of_le (length_scanLiteral_le c cs)
        · split at h
          · obtain ⟨-, rfl⟩ := by simpa using h
            exact Nat.lt_succ_of_le (drop_le _ cs)
          · obtain ⟨-, rfl⟩ := by simpa using h
            simp

/-- At most `n` lexemes of a text. -/
def scanMany (spaces : Bool) : Nat → List Char → List Lexeme
  | 0, _ => []
  | n + 1, s =>
    match scan spaces s with
    | none => []
    | some (l, rest) => l :: scanMany spaces n rest

/-- More steps than characters change nothing. -/
theorem scanMany_of_length_le {spaces : Bool} {n : Nat} {s : List Char} (h : s.length ≤ n) :
    scanMany spaces n s = scanMany spaces s.length s := by
  suffices H : ∀ n m (s : List Char), s.length ≤ n → s.length ≤ m →
      scanMany spaces n s = scanMany spaces m s from H _ _ _ h (Nat.le_refl _)
  intro n
  induction n with
  | zero =>
    intro m s hn _
    have hs : s = [] := List.eq_nil_of_length_eq_zero (by omega)
    subst hs
    cases m <;> simp [scanMany, scan]
  | succ n ih =>
    intro m s hn hm
    cases m with
    | zero =>
      have hs : s = [] := List.eq_nil_of_length_eq_zero (by omega)
      subst hs
      simp [scanMany, scan]
    | succ m =>
      rw [scanMany, scanMany]
      split
      · rfl
      · next l rest hr =>
        have := scan_length_lt hr
        rw [ih m rest (by omega) (by omega)]

/-! ## What a lexeme looks like -/

/-- The text of a lexeme, a literal with or without its quotes. -/
def text (keepQuotes : Bool) : Lexeme → List Char
  | space => [' ']
  | word letters => letters
  | literal quote content closed =>
    if keepQuotes then quote :: content ++ (if closed then [quote] else []) else content
  | mark c => [c]

/-- The text of a lexeme as a string. -/
def token (keepQuotes : Bool) (l : Lexeme) : String := String.ofList (l.text keepQuotes)

/-- The characters of a token are the text of its lexeme in the same quote mode. -/
@[simp] theorem toList_token (keepQuotes : Bool) (l : Lexeme) :
    (l.token keepQuotes).toList = l.text keepQuotes := by simp [token]

/-- The token of a run of spaces. A literal that contains one space and shows no quotes has the same
token, and a reader that goes by tokens takes the one for the other. -/
def spaceToken : String := " "

end Lexeme

/-- The lexemes of a text in order; spaces are lexemes only if asked for. -/
def lexemes (spaces : Bool) (s : List Char) : List Lexeme := Lexeme.scanMany spaces s.length s

@[simp] theorem lexemes_nil (spaces : Bool) : lexemes spaces [] = [] := rfl

/-- A text in which no lexeme is found has none. -/
theorem lexemes_of_scan_none {spaces : Bool} {s : List Char} (h : Lexeme.scan spaces s = none) :
    lexemes spaces s = [] := by
  cases s with
  | nil => rfl
  | cons c cs => simp [lexemes, Lexeme.scanMany, h]

/-- The lexemes of a text are the one found first and those of the text behind it. -/
theorem lexemes_of_scan_some {spaces : Bool} {s r : List Char} {l : Lexeme}
    (h : Lexeme.scan spaces s = some (l, r)) : lexemes spaces s = l :: lexemes spaces r := by
  have hlt := Lexeme.scan_length_lt h
  cases s with
  | nil => simp [Lexeme.scan] at h
  | cons c cs =>
    rw [List.length_cons] at hlt
    simp only [lexemes, List.length_cons, Lexeme.scanMany, h]
    rw [Lexeme.scanMany_of_length_le (by omega : r.length ≤ cs.length)]

end TableShell
