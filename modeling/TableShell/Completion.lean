import TableShell.Text.Affix
import TableShell.Text.Blank
import TableShell.Text.Bytes
import TableShell.Text.Capital

/-!
# Completing a word

While a line is typed, the word before the cursor can be completed: to a keyword of queries and
definitions, and at the start of the line to a verb as well. The word is what follows the last
blank, and its place in the line is counted in bytes.

The place is one byte after the start of that blank. Where the blank takes more than one byte, no
character starts at that place, and there is no completion (`LastWord.complete?_eq`).
-/

namespace TableShell

/-- What a word can be completed to. -/
structure Completion where
  /-- The number of bytes before the word. -/
  start : Nat
  candidates : List String
  deriving DecidableEq, Repr

namespace Completion

/-- The verbs. -/
def verbs : List String :=
  ["sleep", "clear", "exit", "connect", "echo", "run;", "!h", "!c", "!v", "!?"]

/-- The keywords. -/
def keywords : List String :=
  ["SELECT", "FROM", "WHERE", "LIMIT", "INSERT", "INTO", "VALUE", "UPDATE", "SET", "REMOVE",
    "DELETE", "AND", "OR", "NOT", "DESC", "CREATE", "TABLE", "INDEX", "LOCAL", "GLOBAL", "HASH",
    "RANGE", "DROP", "IF", "EXISTS", "SHOW", "TABLES", "TRUNCATE"]

/-- The keywords that start like a word in capitals. -/
def keywordsLike (word : List Char) : List String :=
  keywords.filter (Text.startsWith · (String.ofList (Text.capitals word)))

/-- The verbs that start like a word. -/
def verbsLike (word : List Char) : List String :=
  verbs.filter (Text.startsWith · (String.ofList word))

/-- The completion of the word at the end of a text. -/
def complete? (before : List Char) : Option Completion :=
  let word := (before.reverse.takeWhile fun c => !Text.isBlank c).reverse
  match before.reverse.dropWhile fun c => !Text.isBlank c with
  | [] => some ⟨0, verbsLike word ++ keywordsLike word⟩
  | blank :: rest =>
    if blank.utf8Size = 1 then some ⟨Text.byteLength rest + 1, keywordsLike word⟩ else none

/-- The completion of the word before the cursor, which stands after so many bytes of the line. -/
def atCursor? (line : String) (cursor : Nat) : Option Completion :=
  complete? (Text.takeBytes cursor line.toList)

/-! ## The last word -/

variable {before front word : List Char}

/-- A text ends with a word, in front of which stands a blank or nothing. -/
structure LastWord (before front word : List Char) : Prop where
  eq_append : before = front ++ word
  word : ∀ c ∈ word, Text.isBlank c = false
  front : ∀ c ∈ front.getLast?, Text.isBlank c = true

/-- The text before the cursor always ends in a last word, possibly an empty one. -/
theorem exists_lastWord (before : List Char) : ∃ front word, LastWord before front word := by
  have hparts :=
    List.takeWhile_append_dropWhile (p := fun c => !Text.isBlank c) (l := before.reverse)
  refine ⟨(before.reverse.dropWhile fun c => !Text.isBlank c).reverse,
    (before.reverse.takeWhile fun c => !Text.isBlank c).reverse, ?_, fun c hc => ?_, fun c hc => ?_⟩
  · rw [← List.reverse_append, hparts, List.reverse_reverse]
  · have hword := List.all_eq_true.1 List.all_takeWhile c (List.mem_reverse.1 hc)
    simpa using hword
  · rw [List.getLast?_reverse] at hc
    have hblank := List.head?_dropWhile_not (fun c => !Text.isBlank c) before.reverse
    rw [hc] at hblank
    simpa using hblank

/-- What stands in front of the last word decides how it is completed. -/
theorem LastWord.complete?_eq (h : LastWord before front word) :
    complete? before = match front.getLast? with
      | none => some ⟨0, verbsLike word ++ keywordsLike word⟩
      | some blank =>
        if blank.utf8Size = 1 then some ⟨Text.byteLength front, keywordsLike word⟩ else none := by
  obtain ⟨rfl, hword, hfront⟩ := h
  have hword : ∀ c ∈ word.reverse, (!Text.isBlank c) = true := by simpa using hword
  rw [complete?, List.reverse_append, List.takeWhile_append_of_pos hword,
    List.dropWhile_append_of_pos hword]
  cases hlast : front.getLast? with
  | none =>
    obtain rfl := List.getLast?_eq_none_iff.1 hlast
    simp
  | some blank =>
    obtain ⟨s, rfl⟩ := List.getLast?_eq_some_iff.1 hlast
    have hblank : Text.isBlank blank = true := hfront blank hlast
    simp only [List.reverse_concat, List.takeWhile_cons, List.dropWhile_cons, hblank, Bool.not_true,
      Bool.false_eq_true, if_false, List.append_nil, List.reverse_reverse]
    split
    · next hsize => simp [hsize]
    · rfl

end Completion

end TableShell
