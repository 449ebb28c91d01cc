import TableShell.Text.Blank
import TableShell.Text.Bytes
import TableShell.Text.Cluster

/-!
# Lines that are entered

What the shell reads where no user is at a terminal: lines that end with a line feed, or with a
carriage return and a line feed, and a last one that may end with the input. Nothing in it edits a
line but the backspace, which takes back the cluster before it (`enter`).

The size of a cluster is kept in one byte. So of a cluster of 256 bytes or more a backspace takes
back as many bytes as are over, which may end inside a character. Then the line cannot be edited,
and the input is cut before it.
-/

namespace TableShell

/-- What is entered. -/
structure Input where
  lines : List String := []
  /-- A line that cannot be edited comes after them. -/
  isCut : Bool := false
  deriving DecidableEq, Repr

namespace Input

/-! ## Backspaces -/

/-- The character that takes back what was entered before it. -/
def backspace : Char := '\x08'

/-- A line while it is entered. -/
structure Draft where
  /-- Its characters, the last one first. -/
  chars : List Char := []
  /-- The sizes of its clusters in bytes, the last one first. -/
  sizes : List Nat := []
  deriving DecidableEq, Repr

/-- Enters a cluster, or takes one back. -/
def enter (draft : Draft) (cluster : List Char) : Option Draft :=
  if cluster = [backspace] then
    match draft.sizes with
    | [] => some draft
    | size :: sizes => (Text.dropBytes? size draft.chars).map (⟨·, sizes⟩)
  else some ⟨cluster.reverse ++ draft.chars, Text.byteLength cluster % 256 :: draft.sizes⟩

/-- What a line is once its backspaces are carried out, if they can be. -/
def edited (s : List Char) : Option (List Char) :=
  ((Text.clusters s).foldlM enter {}).map (·.chars.reverse)

/-! ## Lines -/

/-- A line without the carriage return before its line feed. -/
def withoutReturn (line : List Char) : List Char :=
  if line.getLast? = some '\r' then line.dropLast else line

/-- The lines of a text, without their ends. -/
def rawLines (text : String) : List (List Char) :=
  let pieces := Text.fields (· == '\n') text.toList
  pieces.dropLast.map withoutReturn ++ pieces.getLast?.toList.filter (· != [])

/-- The lines once their backspaces are carried out, as far as they can be. -/
def ofLines : List (List Char) → Input
  | [] => {}
  | line :: lines =>
    match edited line with
    | none => { isCut := true }
    | some s => let rest := ofLines lines; { rest with lines := String.ofList s :: rest.lines }

/-- What is entered by a text. -/
def ofText (text : String) : Input := ofLines (rawLines text)

end Input

end TableShell
