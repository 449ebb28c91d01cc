import TableShell.Text.Blank
import TableShell.Text.Width
import TableShell.Value

/-!
# Items as a table

Items are drawn as a table with a column for every attribute that one of them has, in ascending
order. Columns are as wide as their widest line, one blank stands on either side of a cell, and a
cell that contains line feeds takes several lines.
-/

namespace TableShell

/-! ## Cells -/

/-- Texts with a comma and a blank between them. -/
def Value.commaSeparated (texts : List String) : String := String.intercalate ", " texts

namespace Value

mutual

/-- A value as it is shown in a cell. -/
def cell : Value → String
  | string s => s
  | number text => text
  | binary bytes => "<Binary " ++ toString bytes.length ++ " bytes>"
  | bool b => if b then "true" else "false"
  | null => "null"
  | list items => "[" ++ commaSeparated (cells items) ++ "]"
  | map entries =>
    "\x7b" ++ commaSeparated ((entryCells entries).mergeSort fun a b => decide (a ≤ b)) ++ "\x7d"
  | strings set => "<<" ++ commaSeparated set ++ ">>"
  | numbers set => "<<" ++ commaSeparated set ++ ">>"
  | binaries set => "<<" ++ toString set.length ++ " binary values>>"

/-- Values as they are shown in a list. -/
def cells : List Value → List String
  | [] => []
  | v :: vs => cell v :: cells vs

/-- Entries as they are shown in a map. -/
def entryCells : List (String × Value) → List String
  | [] => []
  | (name, v) :: es => ("\"" ++ name ++ "\": " ++ cell v) :: entryCells es

end

end Value

/-! ## Drawing -/

namespace Grid

/-- The lines of a cell. -/
abbrev Cell := List (List Char)

/-- The characters of a rule: its ends, its joints and what lies between them. -/
structure Rule where
  left : Char
  fill : Char
  joint : Char
  right : Char

/-- Above the table. -/
def top : Rule := ⟨'┌', '─', '┬', '┐'⟩

/-- Below the names of the columns. -/
def underHeader : Rule := ⟨'╞', '═', '╪', '╡'⟩

/-- Between two items. -/
def between : Rule := ⟨'├', '╌', '┼', '┤'⟩

/-- Below the table. -/
def bottom : Rule := ⟨'└', '─', '┴', '┘'⟩

/-- The cell that shows a text. -/
def cellOf (text : String) : Cell := Text.fields (· == '\n') text.toList

/-- The columns of the widest line of a cell. -/
def cellWidth (cell : Cell) : Nat := (cell.map Text.width).foldr max 0

/-- The widths of the columns of a table, none of them zero. -/
def columnWidths : List (List Cell) → List Nat
  | [] => []
  | [row] => row.map fun cell => max 1 (cellWidth cell)
  | row :: rows => (row.zip (columnWidths rows)).map fun p => max (cellWidth p.1) p.2

/-- The line of a rule. -/
def ruleLine (rule : Rule) (widths : List Nat) : List Char :=
  let parts := widths.map fun w => List.replicate (w + 2) rule.fill
  rule.left :: List.intercalate [rule.joint] parts ++ [rule.right]

/-- A line of a cell in its column. -/
def inColumn (width : Nat) (line : List Char) : List Char :=
  ' ' :: line ++ List.replicate (width - Text.width line) ' ' ++ [' ']

/-- The line of a row with the given number. -/
def rowLine (widths : List Nat) (row : List Cell) (n : Nat) : List Char :=
  let parts := (widths.zip row).map fun p => inColumn p.1 (p.2[n]?.getD [])
  '│' :: List.intercalate ['┆'] parts ++ ['│']

/-- The lines of a row: as many as its highest cell has. -/
def rowLines (widths : List Nat) (row : List Cell) : List (List Char) :=
  (List.range ((row.map List.length).foldr max 0)).map (rowLine widths row)

/-- The lines of a table with a header. -/
def lines (header : List Cell) (rows : List (List Cell)) : List (List Char) :=
  let widths := columnWidths (header :: rows)
  let body := List.intercalate [ruleLine between widths] (rows.map (rowLines widths))
  [ruleLine top widths] ++ rowLines widths header ++ [ruleLine underHeader widths] ++ body ++
    [ruleLine bottom widths]

/-- The names of all attributes of the items, in ascending order. -/
def columns (items : List Item) : List String :=
  (Entries.ofList (items.flatMap fun item => item.names.map (·, ()))).map (·.1)

/-- The cell of an attribute, a hyphen if the item does not have it. -/
def itemCell (item : Item) (column : String) : Cell :=
  match item.get? column with
  | some v => cellOf v.cell
  | none => cellOf "-"

/-- Items as a table. -/
def render (items : List Item) : String :=
  if items.isEmpty then "No items found"
  else
    let columns := columns items
    let rows := items.map fun item => columns.map (itemCell item)
    String.ofList (List.intercalate ['\n'] (lines (columns.map cellOf) rows))

end Grid

end TableShell
