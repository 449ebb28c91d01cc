import TableShell.Json
import TableShell.Value

/-!
# Values as JSON

Sets become lists, and bytes become the text of their Base64 form. A number becomes an integer if it
is one of 64 bits, otherwise a floating-point number if it is written like one and not too large,
and otherwise it stays the string that it is.
-/

namespace TableShell

/-- A number as JSON. -/
def Value.numberToJson (text : String) : Json :=
  match Number.readInt64 text.toList with
  | some n => .int n
  | none =>
    match (Number.Decimal.read? text.toList).bind Number.Decimal.toBinary64? with
    | some x => .float x
    | none => .str text

namespace Value

mutual

/-- A value as JSON. -/
def toJson : Value → Json
  | string s => .str s
  | number text => numberToJson text
  | binary bytes => .ofBytes bytes
  | bool b => .bool b
  | null => .null
  | list items => .arr (itemsToJson items)
  | map entries => .obj (Entries.ofList (entriesToJson entries))
  | strings set => .arr (set.map .str)
  | numbers set => .arr (set.map numberToJson)
  | binaries set => .arr (set.map .ofBytes)

/-- Values as JSON. -/
def itemsToJson : List Value → List Json
  | [] => []
  | v :: vs => toJson v :: itemsToJson vs

/-- Entries as JSON. -/
def entriesToJson : List (String × Value) → List (String × Json)
  | [] => []
  | (name, v) :: es => (name, toJson v) :: entriesToJson es

end

end Value

/-- An item as JSON: an object with its attributes in ascending order. -/
def Item.toJson (item : Item) : Json := .obj (Value.entriesToJson item.entries)

end TableShell
