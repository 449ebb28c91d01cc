import TableShell.Error
import TableShell.Schema
import TableShell.Value

/-!
# The key of an item

An item is known by the values of the attributes in the key of its table.
-/

namespace TableShell

namespace Item

/-- The error of an item without an attribute of its key. -/
def missingKey (table name : String) : Error :=
  .storage "truncate table"
    ("item in table [" ++ table ++ "] has no key attribute [" ++ name ++ "]")

/-- The item with the key attributes of another one added. -/
def addKey (table : String) (item : Item) : Item → List KeyElement → Except Error Item
  | key, [] => .ok key
  | key, element :: schema =>
    match item.get? element.name with
    | none => .error (missingKey table element.name)
    | some value => addKey table item (key.insert element.name value) schema

/-- The attributes of an item that are in the key of its table. -/
def extractKey (table : String) (schema : List KeyElement) (item : Item) : Except Error Item :=
  addKey table item .empty schema

/-- The item has the values of the key. -/
def hasKey (item key : Item) : Bool := key.entries.all fun e => item.get? e.1 == some e.2

end Item

end TableShell
