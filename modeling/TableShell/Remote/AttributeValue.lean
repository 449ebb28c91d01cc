import TableShell.Json
import TableShell.Value

/-!
# Attribute values of the service

The service writes a value as a JSON object with one field, whose name is the type of the value
(`AttributeValue.toJson`, `AttributeValue.ofJson?`). A value of the shell has an attribute value
(`Value.toAttribute`), and an attribute value is shown as a value of the shell
(`AttributeValue.toValue`). Types that the shell does not know are shown as null, and so is a null
that the service denies.
-/

namespace TableShell

/-- A value as the service has it. -/
inductive AttributeValue where
  | s (text : String)
  | n (text : String)
  | b (bytes : List UInt8)
  | bool (value : Bool)
  | null (value : Bool)
  | l (items : List AttributeValue)
  | m (entries : List (String × AttributeValue))
  | ss (set : List String)
  | ns (set : List String)
  | bs (set : List (List UInt8))
  /-- A type that the shell does not know. -/
  | unknown (type : String)
  deriving Repr

namespace Value

mutual

/-- The attribute value of a value. -/
def toAttribute : Value → AttributeValue
  | string s => .s s
  | number text => .n text
  | binary bytes => .b bytes
  | bool b => .bool b
  | null => .null true
  | list items => .l (itemsToAttributes items)
  | map entries => .m (entriesToAttributes entries)
  | strings set => .ss set
  | numbers set => .ns set
  | binaries set => .bs set

/-- The attribute values of a list of values. -/
def itemsToAttributes : List Value → List AttributeValue
  | [] => []
  | v :: vs => toAttribute v :: itemsToAttributes vs

/-- The attribute values of a list of entries. -/
def entriesToAttributes : List (String × Value) → List (String × AttributeValue)
  | [] => []
  | (name, v) :: es => (name, toAttribute v) :: entriesToAttributes es

end

end Value

namespace AttributeValue

mutual

/-- The value that an attribute value is shown as. -/
def toValue : AttributeValue → Value
  | s text => .string text
  | n text => .number text
  | b bytes => .binary bytes
  | bool value => .bool value
  | null _ => .null
  | l items => .list (itemsToValues items)
  | m entries => .map (entriesToValues entries)
  | ss set => .strings set
  | ns set => .numbers set
  | bs set => .binaries set
  | unknown _ => .null

/-- The values of a list of attribute values. -/
def itemsToValues : List AttributeValue → List Value
  | [] => []
  | v :: vs => toValue v :: itemsToValues vs

/-- The entries of a list of attributes. -/
def entriesToValues : List (String × AttributeValue) → List (String × Value)
  | [] => []
  | (name, v) :: es => (name, toValue v) :: entriesToValues es

end

/-! ## As JSON -/

mutual

/-- An attribute value as the service writes it. -/
def toJson : AttributeValue → Json
  | s text => .obj [("S", .str text)]
  | n text => .obj [("N", .str text)]
  | b bytes => .obj [("B", .ofBytes bytes)]
  | bool value => .obj [("BOOL", .bool value)]
  | null value => .obj [("NULL", .bool value)]
  | l items => .obj [("L", .arr (itemsToJson items))]
  | m entries => .obj [("M", .obj (entriesToJson entries))]
  | ss set => .obj [("SS", .arr (set.map .str))]
  | ns set => .obj [("NS", .arr (set.map .str))]
  | bs set => .obj [("BS", .arr (set.map .ofBytes))]
  | unknown type => .obj [(type, .null)]

/-- A list of attribute values as the service writes it. -/
def itemsToJson : List AttributeValue → List Json
  | [] => []
  | v :: vs => toJson v :: itemsToJson vs

/-- A list of attributes as the service writes it. -/
def entriesToJson : List (String × AttributeValue) → List (String × Json)
  | [] => []
  | (name, v) :: es => (name, toJson v) :: entriesToJson es

end

/-- The text of a JSON string. -/
def string? : Json → Option String
  | .str text => some text
  | _ => none

/-- The bytes of a JSON string. -/
def bytes? (v : Json) : Option (List UInt8) :=
  (string? v).bind fun text => Text.Base64.decode? text.toList

mutual

/-- The attribute value that the service wrote, if it is well formed. -/
def ofJson? : Json → Option AttributeValue
  | .obj [("S", v)] => s <$> string? v
  | .obj [("N", v)] => n <$> string? v
  | .obj [("B", v)] => b <$> bytes? v
  | .obj [("BOOL", .bool value)] => some (bool value)
  | .obj [("NULL", .bool value)] => some (null value)
  | .obj [("L", .arr items)] => l <$> itemsOfJson? items
  | .obj [("M", .obj entries)] => m <$> entriesOfJson? entries
  | .obj [("SS", .arr set)] => ss <$> set.mapM string?
  | .obj [("NS", .arr set)] => ns <$> set.mapM string?
  | .obj [("BS", .arr set)] => bs <$> set.mapM bytes?
  | .obj [(type, _)] =>
    if type ∈ ["S", "N", "B", "BOOL", "NULL", "L", "M", "SS", "NS", "BS"] then none
    else some (unknown type)
  | _ => none

/-- The attribute values that the service wrote. -/
def itemsOfJson? : List Json → Option (List AttributeValue)
  | [] => some []
  | v :: vs => do return (← ofJson? v) :: (← itemsOfJson? vs)

/-- The attributes that the service wrote. -/
def entriesOfJson? : List (String × Json) → Option (List (String × AttributeValue))
  | [] => some []
  | (name, v) :: es => do return (name, ← ofJson? v) :: (← entriesOfJson? es)

end

end AttributeValue

namespace Item

/-- The attributes of an item, as the service has them. -/
def toAttributes (item : Item) : List (String × AttributeValue) :=
  Value.entriesToAttributes item.entries

/-- The item that a list of attributes is shown as. -/
def ofAttributes (attributes : List (String × AttributeValue)) : Item :=
  ofList (AttributeValue.entriesToValues attributes)

/-- An item as the service writes it. -/
def toAttributeJson (item : Item) : Json := .obj (AttributeValue.entriesToJson item.toAttributes)

/-- The item that the service wrote. -/
def ofAttributeJson? : Json → Option Item
  | .obj fields => ofAttributes <$> AttributeValue.entriesOfJson? fields
  | _ => none

end Item

end TableShell
