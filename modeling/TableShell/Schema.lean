import TableShell.Text.Capital

/-!
# Table schemas

A table is defined by its attributes, some of which have a role in its key, and by its secondary
indexes (`TableDefinition`). The service describes a table that exists by a `TableDescription`.

The service has to be told the type of every attribute in any key. `TableDefinition.allAttributes`
lists each of them once, the first definition of a name counting.
-/

namespace TableShell

/-- The type of an attribute that can be part of a key. -/
inductive AttributeType where
  | number
  | string
  | binary
  deriving DecidableEq, Repr

/-- The role of an attribute in a key. -/
inductive KeyRole where
  | hash
  | range
  deriving DecidableEq, Repr

/-- Whether an index shares the hash key of its table. -/
inductive IndexScope where
  | localIndex
  | globalIndex
  deriving DecidableEq, Repr

/-! ## Their names -/

/-- The letter of an attribute type. -/
def AttributeType.name : AttributeType → String
  | number => "N"
  | string => "S"
  | binary => "B"

/-- The attribute type that a word names, in any letter case. -/
def AttributeType.ofWord? (word : String) : Option AttributeType :=
  if Text.spells word "N" then some number
  else if Text.spells word "S" then some string
  else if Text.spells word "B" then some binary
  else none

/-- The keyword of a key role. -/
def KeyRole.name : KeyRole → String
  | hash => "HASH"
  | range => "RANGE"

/-- The key role that a word names, in any letter case. -/
def KeyRole.ofWord? (word : String) : Option KeyRole :=
  if Text.spells word "HASH" then some hash
  else if Text.spells word "RANGE" then some range
  else none

/-- The keyword of an index scope. -/
def IndexScope.name : IndexScope → String
  | localIndex => "LOCAL"
  | globalIndex => "GLOBAL"

/-- The index scope that a word names, in any letter case. -/
def IndexScope.ofWord? (word : String) : Option IndexScope :=
  if Text.spells word "LOCAL" then some localIndex
  else if Text.spells word "GLOBAL" then some globalIndex
  else none

/-- The name of an attribute type is read as that type. -/
theorem AttributeType.ofWord?_name (t : AttributeType) : ofWord? t.name = some t := by
  cases t <;> decide

/-- The name of a key role is read as that role. -/
theorem KeyRole.ofWord?_name (r : KeyRole) : ofWord? r.name = some r := by cases r <;> decide

/-- The name of an index scope is read as that scope. -/
theorem IndexScope.ofWord?_name (s : IndexScope) : ofWord? s.name = some s := by cases s <;> decide

/-! ## Definitions -/

/-- An attribute, and its role in a key if it has one. -/
structure Attribute where
  name : String
  type : AttributeType
  role : Option KeyRole
  deriving DecidableEq, Repr

/-- An attribute of a key. -/
structure KeyElement where
  name : String
  role : KeyRole
  deriving DecidableEq, Repr

/-- A secondary index. -/
structure SecondaryIndex where
  name : String
  scope : IndexScope
  attributes : List Attribute
  deriving DecidableEq, Repr

/-- A table as it is to be created. -/
structure TableDefinition where
  table : String
  attributes : List Attribute
  indexes : List SecondaryIndex
  deriving DecidableEq, Repr

/-- The attributes with a role, in order. -/
def keySchemaOf (attributes : List Attribute) : List KeyElement :=
  attributes.filterMap fun a => a.role.map (⟨a.name, ·⟩)

/-- The key of the index. -/
def SecondaryIndex.keySchema (index : SecondaryIndex) : List KeyElement :=
  keySchemaOf index.attributes

namespace TableDefinition

/-- The key of the table. -/
def keySchema (d : TableDefinition) : List KeyElement := keySchemaOf d.attributes

/-- The attribute at the end of a list that does not name it yet. -/
def addAttribute (known : List Attribute) (a : Attribute) : List Attribute :=
  if known.any (·.name == a.name) then known else known ++ [a]

/-- The attributes of the table, and after them those of its indexes that are not named before. -/
def allAttributes (d : TableDefinition) : List Attribute :=
  (d.indexes.flatMap (·.attributes)).foldl addAttribute d.attributes

/-- The names of the indexes of a scope, in order. -/
def indexNames (d : TableDefinition) (scope : IndexScope) : List String :=
  (d.indexes.filter (·.scope == scope)).map (·.name)

end TableDefinition

/-! ## Descriptions -/

/-- What the service says about a table. -/
structure TableDescription where
  table : String
  status : Option String
  arn : Option String
  keySchema : List KeyElement
  /-- Attributes and their types. -/
  attributes : List (String × String)
  itemCount : Option Int
  localIndexes : List String
  globalIndexes : List String
  deriving DecidableEq, Repr

namespace TableDescription

/-- A description that says nothing but the name. -/
def bare (table : String) : TableDescription := ⟨table, none, none, [], [], none, [], []⟩

/-- The description of a table just defined, as far as its definition determines it. -/
def ofDefinition (d : TableDefinition) : TableDescription where
  table := d.table
  status := none
  arn := none
  keySchema := d.keySchema
  attributes := d.allAttributes.map fun a => (a.name, a.type.name)
  itemCount := none
  localIndexes := d.indexNames .localIndex
  globalIndexes := d.indexNames .globalIndex

end TableDescription

end TableShell
