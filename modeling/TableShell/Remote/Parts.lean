import TableShell.Error
import TableShell.Remote.Table

/-!
# A request to create a table, part by part

A client library makes the parts of a request, and may refuse to make one (`PartLibrary`). The parts
of a definition are made attribute by attribute, then the key, then index by index, and the first
refusal ends it (`PartLibrary.build`). What the parts say all in all is a `TableRequest`
(`PartLibrary.Parts.request`).
-/

namespace TableShell

/-- The parts of a request as a client library makes them, and what it reads from them. A part can
be refused, with a reason. Every index holds all attributes of an item, so nothing is said of what
it holds. -/
structure PartLibrary where
  AttributePart : Type
  KeyPart : Type
  IndexPart : IndexScope → Type
  makeAttribute : (name type : String) → Except String AttributePart
  makeKey : (name : String) → (role : KeyRole) → Except String KeyPart
  makeIndex : (scope : IndexScope) → (name : String) → (keys : List KeyPart) →
    Except String (IndexPart scope)
  readAttribute : AttributePart → String × String
  readKey : KeyPart → KeyElement
  readIndex : (scope : IndexScope) → IndexPart scope → String × List KeyPart

namespace PartLibrary

/-- The parts of a request. -/
structure Parts (lib : PartLibrary) where
  attributes : List lib.AttributePart
  keys : List lib.KeyPart
  localIndexes : List (lib.IndexPart .localIndex) := []
  globalIndexes : List (lib.IndexPart .globalIndex) := []

variable (lib : PartLibrary)

/-- An index as a request has it. -/
def indexFields (scope : IndexScope) (index : lib.IndexPart scope) : String × List KeyElement :=
  ((lib.readIndex scope index).1, (lib.readIndex scope index).2.map lib.readKey)

/-- A part, or the error that it was refused. -/
def made {α : Type} : Except String α → Except Error α := Except.mapError (.storage "create table")

/-- The parts of a key. -/
def buildKeys (schema : List KeyElement) : Except Error (List lib.KeyPart) :=
  schema.mapM fun e => made (lib.makeKey e.name e.role)

/-- The parts with those of an index, at the end of the indexes of its scope. -/
def addIndex (parts : lib.Parts) (i : SecondaryIndex) : Except Error lib.Parts := do
  let keys ← lib.buildKeys i.keySchema
  match i.scope with
  | .localIndex =>
    let index ← made (lib.makeIndex .localIndex i.name keys)
    return { parts with localIndexes := parts.localIndexes ++ [index] }
  | .globalIndex =>
    let index ← made (lib.makeIndex .globalIndex i.name keys)
    return { parts with globalIndexes := parts.globalIndexes ++ [index] }

/-- The parts of a request to create a table, in the order in which they are made. -/
def build (d : TableDefinition) : Except Error lib.Parts := do
  let attributes ← d.allAttributes.mapM fun a => made (lib.makeAttribute a.name a.type.name)
  let keys ← lib.buildKeys d.keySchema
  d.indexes.foldlM lib.addIndex { attributes, keys }

variable {lib}

/-- The request that the parts make for a table. -/
def Parts.request (parts : lib.Parts) (table : String) : TableRequest where
  table
  attributes := parts.attributes.map lib.readAttribute
  keySchema := parts.keys.map lib.readKey
  localIndexes := parts.localIndexes.map (lib.indexFields .localIndex)
  globalIndexes := parts.globalIndexes.map (lib.indexFields .globalIndex)

/-- Parts that are records of what they were made of. -/
def records : PartLibrary where
  AttributePart := String × String
  KeyPart := KeyElement
  IndexPart _ := String × List KeyElement
  makeAttribute name type := .ok (name, type)
  makeKey name role := .ok ⟨name, role⟩
  makeIndex _ name keys := .ok (name, keys)
  readAttribute := id
  readKey := id
  readIndex _ := id

end PartLibrary

end TableShell
