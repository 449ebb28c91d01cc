import TableShell.Proofs.Schema
import TableShell.Remote.Parts
import TableShell.Storage.Memory

/-!
# Creating a table in memory and at the service

A client library makes a request to create a table part by part, and may refuse to make a part
(`PartLibrary`). If it makes every part of what it is given, and reads from the part what it was
made of (`PartLibrary.IsFaithful`), then the parts of a definition are made without an error, and
they say what `TableRequest.ofDefinition` says (`PartLibrary.IsFaithful.exists_build`). Each
attribute of a key is declared in that request (`TableRequest.declares_keys`), and a service that
repeats it describes the table as a store in memory does
(`PartLibrary.IsFaithful.created_alike`).
-/

namespace TableShell

namespace TableRequest

/-- The elements of all keys, the key of the table and those of its indexes. -/
def keyElements (r : TableRequest) : List KeyElement :=
  r.keySchema ++ (r.localIndexes ++ r.globalIndexes).flatMap (·.2)

/-- The indexes of one scope in a request are indexes of the definition. -/
theorem mem_indexesOf {d : TableDefinition} {scope : IndexScope}
    {index : String × List KeyElement} (h : index ∈ indexesOf d scope) :
    ∃ i ∈ d.indexes, index = (i.name, i.keySchema) := by
  obtain ⟨i, hi, rfl⟩ := List.mem_map.1 h
  exact ⟨i, (List.mem_filter.1 hi).1, rfl⟩

/-- The request with further indexes, each after those of its scope. -/
def withIndexes (r : TableRequest) (indexes : List SecondaryIndex) : TableRequest :=
  { r with
    localIndexes := r.localIndexes ++
      (indexes.filter (·.scope == .localIndex)).map fun i => (i.name, i.keySchema)
    globalIndexes := r.globalIndexes ++
      (indexes.filter (·.scope == .globalIndex)).map fun i => (i.name, i.keySchema) }

/-- Indexes are added to a request one after the other. -/
theorem withIndexes_cons (r : TableRequest) (i : SecondaryIndex) (indexes : List SecondaryIndex) :
    r.withIndexes (i :: indexes) = (r.withIndexes [i]).withIndexes indexes := by
  have hcons (scope : IndexScope) : (i :: indexes).filter (·.scope == scope) =
      [i].filter (·.scope == scope) ++ indexes.filter (·.scope == scope) :=
    List.filter_append [i] indexes
  simp only [withIndexes, hcons, List.map_append, List.append_assoc]

/-- Each attribute of a key is declared in the request. -/
theorem declares_keys (d : TableDefinition) :
    ∀ e ∈ (ofDefinition d).keyElements, e.name ∈ (ofDefinition d).attributes.map (·.1) := by
  intro e he
  have hdeclared : (ofDefinition d).attributes.map (·.1) = d.allAttributes.map (·.name) :=
    List.map_map
  rw [hdeclared, TableDefinition.mem_names_allAttributes]
  obtain he | he := List.mem_append.1 he
  · exact .inl (mem_names_of_mem_keySchemaOf he)
  · obtain ⟨index, hindex, he⟩ := List.mem_flatMap.1 he
    obtain ⟨i, hi, rfl⟩ : ∃ i ∈ d.indexes, index = (i.name, i.keySchema) :=
      (List.mem_append.1 hindex).elim mem_indexesOf mem_indexesOf
    exact .inr ⟨i, hi, mem_names_of_mem_keySchemaOf he⟩

end TableRequest

/-! ## What the service repeats -/

namespace TableMessage

/-- A key role is read back from its name. -/
theorem roleOf_name (role : KeyRole) : roleOf role.name = role := by cases role <;> decide

/-- The message repeats the request. The state of the table, its name at the service and the number
of its items are for the service to say. -/
def Repeats (t : TableMessage) (r : TableRequest) : Prop :=
  t = { ofRequest r with status := t.status, arn := t.arn, itemCount := t.itemCount }

/-- A service that repeats a request describes the table that was defined. -/
theorem Repeats.toDescription_eq {t : TableMessage} {d : TableDefinition}
    (h : t.Repeats (.ofDefinition d)) :
    t.toDescription =
      { TableDescription.ofDefinition d with
        status := t.status, arn := t.arn, itemCount := t.itemCount } := by
  rw [h]
  simp [toDescription, ofRequest, TableRequest.ofDefinition, TableDescription.ofDefinition,
    TableRequest.indexesOf, TableDefinition.indexNames, roleOf_name, Function.comp_def]

end TableMessage

/-! ## A request part by part -/

namespace PartLibrary

/-- The library makes every part that has all its fields, and the part has these fields. -/
structure IsFaithful (lib : PartLibrary) : Prop where
  makeAttribute (name type : String) :
    ∃ part, lib.makeAttribute name type = .ok part ∧ lib.readAttribute part = (name, type)
  makeKey (name : String) (role : KeyRole) :
    ∃ part, lib.makeKey name role = .ok part ∧ lib.readKey part = ⟨name, role⟩
  makeIndex (scope : IndexScope) (name : String) (keys : List lib.KeyPart) :
    ∃ part, lib.makeIndex scope name keys = .ok part ∧ lib.readIndex scope part = (name, keys)

variable {lib : PartLibrary}

/-- Where each element of a list can be made into a part, so can all of them, in order. -/
theorem exists_mapM_made {α β γ : Type} {make : α → Except String β} {read : β → γ}
    (fields : α → γ) (h : ∀ a, ∃ part, make a = .ok part ∧ read part = fields a) (as : List α) :
    ∃ parts, as.mapM (fun a => made (make a)) = .ok parts ∧ parts.map read = as.map fields := by
  induction as with
  | nil => exact ⟨[], rfl, rfl⟩
  | cons a as ih =>
    obtain ⟨part, hmake, hread⟩ := h a
    obtain ⟨parts, hparts, hmap⟩ := ih
    refine ⟨part :: parts, ?_, by rw [List.map_cons, List.map_cons, hread, hmap]⟩
    rw [List.mapM_cons, hmake, hparts]
    rfl

namespace IsFaithful

/-- A faithful library builds every key schema, and the keys it builds read as the schema. -/
theorem exists_buildKeys (h : lib.IsFaithful) (schema : List KeyElement) :
    ∃ keys, lib.buildKeys schema = .ok keys ∧ keys.map lib.readKey = schema := by
  obtain ⟨keys, hkeys, hread⟩ := exists_mapM_made id (fun e => h.makeKey e.name e.role) schema
  exact ⟨keys, hkeys, hread.trans (List.map_id schema)⟩

/-- The index is put after those of its scope, with its name and its key. -/
theorem exists_addIndex (h : lib.IsFaithful) (parts : lib.Parts) (i : SecondaryIndex)
    (table : String) :
    ∃ parts', lib.addIndex parts i = .ok parts' ∧
      parts'.request table = (parts.request table).withIndexes [i] := by
  obtain ⟨keys, hkeys, hread⟩ := h.exists_buildKeys i.keySchema
  obtain ⟨index, hindex, hfields⟩ := h.makeIndex i.scope i.name keys
  have hindexFields : lib.indexFields i.scope index = (i.name, i.keySchema) := by
    rw [indexFields, hfields, hread]
  obtain ⟨name, scope, attributes⟩ := i
  rw [addIndex, hkeys]
  cases scope with
  | localIndex =>
    refine ⟨{ parts with localIndexes := parts.localIndexes ++ [index] }, ?_, ?_⟩
    · dsimp only [bind, Except.bind] at hindex ⊢
      rw [hindex]
      rfl
    · simp [Parts.request, TableRequest.withIndexes, hindexFields]
  | globalIndex =>
    refine ⟨{ parts with globalIndexes := parts.globalIndexes ++ [index] }, ?_, ?_⟩
    · dsimp only [bind, Except.bind] at hindex ⊢
      rw [hindex]
      rfl
    · simp [Parts.request, TableRequest.withIndexes, hindexFields]

/-- A faithful library adds every list of indexes, and the request reads as if they were added to
it. -/
theorem exists_addIndexes (h : lib.IsFaithful) (parts : lib.Parts) (indexes : List SecondaryIndex)
    (table : String) :
    ∃ parts', indexes.foldlM lib.addIndex parts = .ok parts' ∧
      parts'.request table = (parts.request table).withIndexes indexes := by
  induction indexes generalizing parts with
  | nil => exact ⟨parts, rfl, by simp [TableRequest.withIndexes]⟩
  | cons i indexes ih =>
    obtain ⟨next, hadd, hnext⟩ := h.exists_addIndex parts i table
    obtain ⟨parts', hparts', hrequest⟩ := ih next
    refine ⟨parts', ?_, ?_⟩
    · rw [List.foldlM_cons, hadd]
      exact hparts'
    · rw [hrequest, hnext, ← TableRequest.withIndexes_cons]

/-- The parts of a definition are made without an error, and say what it says. -/
theorem exists_build (h : lib.IsFaithful) (d : TableDefinition) :
    ∃ parts, lib.build d = .ok parts ∧ parts.request d.table = .ofDefinition d := by
  obtain ⟨attributes, hattributes, hread⟩ :=
    exists_mapM_made _ (fun a => h.makeAttribute a.name a.type.name) d.allAttributes
  obtain ⟨keys, hkeys, hkeySchema⟩ := h.exists_buildKeys d.keySchema
  obtain ⟨parts, hparts, hrequest⟩ :=
    h.exists_addIndexes { attributes, keys } d.indexes d.table
  refine ⟨parts, ?_, ?_⟩
  · rw [build, hattributes, hkeys]
    exact hparts
  · rw [hrequest, Parts.request, hread, hkeySchema]
    rfl

/-- Whatever a table is defined to be, the parts of the request to create it are made without an
error, and the request declares each attribute of a key. A service that repeats the request
describes the table as a store in memory does that has no table of the name yet, but for what is for
the service to say. -/
theorem created_alike (h : lib.IsFaithful) (d : TableDefinition) :
    ∃ parts, lib.build d = .ok parts ∧ parts.request d.table = .ofDefinition d ∧
      (∀ (t : TableMessage) (store : MemoryStore), t.Repeats (parts.request d.table) →
        store.tables.get? d.table = none →
        ∃ stored, (store.createTable d).1 = .ok stored ∧
          (store.createTable d).2.tables.get? d.table = some { description := stored } ∧
          t.toDescription =
            { stored with status := t.status, arn := t.arn, itemCount := t.itemCount }) ∧
      ∀ e ∈ (parts.request d.table).keyElements,
        e.name ∈ (parts.request d.table).attributes.map (·.1) := by
  obtain ⟨parts, hparts, hrequest⟩ := h.exists_build d
  refine ⟨parts, hparts, hrequest, ?_⟩
  rw [hrequest]
  refine ⟨?_, TableRequest.declares_keys d⟩
  intro t store hrepeats hnone
  refine ⟨MemoryStore.newDescription d, ?_, ?_, hrepeats.toDescription_eq⟩
  · rw [MemoryStore.createTable, hnone]
  · rw [MemoryStore.createTable, hnone]
    exact (Dictionary.get?_insert ..).trans (if_pos rfl)

end IsFaithful

/-- The library that keeps its records as they are given is a faithful one. -/
theorem records_isFaithful : records.IsFaithful where
  makeAttribute _ _ := ⟨_, rfl, rfl⟩
  makeKey _ _ := ⟨_, rfl, rfl⟩
  makeIndex _ _ _ := ⟨_, rfl, rfl⟩

/-- An index of each scope. Their keys name attributes of the table, one of them with another
type. -/
theorem created_alike_two_indexes :
    ∃ (d : TableDefinition) (parts : records.Parts) (t : TableMessage) (stored : TableDescription),
      records.build d = .ok parts ∧ t.Repeats (parts.request d.table) ∧ t.arn = some "arn:7" ∧
      ((({} : MemoryStore).createTable d).2.tables.get? "t" = some { description := stored }) ∧
      t.toDescription = { stored with status := none, arn := some "arn:7", itemCount := none } ∧
      stored.attributes = [("id", "S"), ("at", "N"), ("name", "S")] ∧
      stored.keySchema = [⟨"id", .hash⟩, ⟨"at", .range⟩] ∧
      stored.localIndexes = ["by name"] ∧ stored.globalIndexes = ["by time"] := by
  let d : TableDefinition :=
    { table := "t"
      attributes := [⟨"id", .string, some .hash⟩, ⟨"at", .number, some .range⟩]
      indexes :=
        [⟨"by time", .globalIndex, [⟨"at", .string, some .hash⟩, ⟨"id", .string, none⟩]⟩,
          ⟨"by name", .localIndex,
            [⟨"id", .string, some .hash⟩, ⟨"name", .string, some .range⟩]⟩] }
  obtain ⟨parts, hparts, -, halike, -⟩ := records_isFaithful.created_alike d
  let t : TableMessage :=
    { TableMessage.ofRequest (parts.request d.table) with arn := some "arn:7" }
  have hrepeats : t.Repeats (parts.request d.table) := rfl
  obtain ⟨stored, hcreated, hstored, hdescription⟩ := halike t {} hrepeats rfl
  have hnew : MemoryStore.newDescription d = stored := Except.ok.inj hcreated
  subst hnew
  exact ⟨d, parts, t, _, hparts, hrepeats, rfl, hstored, hdescription, by decide, by decide,
    by decide, by decide⟩

end PartLibrary

end TableShell
