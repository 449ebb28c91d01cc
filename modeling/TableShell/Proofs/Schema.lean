import Mathlib.Data.List.Induction
import Mathlib.Data.List.Nodup
import TableShell.Schema

/-!
# The attributes that a table is declared with

A table is declared with its own attributes and with those of its indexes, as far as no attribute
before them has their name. The attributes are collected one by one, and each time the list that is
being made is searched for the name. What comes out is said without that list: an attribute of an
index is added if its place is the first one for its name (`TableDefinition.firstNamed`,
`TableDefinition.foldl_addAttribute`). So every attribute of a key is declared, the first
declaration of a name counts, and no name is added twice
(`TableDefinition.allAttributes_first_of_each`).
-/

namespace TableShell

/-- The key schema of attributes names only those attributes. -/
theorem mem_names_of_mem_keySchemaOf {attributes : List Attribute} {e : KeyElement}
    (h : e ∈ keySchemaOf attributes) : e.name ∈ attributes.map (·.name) := by
  obtain ⟨a, ha, he⟩ := List.mem_filterMap.1 h
  obtain ⟨role, -, rfl⟩ := Option.map_eq_some_iff.1 he
  exact List.mem_map_of_mem ha

namespace TableDefinition

variable {d : TableDefinition} {known attributes : List Attribute} {taken : List String}
  {a : Attribute} {name : String}

/-! ## Names -/

/-- An attribute is added if its name is not there yet. -/
theorem addAttribute_eq (known : List Attribute) (a : Attribute) :
    addAttribute known a = known ++ if a.name ∈ known.map (·.name) then [] else [a] := by
  have hknown : known.any (·.name == a.name) = true ↔ a.name ∈ known.map (·.name) := by
    rw [List.any_eq_true, List.mem_map]
    exact exists_congr fun b => and_congr_right fun _ => beq_iff_eq
  rw [addAttribute, if_congr hknown rfl rfl]
  split
  · rw [List.append_nil]
  · rfl

/-- The names after adding an attribute are those before it and its own. -/
theorem mem_names_addAttribute :
    name ∈ (addAttribute known a).map (·.name) ↔ name ∈ known.map (·.name) ∨ name = a.name := by
  rw [addAttribute_eq]
  split
  · next hknown =>
    rw [List.append_nil]
    exact ⟨.inl, fun h => h.elim id fun h => h ▸ hknown⟩
  · rw [List.map_append, List.mem_append, List.map_singleton, List.mem_singleton]

/-- The names after adding attributes are those before them and theirs. -/
theorem mem_names_addAttributes :
    name ∈ (attributes.foldl addAttribute known).map (·.name) ↔
      name ∈ known.map (·.name) ∨ name ∈ attributes.map (·.name) := by
  induction attributes generalizing known with
  | nil => simp
  | cons a attributes ih =>
    rw [List.foldl_cons, ih, mem_names_addAttribute, List.map_cons, List.mem_cons, or_assoc]

/-- All attributes are those of the table and those of its indexes. -/
theorem mem_names_allAttributes : name ∈ d.allAttributes.map (·.name) ↔
    name ∈ d.attributes.map (·.name) ∨ ∃ i ∈ d.indexes, name ∈ i.attributes.map (·.name) := by
  rw [allAttributes, mem_names_addAttributes, List.map_flatMap, List.mem_flatMap]

/-! ## The first of each name -/

/-- The attributes whose names are not taken, without those that have the name of an attribute
before them. -/
def firstNamed (taken : List String) (attributes : List Attribute) : List Attribute :=
  (attributes.zipIdx.filter fun (a, i) =>
    a.name ∉ taken ∧ a.name ∉ (attributes.take i).map (·.name)).map (·.1)

/-- One more attribute at the end is kept exactly when its name is new. -/
theorem firstNamed_concat (taken : List String) (attributes : List Attribute) (a : Attribute) :
    firstNamed taken (attributes ++ [a]) = firstNamed taken attributes ++
      if a.name ∈ taken ∨ a.name ∈ attributes.map (·.name) then [] else [a] := by
  -- what stands before a place of the list stands there in the longer list as well
  have hbefore : ∀ p ∈ attributes.zipIdx,
      (attributes ++ [a]).take p.2 = attributes.take p.2 := fun p hp =>
    List.take_append_of_le_length (Nat.le_of_lt (List.snd_lt_of_mem_zipIdx hp))
  have hfirst : (attributes.zipIdx.filter fun p => p.1.name ∉ taken ∧
      p.1.name ∉ ((attributes ++ [a]).take p.2).map (·.name)) =
      attributes.zipIdx.filter fun p => p.1.name ∉ taken ∧
        p.1.name ∉ (attributes.take p.2).map (·.name) :=
    List.filter_congr fun p hp => by rw [hbefore p hp]
  have hlast : (([a].zipIdx attributes.length).filter fun p => p.1.name ∉ taken ∧
      p.1.name ∉ ((attributes ++ [a]).take p.2).map (·.name)).map (·.1) =
      if a.name ∈ taken ∨ a.name ∈ attributes.map (·.name) then [] else [a] := by
    simp only [List.zipIdx_singleton, List.filter_cons, List.filter_nil, List.take_left, ← not_or,
      decide_not, Bool.not_eq_true', decide_eq_false_iff_not, ite_not]
    split <;> rfl
  rw [firstNamed, List.zipIdx_append, Nat.zero_add, List.filter_append, List.map_append, hfirst,
    hlast]
  rfl

/-- The attributes that are added one by one are the first ones of their names. -/
theorem foldl_addAttribute (known attributes : List Attribute) :
    attributes.foldl addAttribute known =
      known ++ firstNamed (known.map (·.name)) attributes := by
  -- from the end of the list: the names that are there already are those of `known` and of
  -- everything in front of the last attribute
  induction attributes using List.reverseRecOn with
  | nil => exact (List.append_nil known).symm
  | append_singleton attributes a ih =>
    rw [List.foldl_concat, addAttribute_eq, if_congr mem_names_addAttributes rfl rfl, ih,
      firstNamed_concat, List.append_assoc]

/-- A kept attribute was declared, under a name that was not taken. -/
theorem mem_firstNamed (h : a ∈ firstNamed taken attributes) :
    a ∈ attributes ∧ a.name ∉ taken := by
  obtain ⟨⟨b, i⟩, hb, rfl⟩ := List.mem_map.1 h
  obtain ⟨hmem, hfirst⟩ := List.mem_filter.1 hb
  exact ⟨List.fst_mem_of_mem_zipIdx hmem, (of_decide_eq_true hfirst).1⟩

/-- No two kept attributes have the same name. -/
theorem nodup_names_firstNamed (taken : List String) (attributes : List Attribute) :
    ((firstNamed taken attributes).map (·.name)).Nodup := by
  induction attributes using List.reverseRecOn with
  | nil => exact List.nodup_nil
  | append_singleton attributes a ih =>
    rw [firstNamed_concat]
    split
    · rwa [List.append_nil]
    · next hnew =>
      rw [List.map_append, List.map_singleton, ← List.concat_eq_append]
      refine ih.concat fun hmem => hnew (.inr ?_)
      obtain ⟨b, hb, hname⟩ := List.mem_map.1 hmem
      exact hname ▸ List.mem_map_of_mem (mem_firstNamed hb).1

/-- The first attribute of a name stays the first one, whatever is added. -/
theorem find?_addAttribute (known : List Attribute) (a : Attribute) (name : String) :
    (addAttribute known a).find? (·.name == name) = (known ++ [a]).find? (·.name == name) := by
  rw [addAttribute_eq]
  split
  · next hknown =>
    rw [List.append_nil, List.find?_append]
    by_cases hname : a.name = name
    · obtain ⟨b, hb, heq⟩ := List.mem_map.1 hknown
      have hfound : (known.find? (·.name == name)).isSome = true :=
        List.find?_isSome.2 ⟨b, hb, beq_iff_eq.2 (heq.trans hname)⟩
      rw [Option.or_of_isSome hfound]
    · rw [List.find?_singleton, if_neg (mt beq_iff_eq.1 hname), Option.or_none]
  · rfl

/-- Looking up a name after adding attributes finds the first declaration of it. -/
theorem find?_addAttributes (known attributes : List Attribute) (name : String) :
    (attributes.foldl addAttribute known).find? (·.name == name) =
      (known ++ attributes).find? (·.name == name) := by
  induction attributes generalizing known with
  | nil => rw [List.foldl_nil, List.append_nil]
  | cons a attributes ih =>
    rw [List.foldl_cons, ih, List.find?_append, find?_addAttribute, ← List.find?_append,
      List.append_assoc, List.singleton_append]

/-! ## All attributes -/

/-- The attributes of the indexes, index by index. -/
def indexAttributes (d : TableDefinition) : List Attribute := d.indexes.flatMap (·.attributes)

/-- The attributes that the indexes add to those of the table. -/
def addedAttributes (d : TableDefinition) : List Attribute :=
  firstNamed (d.attributes.map (·.name)) d.indexAttributes

/-- All attributes are those of the table and those the indexes add to them. -/
theorem allAttributes_eq (d : TableDefinition) :
    d.allAttributes = d.attributes ++ d.addedAttributes :=
  foldl_addAttribute d.attributes d.indexAttributes

/-- The attributes of a table are followed by those attributes of its indexes whose names stand
neither in the table nor earlier in the indexes. With them each attribute of a key is declared. The
first declaration of a name is the one that counts, no name is added twice, and the names are
distinct if those of the table are. -/
theorem allAttributes_first_of_each (d : TableDefinition) :
    d.allAttributes = d.attributes ++ d.addedAttributes ∧
      (∀ e ∈ d.keySchema ++ d.indexes.flatMap (·.keySchema),
        e.name ∈ d.allAttributes.map (·.name)) ∧
      (∀ name, d.allAttributes.find? (·.name == name) =
        (d.attributes ++ d.indexAttributes).find? (·.name == name)) ∧
      (d.addedAttributes.map (·.name)).Nodup ∧
      (∀ a ∈ d.addedAttributes, a.name ∉ d.attributes.map (·.name)) ∧
      ((d.allAttributes.map (·.name)).Nodup ↔ (d.attributes.map (·.name)).Nodup) := by
  have hnew : ∀ a ∈ d.addedAttributes, a.name ∉ d.attributes.map (·.name) :=
    fun a ha => (mem_firstNamed ha).2
  have hadded : (d.addedAttributes.map (·.name)).Nodup := nodup_names_firstNamed _ _
  refine ⟨d.allAttributes_eq, ?_, find?_addAttributes _ _, hadded, hnew, ?_⟩
  · intro e he
    rw [mem_names_allAttributes]
    rcases List.mem_append.1 he with he | he
    · exact .inl (mem_names_of_mem_keySchemaOf he)
    · obtain ⟨i, hi, he⟩ := List.mem_flatMap.1 he
      exact .inr ⟨i, hi, mem_names_of_mem_keySchemaOf he⟩
  · rw [allAttributes_eq, List.map_append, List.nodup_append]
    refine ⟨fun h => h.1, fun h => ⟨h, hadded, ?_⟩⟩
    rintro _ htable _ hindex rfl
    obtain ⟨a, ha, heq⟩ := List.mem_map.1 hindex
    exact hnew a ha (heq ▸ htable)

/-- Two indexes that declare an attribute of the table and one of each other with other types. -/
theorem allAttributes_first_of_each_two_indexes :
    ∃ (d : TableDefinition) (e : KeyElement) (a : Attribute),
      e ∈ d.keySchema ++ d.indexes.flatMap (·.keySchema) ∧
      e.name ∈ d.allAttributes.map (·.name) ∧
      a ∈ d.addedAttributes ∧ a.name ∉ d.attributes.map (·.name) ∧
      d.allAttributes.find? (·.name == "at") = some ⟨"at", .number, some .range⟩ ∧
      (d.attributes.map (·.name)).Nodup ∧ (d.allAttributes.map (·.name)).Nodup ∧
      d.allAttributes =
        d.attributes ++ [⟨"size", .number, some .hash⟩, ⟨"note", .string, none⟩] := by
  let d : TableDefinition :=
    { table := "t"
      attributes := [⟨"id", .string, some .hash⟩, ⟨"at", .number, some .range⟩]
      indexes :=
        [⟨"by size", .globalIndex, [⟨"size", .number, some .hash⟩, ⟨"at", .string, none⟩]⟩,
          ⟨"by note", .localIndex,
            [⟨"id", .binary, some .hash⟩, ⟨"note", .string, none⟩,
              ⟨"size", .string, some .range⟩]⟩] }
  obtain ⟨hall, hkeys, hfind, -, hnew, hnodup⟩ := d.allAttributes_first_of_each
  have he : (⟨"size", .range⟩ : KeyElement) ∈ d.keySchema ++ d.indexes.flatMap (·.keySchema) := by
    decide
  have ha : (⟨"note", .string, none⟩ : Attribute) ∈ d.addedAttributes := by decide
  have htable : (d.attributes.map (·.name)).Nodup := by decide
  refine ⟨d, _, _, he, hkeys _ he, ha, hnew _ ha, ?_, htable, hnodup.2 htable, ?_⟩
  · rw [hfind]
    decide
  · rw [hall]
    decide

end TableDefinition

end TableShell
